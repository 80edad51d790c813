/-!
# Slots

A set of numbers is listed in the order of the slots of a table, not in the order in which its
members came. The table has a power of two of slots, more than twice as many as members; up to four
members stand in eight. A member goes to the slot that its residue names, or to a free one among
the next nine if these do not reach beyond the table; if there is none, the search goes on from
another slot. `order_perm` says that the members are the same ones, whatever their slots.
-/

namespace Groundplan.Slots

/-- The least power of two from `size` on that is greater than a bound; `fuel` bounds the number of
doublings. -/
def doubled (bound : Nat) : Nat → Nat → Nat
  | 0, size => size
  | fuel + 1, size => if size ≤ bound then doubled bound fuel (2 * size) else size

/-- The number of slots for a number of members. -/
def sizeFor (count : Nat) : Nat :=
  if count ≤ 4 then 8 else doubled (2 * count) count 8

/-- How many slots after the first are looked at in one go. -/
def reach : Nat := 9

/-- The slots that are looked at from one on. -/
def window (size slot : Nat) : List Nat :=
  if slot + reach < size then (List.range (reach + 1)).map (slot + ·) else [slot]

/-- The slot in which a member ends up. What is left of its residue moves the search on, five bits
at a time; after that the search visits every slot. -/
def search (size : Nat) (taken : List Nat) : Nat → Nat → Nat → Nat
  | 0, slot, _ => slot
  | fuel + 1, slot, left =>
    match (window size slot).find? fun s => !taken.contains s with
    | some free => free
    | none => search size taken fuel ((slot * 5 + 1 + left / 32) % size) (left / 32)

/-- A residue as a word of 64 bits. -/
def word (residue : Int) : Nat :=
  (residue.emod (Nat.pow 2 64 : Nat)).toNat

/-- Puts a member with its residue into a free slot. -/
def place {α : Type} (size : Nat) (table : List (Nat × α)) (member : Int × α) : List (Nat × α) :=
  let start := word member.1
  (search size (table.map Prod.fst) (size + 16) (start % size) start, member.2) :: table

/-- The members in the order of their slots. -/
def order {α : Type} (members : List (Int × α)) : List α :=
  ((members.foldl (place (sizeFor members.length)) []).mergeSort fun a b => a.1 ≤ b.1).map Prod.snd

theorem foldl_place_perm {α : Type} (size : Nat) (members : List (Int × α))
    (table : List (Nat × α)) :
    ((members.foldl (place size) table).map Prod.snd).Perm
      (members.map Prod.snd ++ table.map Prod.snd) := by
  induction members generalizing table with
  | nil => exact List.Perm.refl _
  | cons member members ih =>
    refine (ih (place size table member)).trans ?_
    exact List.perm_middle

/-- Listing a set loses no member and adds none. -/
theorem order_perm {α : Type} (members : List (Int × α)) :
    (order members).Perm (members.map Prod.snd) := by
  refine ((List.mergeSort_perm _ _).map Prod.snd).trans ?_
  have placed := foldl_place_perm (sizeFor members.length) members []
  rwa [List.map_nil, List.append_nil] at placed

end Groundplan.Slots
