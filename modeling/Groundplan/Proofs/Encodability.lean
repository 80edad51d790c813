import Groundplan.Proofs.NameSpelling
import Groundplan.Text.Utf8
import Mathlib.Data.Nat.Digits.Defs

/-!
# Which texts can be encoded

A text can be encoded exactly when no surrogate is among its code points. A surrogate is carried by
a reserved character, so a text without reserved characters can be encoded, and putting such a text
in front of another one changes nothing about the other one. A mark at the end of the first text
would change it, but a mark is reserved.
-/

namespace Groundplan.Text

/-- Whether a text can be encoded. -/
def IsEncodable (text : String) : Prop :=
  encodeFault? text = none

instance : DecidablePred IsEncodable := fun _ => inferInstanceAs (Decidable (_ = none))

/-- Whether a text carries every code point by the character itself. -/
def Unreserved (text : String) : Prop :=
  text.toList.any isReserved = false

instance : DecidablePred Unreserved := fun _ => inferInstanceAs (Decidable (_ = false))

/-! ### Faults -/

theorem firstSurrogates?_eq_none_iff (position : Nat) (ns : List Nat) :
    firstSurrogates? position ns = none ↔ ns.any isSurrogate = false := by
  induction ns generalizing position with
  | nil => simp [firstSurrogates?]
  | cons n ns ih =>
      cases hn : isSurrogate n with
      | true => simp [firstSurrogates?, hn]
      | false => simp only [firstSurrogates?, hn, Bool.false_eq_true, if_false, ih, List.any_cons,
          Bool.false_or]

theorem encodable_iff (text : String) : IsEncodable text ↔ hasSurrogate text = false := by
  cases hsurrogate : hasSurrogate text with
  | false => simp [IsEncodable, encodeFault?, hsurrogate]
  | true =>
      have hany : (points text).any isSurrogate = true := by
        rw [hasSurrogate, Bool.and_eq_true] at hsurrogate
        exact hsurrogate.2
      simp [IsEncodable, encodeFault?, hsurrogate, firstSurrogates?_eq_none_iff, hany]

/-! ### Code points of joined texts -/

theorem isSurrogate_toNat (c : Char) : isSurrogate c.toNat = false := by
  have hvalid : c.toNat < 0xd800 ∨ 0xdfff < c.toNat ∧ c.toNat < 0x110000 := c.valid
  simp only [isSurrogate, Bool.and_eq_false_iff, decide_eq_false_iff_not, Nat.not_le]
  omega

/-- What was read before does not matter for what is read next. -/
theorem foldl_pointStep (cs : List Char) (seen : List Nat) (marked : Bool) :
    (cs.foldl pointStep (seen, marked)).1 = (cs.foldl pointStep ([], marked)).1 ++ seen := by
  induction cs generalizing seen marked with
  | nil => rfl
  | cons c cs ih =>
      cases marked with
      | true =>
          simp only [List.foldl_cons, pointStep]
          rw [ih (c.toNat :: seen), ih [c.toNat]]
          simp
      | false =>
          simp only [List.foldl_cons, pointStep]
          split
          · exact ih seen true
          · rw [ih (pointOf c :: seen), ih [pointOf c]]
            simp

theorem foldl_pointStep_of_unreserved {cs : List Char} (h : cs.any isReserved = false)
    (seen : List Nat) :
    cs.foldl pointStep (seen, false) = ((cs.map Char.toNat).reverse ++ seen, false) := by
  induction cs generalizing seen with
  | nil => rfl
  | cons c cs ih =>
      rw [List.any_cons, Bool.or_eq_false_iff] at h
      have hmark : c ≠ literalMark := by
        rintro rfl
        exact absurd h.1 (by decide)
      rw [List.foldl_cons, pointStep, if_neg hmark, pointOf, h.1]
      simp [ih h.2]

theorem pointsOf_append {cs : List Char} (h : cs.any isReserved = false) (ds : List Char) :
    pointsOf (cs ++ ds) = cs.map Char.toNat ++ pointsOf ds := by
  rw [pointsOf, List.foldl_append, foldl_pointStep_of_unreserved h, foldl_pointStep]
  simp [pointsOf]

theorem hasSurrogate_append {text : String} (h : Unreserved text) (rest : String) :
    hasSurrogate (text ++ rest) = hasSurrogate rest := by
  have hfree : (text.toList.map Char.toNat).any isSurrogate = false := by
    simp [isSurrogate_toNat]
  rw [hasSurrogate, hasSurrogate, points, points, String.toList_append, pointsOf_append h,
    List.any_append, List.any_append, hfree, h, Bool.false_or, Bool.false_or]

/-- A text in front that carries its code points plainly does not matter. -/
theorem encodable_append_iff {text : String} (h : Unreserved text) (rest : String) :
    IsEncodable (text ++ rest) ↔ IsEncodable rest := by
  rw [encodable_iff, encodable_iff, hasSurrogate_append h]

theorem encodable_of_unreserved {text : String} (h : Unreserved text) : IsEncodable text := by
  rw [encodable_iff, hasSurrogate, h, Bool.false_and]

/-! ### Texts without reserved characters -/

theorem unreserved_ofList {cs : List Char} (h : cs.any isReserved = false) :
    Unreserved (String.ofList cs) :=
  free_ofList h

theorem unreserved_append_iff (text rest : String) :
    Unreserved (text ++ rest) ↔ Unreserved text ∧ Unreserved rest :=
  free_append_iff text rest

theorem Unreserved.append {text rest : String} (h : Unreserved text) (h' : Unreserved rest) :
    Unreserved (text ++ rest) :=
  Free.append h h'

theorem unreserved_intercalate {separator : String} (h : Unreserved separator)
    {texts : List String} (h' : ∀ text ∈ texts, Unreserved text) :
    Unreserved (separator.intercalate texts) :=
  free_intercalate h h'

/-! ### Numbers -/

theorem unreserved_decimal (n : Nat) : Unreserved (decimal n) := by
  rw [Unreserved, decimal, String.toList_ofList, List.any_eq_false]
  intro c hc
  have hdigit : c.isDigit = true := Nat.isDigit_of_mem_toDigits (by decide) (by decide) hc
  have hbound : c.toNat ≤ 57 := by
    change (decide (c.val ≥ '0'.val) && decide (c.val ≤ '9'.val)) = true at hdigit
    rw [Bool.and_eq_true] at hdigit
    exact UInt32.le_iff_toNat_le.1 (of_decide_eq_true hdigit.2)
  simp only [isReserved, Bool.and_eq_true, decide_eq_true_eq, not_and]
  omega

theorem unreserved_decimalInt (n : Int) : Unreserved (decimalInt n) := by
  cases n with
  | ofNat n => exact unreserved_decimal n
  | negSucc n => exact Unreserved.append (by decide) (unreserved_decimal (n + 1))

end Groundplan.Text
