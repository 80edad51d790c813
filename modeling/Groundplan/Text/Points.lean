import Groundplan.Text.CodePoints

/-!
# Code points

A text is a row of code points. All of them are characters but the surrogates, which a document
can write by escapes. A text with surrogates can be compared and shown; it cannot be encoded.

A `String` holds characters only. A surrogate is therefore carried by a *stand-in*, a character of
a plane that has none assigned, and a character of the stand-ins' own range stands behind a mark.
Both are reserved; every other character carries itself. `points_ofPoints` says that nothing is
lost or confused by this.
-/

namespace Groundplan.Text

/-- The code points that are no characters. -/
def isSurrogate (n : Nat) : Bool :=
  0xd800 ≤ n && n ≤ 0xdfff

/-- The mark before a reserved character that is meant itself. -/
def literalMark : Char := Char.ofNat 0xde000

/-- The stand-ins of the surrogates, and the mark. -/
def isReserved (c : Char) : Bool :=
  0xdd800 ≤ c.toNat && c.toNat ≤ 0xde000

def standIn (n : Nat) : Char :=
  Char.ofNat (0xd0000 + n)

/-- A character as a text holds it. -/
def carryChar (c : Char) : List Char :=
  if isReserved c then [literalMark, c] else [c]

/-- Characters as a text holds them. -/
def carry (cs : List Char) : List Char :=
  cs.flatMap carryChar

/-- A code point as a text holds it. -/
def carryPoint (n : Nat) : List Char :=
  if isSurrogate n then [standIn n] else carryChar (Char.ofNat n)

def ofPoints (ns : List Nat) : String :=
  String.ofList (ns.flatMap carryPoint)

/-- The code point that a character stands for behind no mark. -/
def pointOf (c : Char) : Nat :=
  if isReserved c then c.toNat - 0xd0000 else c.toNat

/-- Reads one more character of a text. The flag says that a mark came just before. -/
def pointStep : List Nat × Bool → Char → List Nat × Bool
  | (ns, true), c => (c.toNat :: ns, false)
  | (ns, false), c => if c = literalMark then (ns, true) else (pointOf c :: ns, false)

/-- The code points of characters that a text holds. -/
def pointsOf (cs : List Char) : List Nat :=
  (cs.foldl pointStep ([], false)).1.reverse

def points (text : String) : List Nat :=
  pointsOf text.toList

def size (text : String) : Nat :=
  (points text).length

def hasSurrogate (text : String) : Bool :=
  text.toList.any isReserved && (points text).any isSurrogate

/-- The characters of a text without surrogates. -/
def characters (text : String) : List Char :=
  if text.toList.any isReserved then (points text).map Char.ofNat else text.toList

/-- Whether a row of code points comes before another one. -/
def rowBefore : List Nat → List Nat → Bool
  | _, [] => false
  | [], _ :: _ => true
  | m :: ms, n :: ns => m < n || (m = n && rowBefore ms ns)

/-- Whether a text comes before another one, code point by code point. Texts that hold the same code
points in two ways are told apart by their characters, so that this orders all texts. -/
def before (a b : String) : Bool :=
  rowBefore (points a) (points b) || (points a = points b && a < b)

/-- The code point of a surrogate, written by its number. -/
def surrogateEscape (n : Nat) : List Char :=
  '\\' :: 'u' :: hexDigits 4 n

/-- The characters of a text, with other characters in the place of each surrogate. -/
def replaceSurrogates (replacement : Nat → List Char) (text : String) : String :=
  if hasSurrogate text then
    String.ofList ((points text).flatMap fun n =>
      if isSurrogate n then replacement n else carryChar (Char.ofNat n))
  else text

/-- A text with three replacement characters in the place of each surrogate, one for each byte of
its would-be encoding. -/
def lossy (text : String) : String :=
  replaceSurrogates (fun _ => List.replicate 3 (Char.ofNat 0xfffd)) text

/-! ### Nothing is lost -/

theorem toNat_ofNat_of_valid {n : Nat} (h : n.isValidChar) : (Char.ofNat n).toNat = n := by
  unfold Char.ofNat
  rw [dif_pos h]
  rfl

theorem foldl_carryPoint {n : Nat} (h : n < 0x110000) (ns : List Nat) :
    (carryPoint n).foldl pointStep (ns, false) = (n :: ns, false) := by
  by_cases hs : isSurrogate n = true
  · have bounds : 0xd800 ≤ n ∧ n ≤ 0xdfff := by simpa [isSurrogate] using hs
    have value : (standIn n).toNat = 0xd0000 + n :=
      toNat_ofNat_of_valid (Or.inr ⟨by omega, by omega⟩)
    have reserved : isReserved (standIn n) = true := by
      simp only [isReserved, value, Bool.and_eq_true, decide_eq_true_eq]
      omega
    have unmarked : standIn n ≠ literalMark := by
      intro same
      have marked : (standIn n).toNat = 0xde000 := by rw [same]; rfl
      omega
    simp [carryPoint, hs, pointStep, unmarked, pointOf, reserved, value]
  · have valid : n.isValidChar := by
      simp only [isSurrogate, Bool.and_eq_true, decide_eq_true_eq, not_and, Nat.not_le] at hs
      by_cases low : n < 0xd800
      · exact Or.inl low
      · exact Or.inr ⟨hs (by omega), h⟩
    have value := toNat_ofNat_of_valid valid
    by_cases hr : isReserved (Char.ofNat n) = true
    · simp [carryPoint, hs, carryChar, hr, pointStep, value]
    · have unmarked : Char.ofNat n ≠ literalMark := by
        intro same
        exact hr (by rw [same]; decide)
      simp [carryPoint, hs, carryChar, hr, pointStep, unmarked, pointOf, value]

theorem points_ofPoints {ns : List Nat} (h : ∀ n ∈ ns, n < 0x110000) :
    points (ofPoints ns) = ns := by
  have fold (ns seen : List Nat) (h : ∀ n ∈ ns, n < 0x110000) :
      (ns.flatMap carryPoint).foldl pointStep (seen, false) = (ns.reverse ++ seen, false) := by
    induction ns generalizing seen with
    | nil => rfl
    | cons n ns ih =>
      rw [List.flatMap_cons, List.foldl_append, foldl_carryPoint (h n (by simp)),
        ih (n :: seen) (fun m hm => h m (by simp [hm]))]
      simp
  simp [points, ofPoints, pointsOf, fold ns [] h]

end Groundplan.Text
