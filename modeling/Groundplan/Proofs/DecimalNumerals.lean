import Groundplan.Yaml.Scalar
import Mathlib.Data.List.TakeWhile
import Mathlib.Data.Nat.Digits.Defs
import Mathlib.Data.String.Basic

/-!
# Decimal numerals

A whole number in base ten begins with a digit other than zero, unless it is zero, and with a sign
if it is negative. Two things follow. Texts are compared from the left, so comparing the numeral
with `1` compares the number with one, although numerals are not ordered like numbers in general.
And a plain scalar with this text is a whole number again, as long as it has no more digits than are
read.
-/

namespace Groundplan

namespace Text

/-! ### The digits of a number -/

theorem isDigit_toDigits (n : Nat) : ∀ c ∈ Nat.toDigits 10 n, c.isDigit = true :=
  fun _ hc => Nat.isDigit_of_mem_toDigits (by decide) (by decide) hc

theorem bounds_of_isDigit {c : Char} (h : c.isDigit = true) : 0x30 ≤ c.toNat ∧ c.toNat ≤ 0x39 :=
  Char.isDigit_iff_toNat.1 h

/-- A class of characters that has no member among the digits. -/
theorem eq_false_of_isDigit {p : Char → Bool} {c : Char} (h : c.isDigit = true)
    (hp : p c = true → c.toNat < 0x30 ∨ 0x39 < c.toNat) : p c = false := by
  have hbounds := bounds_of_isDigit h
  by_contra hne
  have := hp (by simpa using hne)
  omega

theorem ne_of_isDigit {c d : Char} (h : c.isDigit = true) (hd : d.isDigit = false) : c ≠ d := by
  rintro rfl
  rw [h] at hd
  cases hd

/-- The first digit of a positive number is not zero. A single digit is the number itself. -/
theorem exists_toDigits_eq_cons {n : Nat} (h : 0 < n) :
    ∃ first rest, Nat.toDigits 10 n = first :: rest ∧ 0x30 < first.toNat ∧
      (rest = [] ↔ n < 10) ∧ (n < 10 → first.toNat = 0x30 + n) := by
  induction n using Nat.strong_induction_on with
  | _ n ih =>
    by_cases hsmall : n < 10
    · have hdigit := Nat.toNat_digitChar_of_lt_ten hsmall
      exact ⟨n.digitChar, [], Nat.toDigits_of_lt_base hsmall, by omega, by simp [hsmall],
        fun _ => hdigit⟩
    · -- The last digit is split off, which leaves the first one in its place.
      obtain ⟨first, rest, heq, hfirst, -, -⟩ := ih (n / 10) (by omega) (by omega)
      refine ⟨first, rest ++ [(n % 10).digitChar], ?_, hfirst, by simp [hsmall], by omega⟩
      rw [Nat.toDigits_of_base_le (by decide) (by omega), heq, List.cons_append]

theorem decimalInt_natCast (n : Nat) : decimalInt (n : Int) = decimal n := rfl

theorem toList_decimal (n : Nat) : (decimal n).toList = Nat.toDigits 10 n :=
  String.toList_ofList

theorem toList_decimalInt_negSucc (n : Nat) :
    (decimalInt (.negSucc n)).toList = '-' :: Nat.toDigits 10 (n + 1) := by
  rw [decimalInt, String.toList_append, toList_decimal]
  rfl

theorem of_mem_decimalInt {n : Int} {c : Char} (h : c ∈ (decimalInt n).toList) :
    c = '-' ∨ c.isDigit = true := by
  cases n with
  | ofNat n =>
      rw [Int.ofNat_eq_natCast, decimalInt_natCast, toList_decimal] at h
      exact .inr (isDigit_toDigits n c h)
  | negSucc n =>
      rw [toList_decimalInt_negSucc, List.mem_cons] at h
      exact h.imp_right (isDigit_toDigits (n + 1) c)

theorem isEmpty_decimalInt (n : Int) : (decimalInt n).isEmpty = false := by
  rw [Bool.eq_false_iff, ne_eq, String.isEmpty_iff]
  intro hempty
  cases n with
  | ofNat n =>
      have htoList := toList_decimal n
      rw [← decimalInt_natCast, ← Int.ofNat_eq_natCast, hempty] at htoList
      exact Nat.toDigits_ne_nil htoList.symm
  | negSucc n =>
      have htoList := toList_decimalInt_negSucc n
      rw [hempty] at htoList
      exact absurd htoList.symm (List.cons_ne_nil _ _)

/-! ### The order of numerals around one -/

theorem char_lt_iff {c d : Char} : c < d ↔ c.toNat < d.toNat :=
  UInt32.lt_iff_toNat_lt

theorem decimalInt_lt_one_iff (n : Int) : decimalInt n < "1" ↔ n < 1 := by
  rw [String.lt_iff_toList_lt, show "1".toList = ['1'] from rfl]
  cases n with
  | negSucc n =>
      rw [toList_decimalInt_negSucc, List.cons_lt_cons_iff]
      exact iff_of_true (.inl (by decide)) (by omega)
  | ofNat n =>
      rw [Int.ofNat_eq_natCast, decimalInt_natCast, toList_decimal]
      rcases Nat.eq_zero_or_pos n with rfl | hpos
      · decide
      · obtain ⟨first, rest, heq, hfirst, -, -⟩ := exists_toDigits_eq_cons hpos
        have hle : ¬ first < '1' := by
          rw [char_lt_iff, show '1'.toNat = 0x31 from rfl]
          omega
        rw [heq, List.cons_lt_cons_iff]
        simp only [hle, List.not_lt_nil, and_false, or_self, false_iff]
        omega

theorem one_lt_decimalInt_iff (n : Int) : "1" < decimalInt n ↔ 1 < n := by
  rw [String.lt_iff_toList_lt, show "1".toList = ['1'] from rfl]
  cases n with
  | negSucc n =>
      rw [toList_decimalInt_negSucc, List.cons_lt_cons_iff]
      refine iff_of_false ?_ (by omega)
      rintro (hlt | ⟨heq, -⟩)
      · exact absurd hlt (by decide)
      · exact absurd heq (by decide)
  | ofNat n =>
      rw [Int.ofNat_eq_natCast, decimalInt_natCast, toList_decimal]
      rcases Nat.eq_zero_or_pos n with rfl | hpos
      · decide
      · obtain ⟨first, rest, heq, hfirst, hrest, hsmall⟩ := exists_toDigits_eq_cons hpos
        rw [heq, List.cons_lt_cons_iff, char_lt_iff, show '1'.toNat = 0x31 from rfl]
        -- A single digit decides by its value. More digits are above one, whatever the first is.
        cases rest with
        | nil =>
            have hvalue := hsmall (hrest.1 rfl)
            simp only [List.not_lt_nil, and_false, or_false]
            omega
        | cons second rest =>
            have hlarge : ¬ n < 10 := fun hlt => List.cons_ne_nil _ _ (hrest.2 hlt)
            refine iff_of_true ?_ (by omega)
            by_cases hone : first.toNat = 0x31
            · exact .inr ⟨(Char.toNat_inj.1 hone).symm, List.nil_lt_cons _ _⟩
            · exact .inl (by omega)

/-! ### Reading digits -/

section Digits

variable {cs : List Char} (h : ∀ c ∈ cs, c.isDigit = true)
include h

theorem splitSign_digits : splitSign cs = (false, cs) := by
  cases cs with
  | nil => rfl
  | cons c cs =>
      have hminus : c ≠ '-' := ne_of_isDigit (h c (by simp)) (by decide)
      have hplus : c ≠ '+' := ne_of_isDigit (h c (by simp)) (by decide)
      unfold splitSign
      split
      next heq => exact absurd (List.cons.inj heq).1 hminus
      next heq => exact absurd (List.cons.inj heq).1 hplus
      next => rfl

theorem numeralChars_digits : numeralChars cs = cs := by
  have hpadding {c : Char} (hc : c.isDigit = true) : isPadding c = false :=
    eq_false_of_isDigit hc fun hblank => by
      simp [isPadding, isBlank] at hblank
      omega
  have hdrop {cs : List Char} (h : ∀ c ∈ cs, c.isDigit = true) : cs.dropWhile isPadding = cs := by
    cases cs with
    | nil => rfl
    | cons c cs => rw [List.dropWhile_cons_of_neg (by simp [hpadding (h c (by simp))])]
  have htrim : trim cs = cs := by
    rw [trim, hdrop h, hdrop (fun c hc => h c (List.mem_reverse.1 hc)), List.reverse_reverse]
  have hascii : ∀ c ∈ cs, asciiDigit c = c := by
    intro c hc
    obtain ⟨hlow, hhigh⟩ := bounds_of_isDigit (h c hc)
    have hvalue : decimalValue? c = some (c.toNat - 0x30) := by
      rw [decimalValue?, decimalZeros, List.find?_cons_of_pos (by simp; omega)]
      rfl
    rw [asciiDigit, hvalue]
    change Char.ofNat (0x30 + (c.toNat - 0x30)) = c
    rw [Nat.add_sub_cancel' hlow, Char.ofNat_toNat]
  rw [numeralChars, htrim, List.map_congr_left hascii, List.map_id']

/-- Digits spell the number that they add up to. -/
theorem readDigits?_digits (afterDigit : Bool) (acc : Nat) (hne : afterDigit = true ∨ cs ≠ []) :
    readDigits? 10 afterDigit acc cs = some (Nat.ofDigitChars 10 cs acc) := by
  induction cs generalizing afterDigit acc with
  | nil =>
      have hafter : afterDigit = true := by simpa using hne
      simp [readDigits?, hafter]
  | cons c cs ih =>
      obtain ⟨hlow, hhigh⟩ := bounds_of_isDigit (h c (by simp))
      have hunderscore : c ≠ '_' := ne_of_isDigit (h c (by simp)) (by decide)
      have hvalue : digitValue? c = some (c.toNat - 0x30) := by
        simp [digitValue?, hlow, hhigh]
      rw [readDigits?, if_neg hunderscore, hvalue]
      simp only [if_pos (show c.toNat - 0x30 < 10 by omega)]
      rw [ih (fun d hd => h d (by simp [hd])) true _ (.inl rfl), Nat.ofDigitChars_cons,
        Nat.mul_comm]
      rfl

theorem leadingDigits_digits : leadingDigits cs = cs.length := by
  rw [leadingDigits, numeralChars_digits h, splitSign_digits h, List.takeWhile_eq_self_iff.2 h]

end Digits

theorem dropBaseMark_ten (cs : List Char) : dropBaseMark 10 cs = cs := by
  unfold dropBaseMark
  split
  · simp
  · rfl

theorem readInt?_toDigits (n : Nat) : readInt? 10 (Nat.toDigits 10 n) = some (n : Int) := by
  have hdigits := isDigit_toDigits n
  rw [readInt?, numeralChars_digits hdigits, splitSign_digits hdigits]
  simp only
  rw [dropBaseMark_ten, readDigits?_digits hdigits false 0 (.inr Nat.toDigits_ne_nil),
    Nat.ofDigitChars_toDigits (by decide) (by decide)]
  rfl

/-- Only the numbers that are written have few enough digits to be read. -/
theorem length_toDigits_le_iff (n : Nat) :
    (Nat.toDigits 10 n).length ≤ digitLimit ↔ n < unwritable := by
  have hpower (limit : Nat) (hpos : 0 < limit) :
      (Nat.toDigits 10 n).length ≤ limit ↔ n < Nat.pow 10 limit :=
    Nat.length_toDigits_le_iff (by decide) hpos
  unfold unwritable
  exact hpower digitLimit (by decide)

theorem unwritable_pos : 0 < unwritable :=
  (length_toDigits_le_iff 0).1 (by decide)

theorem length_toDigits_unwritable : (Nat.toDigits 10 unwritable).length = digitLimit + 1 := by
  have hmany : digitLimit < (Nat.toDigits 10 unwritable).length :=
    Nat.not_le.1 (mt (length_toDigits_le_iff unwritable).1 (Nat.lt_irrefl _))
  have hpower (limit : Nat) : (Nat.toDigits 10 (Nat.pow 10 limit)).length ≤ limit + 1 :=
    (Nat.length_toDigits_le_iff (by decide) (Nat.succ_pos limit)).2
      (Nat.pow_lt_pow_right (by decide) (Nat.lt_succ_self limit))
  refine Nat.le_antisymm ?_ hmany
  unfold unwritable
  exact hpower digitLimit

end Text

namespace Yaml

/-! ### Plain scalars -/

theorem not_contains_of_head? {words : List String} {cs : List Char} {p : Char → Bool}
    (hwords : words.all (fun word => word.toList.head?.any p) = true)
    (hcs : cs.head?.any p = false) : words.contains (String.ofList cs) = false := by
  rw [List.contains_eq_mem, decide_eq_false_iff_not]
  intro hmem
  have hhead := List.all_eq_true.1 hwords _ hmem
  rw [String.toList_ofList, hcs] at hhead
  cases hhead

/-- A plain scalar that is a sign, or none, and digits without a zero in front is a whole number. -/
theorem plainTag_of_digits {text : String} {first : Char} {rest : List Char}
    (hsign : text.toList = first :: rest ∨ text.toList = '-' :: first :: rest)
    (hdigits : ∀ c ∈ first :: rest, c.isDigit = true) (hzero : first ≠ '0') :
    plainTag text = .int := by
  have hfirst : first.isDigit = true := hdigits first (by simp)
  have hdrop : rest.dropWhile (isDigitOr isUnderscore) = [] := by
    rw [List.dropWhile_eq_nil_iff]
    intro c hc
    simp [isDigitOr, hdigits c (by simp [hc])]
  have hunsigned : dropSign text.toList = first :: rest := by
    rcases hsign with heq | heq
    · have hminus : first ≠ '-' := Text.ne_of_isDigit hfirst (by decide)
      have hplus : first ≠ '+' := Text.ne_of_isDigit hfirst (by decide)
      rw [heq]
      unfold dropSign
      split
      next heq => exact absurd (List.cons.inj heq).1 hminus
      next heq => exact absurd (List.cons.inj heq).1 hplus
      next => rfl
    · rw [heq, dropSign]
  have hlast : dropFinalNewline text.toList = text.toList := by
    have hbreak : '\n' ∉ text.toList := by
      have hrest : '\n' ∉ first :: rest := fun hmem => absurd (hdigits _ hmem) (by decide)
      rcases hsign with heq | heq
      · rwa [heq]
      · rw [heq]
        simpa using hrest
    rw [dropFinalNewline, if_neg fun hbad => hbreak (List.mem_of_getLast? hbad)]
  -- The words of the other types begin with a letter or a point.
  have hhead (p : Char → Bool) (hminus : p '-' = false) (hfirst : p first = false) :
      text.toList.head?.any p = false := by
    rcases hsign with heq | heq <;> rw [heq] <;> simpa
  have hpoint : first ≠ '.' := Text.ne_of_isDigit hfirst (by decide)
  have hbool : isBoolForm text.toList = false := by
    refine not_contains_of_head? (p := fun c => decide (0x41 ≤ c.toNat)) (by decide)
      (hhead _ rfl ?_)
    have := Text.bounds_of_isDigit hfirst
    simp only [decide_eq_false_iff_not]
    omega
  have hfloat : isFloatForm text.toList = false := by
    have hwords : [".nan", ".NaN", ".NAN"].contains (String.ofList text.toList) = false :=
      not_contains_of_head? (p := (· = '.')) (by decide) (hhead _ rfl (by simpa using hpoint))
    have hunsignedWords :
        [".inf", ".Inf", ".INF"].contains (String.ofList (first :: rest)) = false :=
      not_contains_of_head? (p := (· = '.')) (by decide) (by simpa using hpoint)
    have hbare (rest : List Char) : text.toList ≠ '.' :: rest := by
      intro heq
      simpa [heq] using hhead (· = '.') rfl (by simpa using hpoint)
    rw [isFloatForm]
    simp only [hunsigned, afterDigits?, hfirst, hdrop, if_true, hwords, hunsignedWords, dropSixty?,
      Bool.or_false]
    exact hbare
  have hint : isIntForm text.toList = true := by
    rw [isIntForm]
    simp only [hunsigned, afterDigits?, hfirst, hdrop, hzero, Bool.true_and, ne_eq, not_false_iff,
      decide_true, if_true, Bool.or_eq_true]
    right
    split
    next => rfl
    next => rfl
  rw [plainTag]
  simp only [hlast, hbool, hfloat, hint]
  rfl

theorem buildNumeral_toDigits (n : Nat) :
    buildNumeral 10 (Nat.toDigits 10 n) =
      if n < Text.unwritable then .ok (n : Int)
      else .error (.integerSize (Nat.toDigits 10 n).length) := by
  have hlimit := Text.length_toDigits_le_iff n
  rw [buildNumeral, Text.leadingDigits_digits (Text.isDigit_toDigits n), Text.readInt?_toDigits n]
  by_cases hfew : n < Text.unwritable
  · rw [if_pos hfew, if_neg]
    simpa using hlimit.2 hfew
  · rw [if_neg hfew, if_pos]
    simpa using mt hlimit.1 hfew

/-- The number of a sign and of digits without a zero in front. -/
theorem buildInt_of_digits {text : String} {n : Nat} {negative : Bool} (hpos : 0 < n)
    (hsign : text.toList = (if negative then ['-'] else []) ++ Nat.toDigits 10 n) :
    buildInt text =
      (buildNumeral 10 (Nat.toDigits 10 n)).map fun m => if negative then -m else m := by
  have hdigits := Text.isDigit_toDigits n
  obtain ⟨first, rest, heq, hfirst, -, -⟩ := Text.exists_toDigits_eq_cons hpos
  have hfilter : (text.toList.filter fun c => !isUnderscore c) = text.toList := by
    rw [List.filter_eq_self]
    intro c hc
    have hunderscore : c ≠ '_' := by
      rw [hsign, List.mem_append] at hc
      rcases hc with hc | hc
      · rintro rfl
        cases negative <;> simp at hc
      · exact Text.ne_of_isDigit (hdigits c hc) (by decide)
    simpa [isUnderscore] using hunderscore
  have hsplit : Text.splitSign text.toList = (negative, Nat.toDigits 10 n) := by
    rw [hsign]
    cases negative with
    | true => rfl
    | false => exact Text.splitSign_digits hdigits
  have hne : text.toList.isEmpty = false := by
    rw [hsign, heq]
    simp
  have hcolon : (Nat.toDigits 10 n).contains ':' = false := by
    rw [List.contains_eq_mem, decide_eq_false_iff_not]
    exact fun hmem => absurd (hdigits _ hmem) (by decide)
  have hzero : first ≠ '0' := by
    rintro rfl
    exact absurd hfirst (by decide)
  rw [buildInt]
  simp only [hfilter, hsplit, hne, hcolon, Bool.false_eq_true, if_false]
  rw [heq]
  split
  next hnil => cases hnil
  next hsingle => exact absurd (List.cons.inj hsingle).1 hzero
  next hmarked => exact absurd (List.cons.inj hmarked).1 hzero
  next hmarked => exact absurd (List.cons.inj hmarked).1 hzero
  next hoctal => exact absurd (List.cons.inj hoctal).1 hzero
  next =>
    cases buildNumeral 10 (first :: rest) <;> rfl

/-- Building a whole number undoes writing it, unless it has too many digits to be read. -/
theorem buildInt_decimalInt (n : Int) :
    buildInt (Text.decimalInt n) =
      if n.natAbs < Text.unwritable then .ok n
      else .error (.integerSize (Nat.toDigits 10 n.natAbs).length) := by
  have hsigned {negative : Bool} {m : Nat} (hpos : 0 < m)
      (hsign : (Text.decimalInt n).toList = (if negative then ['-'] else []) ++ Nat.toDigits 10 m)
      (habs : n.natAbs = m) (hvalue : (if negative then -(m : Int) else m) = n) :
      buildInt (Text.decimalInt n) =
        if n.natAbs < Text.unwritable then .ok n
        else .error (.integerSize (Nat.toDigits 10 n.natAbs).length) := by
    rw [buildInt_of_digits hpos hsign, buildNumeral_toDigits, habs]
    generalize Text.unwritable = limit
    by_cases hfew : m < limit
    · rw [if_pos hfew, if_pos hfew]
      exact congrArg Except.ok hvalue
    · rw [if_neg hfew, if_neg hfew]
      rfl
  cases n with
  | negSucc n =>
      exact @hsigned true _ (Nat.succ_pos n) (Text.toList_decimalInt_negSucc n) rfl rfl
  | ofNat n =>
      rcases Nat.eq_zero_or_pos n with rfl | hpos
      · rw [show (Int.ofNat 0).natAbs = 0 from rfl, if_pos Text.unwritable_pos]
        rfl
      · exact @hsigned false _ hpos (Text.toList_decimal n) rfl rfl

theorem plainTag_decimalInt (n : Int) : plainTag (Text.decimalInt n) = .int := by
  have hpositive {m : Nat} (hpos : 0 < m)
      (hsign : (Text.decimalInt n).toList = Nat.toDigits 10 m ∨
        (Text.decimalInt n).toList = '-' :: Nat.toDigits 10 m) :
      plainTag (Text.decimalInt n) = .int := by
    have hdigits := Text.isDigit_toDigits m
    obtain ⟨first, rest, heq, hfirst, -, -⟩ := Text.exists_toDigits_eq_cons hpos
    rw [heq] at hsign hdigits
    refine plainTag_of_digits hsign hdigits ?_
    rintro rfl
    exact absurd hfirst (by decide)
  cases n with
  | negSucc n => exact hpositive (Nat.succ_pos n) (.inr (Text.toList_decimalInt_negSucc n))
  | ofNat n =>
      rcases Nat.eq_zero_or_pos n with rfl | hpos
      · decide
      · exact hpositive hpos (.inl (Text.toList_decimal n))

/-- A plain scalar that is a numeral denotes the number, unless it has too many digits. -/
theorem buildScalar_decimalInt (n : Int) :
    buildScalar (plainTag (Text.decimalInt n)) (Text.decimalInt n) =
      if n.natAbs < Text.unwritable then .ok (.int n)
      else .error (.unbuildable (.integerSize (Nat.toDigits 10 n.natAbs).length)) := by
  rw [plainTag_decimalInt, buildScalar, buildInt_decimalInt]
  generalize Text.unwritable = limit
  split <;> rfl

end Yaml

end Groundplan
