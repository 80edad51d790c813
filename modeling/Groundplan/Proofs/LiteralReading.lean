import Groundplan.Proofs.DocstringReading
import Groundplan.Proofs.FieldLines

/-!
# Reading literals

A literal of generated source stands between double quotes, one or three at each end. It is read in
two steps: up to the first closing quotes that are not escaped, and then by the meaning of the
escapes before them. With one quote at each end a literal has to end on its line. The null character
is no part of any source, so a literal that holds it as it is cannot be read.

The literal that is written for a text is read as that text, whatever the text is, so no two texts
share a literal. All that this needs is that between the quotes every quote and every backslash
stands behind a backslash of its own.

Characters are read one by one. Which others of them a file can hold is another matter: a surrogate
has a literal although it cannot be encoded.
-/

namespace Groundplan

namespace Source

/-! ### Escapes -/

/-- The character that a backslash with another character behind it stands for. -/
def escapedChar? (c : Char) : Option Char :=
  if c = '\\' then some '\\'
  else if c = '"' then some '"'
  else if c = 'b' then some (Char.ofNat 0x08)
  else if c = 'f' then some (Char.ofNat 0x0c)
  else if c = 'n' then some '\n'
  else if c = 'r' then some '\r'
  else if c = 't' then some '\t'
  else none

/-- What the characters between quotes stand for. A backslash that begins no escape is refused. -/
def unescape? : List Char → Option (List Char)
  | [] => some []
  | c :: cs =>
    if c = '\\' then
      match cs with
      | 'u' :: h₁ :: h₂ :: h₃ :: h₄ :: cs =>
        (Text.hexNumber? [h₁, h₂, h₃, h₄]).bind fun n =>
          (unescape? cs).map (Text.carryPoint n ++ ·)
      | d :: cs => (escapedChar? d).bind fun e => (unescape? cs).map (e :: ·)
      | [] => none
    else (unescape? cs).map (c :: ·)

theorem unescape?_cons {c : Char} (hc : c ≠ '\\') (cs : List Char) :
    unescape? (c :: cs) = (unescape? cs).map (c :: ·) := by
  rw [unescape?.eq_def]
  exact if_neg hc

theorem unescape?_escape {c e : Char} (h : escapedChar? c = some e) (cs : List Char) :
    unescape? ('\\' :: c :: cs) = (unescape? cs).map (e :: ·) := by
  have hcode : ∀ h₁ h₂ h₃ h₄ ds, c = 'u' → cs = h₁ :: h₂ :: h₃ :: h₄ :: ds → False := by
    rintro _ _ _ _ _ rfl
    cases h
  rw [unescape?.eq_3 _ _ _ hcode, if_pos rfl, h, Option.bind_some]

theorem unescape?_code {digits : List Char} (hlength : digits.length = 4) {n : Nat}
    (h : Text.hexNumber? digits = some n) (cs : List Char) :
    unescape? ('\\' :: 'u' :: (digits ++ cs)) =
      (unescape? cs).map (Text.carryPoint n ++ ·) := by
  match digits, hlength with
  | [h₁, h₂, h₃, h₄], _ =>
      change unescape? ('\\' :: 'u' :: h₁ :: h₂ :: h₃ :: h₄ :: cs) = _
      rw [unescape?, if_pos rfl, h, Option.bind_some]

/-! ### Ends -/

/-- The characters before the closing quotes, and those behind them. A backslash takes the character
behind it along, so escaped quotes do not close. -/
def upToQuotes? (closing : List Char) : List Char → Option (List Char × List Char)
  | [] => none
  | c :: cs =>
    match TypeExpr.dropOpening? closing (c :: cs) with
    | some rest => some ([], rest)
    | none =>
      if c = '\\' then
        match cs with
        | d :: cs => (upToQuotes? closing cs).map (Prod.map (c :: d :: ·) id)
        | [] => none
      else (upToQuotes? closing cs).map (Prod.map (c :: ·) id)

theorem upToQuotes?_of_closing {closing cs rest : List Char} (hne : cs ≠ [])
    (h : TypeExpr.dropOpening? closing cs = some rest) :
    upToQuotes? closing cs = some ([], rest) := by
  obtain ⟨c, cs, rfl⟩ := List.exists_cons_of_ne_nil hne
  rw [upToQuotes?.eq_def]
  simp only [h]

theorem upToQuotes?_cons {closing : List Char} {c : Char} {cs : List Char} (hc : c ≠ '\\')
    (h : TypeExpr.dropOpening? closing (c :: cs) = none) :
    upToQuotes? closing (c :: cs) = (upToQuotes? closing cs).map (Prod.map (c :: ·) id) := by
  rw [upToQuotes?.eq_def]
  simp only [h, if_neg hc]

theorem upToQuotes?_escape {closing : List Char} {c : Char} {cs : List Char}
    (h : TypeExpr.dropOpening? closing ('\\' :: c :: cs) = none) :
    upToQuotes? closing ('\\' :: c :: cs) =
      (upToQuotes? closing cs).map (Prod.map ('\\' :: c :: ·) id) := by
  rw [upToQuotes?, h]
  exact if_pos rfl

/-- The character that no source can hold. -/
def null : Char := Char.ofNat 0

/-- Reads the literal that characters start with: what it stands for, and what is behind it. -/
def readLiteral? (cs : List Char) : Option (List Char × List Char) :=
  match TypeExpr.dropOpening? ['"', '"', '"'] cs with
  | some cs =>
    (upToQuotes? ['"', '"', '"'] cs).bind fun parts =>
      if null ∈ parts.1 then none else (unescape? parts.1).map (·, parts.2)
  | none =>
    (TypeExpr.dropOpening? ['"'] cs).bind fun cs =>
      (upToQuotes? ['"'] cs).bind fun parts =>
        if null ∈ parts.1 ∨ parts.1.any isBreak then none else (unescape? parts.1).map (·, parts.2)

/-! ### Escaped content -/

/-- Characters in which every quote and every backslash stands behind a backslash of its own. -/
inductive Escaped : List Char → Prop where
  | nil : Escaped []
  | plain {c : Char} {cs : List Char} (hc : isMark c = false) (h : Escaped cs) : Escaped (c :: cs)
  | escape (c : Char) {cs : List Char} (h : Escaped cs) : Escaped ('\\' :: c :: cs)

theorem ne_of_isMark_eq_false {c : Char} (h : isMark c = false) : c ≠ '"' ∧ c ≠ '\\' := by
  simpa [isMark] using h

theorem Escaped.append {cs ds : List Char} (h : Escaped cs) (h' : Escaped ds) :
    Escaped (cs ++ ds) := by
  induction h with
  | nil => exact h'
  | plain hc _ ih => exact .plain hc ih
  | escape c _ ih => exact .escape c ih

theorem Escaped.flatMap {write : Char → List Char} (h : ∀ c, Escaped (write c)) (cs : List Char) :
    Escaped (cs.flatMap write) := by
  induction cs with
  | nil => exact .nil
  | cons c cs ih => exact (h c).append ih

theorem escaped_of_free {cs : List Char} (h : cs.any isMark = false) : Escaped cs := by
  induction cs with
  | nil => exact .nil
  | cons c cs ih =>
      rw [List.any_cons, Bool.or_eq_false_iff] at h
      exact .plain h.1 (ih h.2)

/-- Escaped content does not start with a quote. -/
theorem Escaped.dropOpening?_eq_none {cs : List Char} (h : Escaped cs) (hne : cs ≠ [])
    (quotes rest : List Char) : TypeExpr.dropOpening? ('"' :: quotes) (cs ++ rest) = none := by
  cases h with
  | nil => exact absurd rfl hne
  | plain hc h =>
      rw [List.cons_append, TypeExpr.dropOpening?, if_neg (ne_of_isMark_eq_false hc).1.symm]
  | escape c h => rfl

/-- Escaped content is read up to the quotes that close it, however many they are. -/
theorem Escaped.upToQuotes?_append {cs : List Char} (h : Escaped cs) (quotes rest : List Char) :
    upToQuotes? ('"' :: quotes) (cs ++ ('"' :: quotes ++ rest)) = some (cs, rest) := by
  induction h with
  | nil => exact upToQuotes?_of_closing (by simp) (dropOpening?_append ('"' :: quotes) rest)
  | plain hc h ih =>
      have hopening := (h.plain hc).dropOpening?_eq_none (by simp) quotes ('"' :: quotes ++ rest)
      rw [List.cons_append] at hopening ⊢
      rw [upToQuotes?_cons (ne_of_isMark_eq_false hc).2 hopening, ih]
      rfl
  | escape c h ih =>
      have hopening := (h.escape c).dropOpening?_eq_none (by simp) quotes ('"' :: quotes ++ rest)
      rw [List.cons_append, List.cons_append] at hopening ⊢
      rw [upToQuotes?_escape hopening, ih]
      rfl

/-! ### Quotes that are not escaped -/

/-- Whether the character behind some others is escaped: they end with a backslash that is not
escaped itself. -/
def escapesNext (cs : List Char) : Bool :=
  cs.foldl (fun escaped c => !escaped && c = '\\') false

/-- Whether there is a quote in a place that is not escaped. -/
def IsBareQuote (cs : List Char) (place : Nat) : Prop :=
  cs[place]? = some '"' ∧ escapesNext (cs.take place) = false

theorem escapesNext_cons {c : Char} (hc : c ≠ '\\') (cs : List Char) :
    escapesNext (c :: cs) = escapesNext cs := by
  simp [escapesNext, hc]

theorem escapesNext_escape (c : Char) (cs : List Char) :
    escapesNext ('\\' :: c :: cs) = escapesNext cs := by
  simp [escapesNext]

theorem Escaped.escapesNext_eq_false {cs : List Char} (h : Escaped cs) :
    escapesNext cs = false := by
  induction h with
  | nil => rfl
  | plain hc _ ih => rw [escapesNext_cons (ne_of_isMark_eq_false hc).2, ih]
  | escape c _ ih => rw [escapesNext_escape, ih]

/-- Every quote in escaped content is escaped. -/
theorem Escaped.not_isBareQuote {cs : List Char} (h : Escaped cs) (place : Nat) :
    ¬ IsBareQuote cs place := by
  rintro ⟨hquote, hbare⟩
  induction h generalizing place with
  | nil => cases hquote
  | plain hc _ ih =>
      obtain ⟨hne, hescape⟩ := ne_of_isMark_eq_false hc
      cases place with
      | zero => exact hne (Option.some.inj hquote)
      | succ place =>
          rw [List.take_succ_cons, escapesNext_cons hescape] at hbare
          exact ih place hquote hbare
  | escape c _ ih =>
      match place with
      | 0 => cases hquote
      | 1 => cases hbare
      | place + 2 =>
          rw [List.take_succ_cons, List.take_succ_cons, escapesNext_escape] at hbare
          exact ih place hquote hbare

/-- Of escaped content between quotes, only these are bare. -/
theorem Escaped.isBareQuote_iff {cs : List Char} (h : Escaped cs) (place : Nat) :
    IsBareQuote ('"' :: (cs ++ ['"'])) place ↔ place = 0 ∨ place = cs.length + 1 := by
  constructor
  · rintro ⟨hquote, hbare⟩
    cases place with
    | zero => exact .inl rfl
    | succ place =>
        rw [List.getElem?_cons_succ] at hquote
        rw [List.take_succ_cons, escapesNext_cons (by decide)] at hbare
        have hlt : place < cs.length + 1 := by
          obtain ⟨hlt, -⟩ := List.getElem?_eq_some_iff.1 hquote
          simpa using hlt
        by_cases hlast : place = cs.length
        · exact .inr (by rw [hlast])
        · have hinside : place < cs.length := by omega
          rw [List.getElem?_append_left hinside] at hquote
          rw [List.take_append_of_le_length hinside.le] at hbare
          exact absurd ⟨hquote, hbare⟩ (h.not_isBareQuote place)
  · rintro (rfl | rfl)
    · exact ⟨rfl, rfl⟩
    · refine ⟨by simp, ?_⟩
      rw [List.take_succ_cons, escapesNext_cons (by decide), List.take_left]
      exact h.escapesNext_eq_false

end Source

/-! ### Literals -/

namespace Text

open Source

theorem escaped_literalChar (c : Char) : Escaped (literalChar c) := by
  have hhex : ∀ n < 0x20, (hexDigits 4 n).any isMark = false := by decide
  unfold literalChar
  split_ifs with hquote hescape _ _ _ _ _ hlow
  iterate 7 exact .escape _ .nil
  · exact .escape 'u' (escaped_of_free (hhex c.toNat hlow))
  · exact .plain (by simp [isMark, hquote, hescape]) .nil

/-- What is written for a character is read as that character. -/
theorem unescape?_literalChar (c : Char) (cs : List Char) :
    unescape? (literalChar c ++ cs) = (unescape? cs).map (c :: ·) := by
  unfold literalChar
  split_ifs with hquote hescape hfeed hreturn htab hback hform hlow
  · rw [hquote]
    exact unescape?_escape rfl cs
  · rw [hescape]
    exact unescape?_escape rfl cs
  · rw [hfeed]
    exact unescape?_escape rfl cs
  · rw [hreturn]
    exact unescape?_escape rfl cs
  · rw [htab]
    exact unescape?_escape rfl cs
  · have hc : escapedChar? 'b' = some c := by
      rw [← Char.ofNat_toNat c, hback]
      rfl
    exact unescape?_escape hc cs
  · have hc : escapedChar? 'f' = some c := by
      rw [← Char.ofNat_toNat c, hform]
      rfl
    exact unescape?_escape hc cs
  · have hcode : ∀ n < 0x20, (hexDigits 4 n).length = 4 ∧ hexNumber? (hexDigits 4 n) = some n ∧
        carryPoint n = [Char.ofNat n] := by
      decide
    obtain ⟨hlength, hnumber, hcarried⟩ := hcode c.toNat hlow
    rw [Char.ofNat_toNat] at hcarried
    rw [List.cons_append, List.cons_append, unescape?_code hlength hnumber, hcarried]
    rfl
  · exact unescape?_cons hescape cs

theorem unescape?_flatMap_literalChar (cs : List Char) :
    unescape? (cs.flatMap literalChar) = some cs := by
  induction cs with
  | nil => rfl
  | cons c cs ih => rw [List.flatMap_cons, unescape?_literalChar, ih, Option.map_some]

/-- A literal has no character below the space. -/
theorem le_of_mem_literal {text : String} {c : Char} (h : c ∈ (literal text).toList) :
    0x20 ≤ c.toNat := by
  rcases of_mem_literal h with hink | ⟨-, hlow⟩
  · simp only [isInk, Bool.and_eq_true, decide_eq_true_eq] at hink
    exact hink.1
  · exact hlow

theorem toList_literal (text : String) :
    (literal text).toList = '"' :: (text.toList.flatMap literalChar ++ ['"']) :=
  String.toList_ofList

/-- A literal is read as the text it was written for, and what is behind it stays. Another quote
right behind is excluded: with the two of the empty literal it would open a longer one. -/
theorem readLiteral?_literal (text : String) {rest : List Char} (hrest : rest.head? ≠ some '"') :
    readLiteral? ((literal text).toList ++ rest) = some (text.toList, rest) := by
  have hmem {c : Char} (hc : c ∈ text.toList.flatMap literalChar) : c ∈ (literal text).toList := by
    simp [toList_literal, hc]
  have hheld : ¬ (null ∈ text.toList.flatMap literalChar ∨
      (text.toList.flatMap literalChar).any isBreak = true) := by
    rintro (hnull | hbreak)
    · exact absurd (le_of_mem_literal (hmem hnull)) (by decide)
    · obtain ⟨c, hc, hbreak⟩ := List.any_eq_true.1 hbreak
      rw [free_iff.1 (unbroken_literal text) c (hmem hc)] at hbreak
      cases hbreak
  have hmeaning := unescape?_flatMap_literalChar text.toList
  have hescaped : Escaped (text.toList.flatMap literalChar) := .flatMap escaped_literalChar _
  have hend := hescaped.upToQuotes?_append [] rest
  rw [toList_literal, List.cons_append, List.append_assoc]
  generalize text.toList.flatMap literalChar = content at *
  have hopening : TypeExpr.dropOpening? ['"', '"', '"'] ('"' :: (content ++ (['"'] ++ rest))) =
      none := by
    change TypeExpr.dropOpening? ['"', '"'] (content ++ (['"'] ++ rest)) = none
    by_cases hempty : content = []
    · rw [hempty]
      cases rest with
      | nil => rfl
      | cons c rest =>
          have hne : '"' ≠ c := fun heq => hrest (congrArg some heq.symm)
          exact if_neg hne
    · exact hescaped.dropOpening?_eq_none hempty ['"'] _
  rw [readLiteral?, hopening]
  change (upToQuotes? ['"'] (content ++ (['"'] ++ rest))).bind _ = _
  rw [hend, Option.bind_some, if_neg hheld, hmeaning, Option.map_some]

/-- A literal denotes its text: it has no character below the space, its only quotes that are not
escaped are the first and the last of its characters, reading it gives back the text, and so no
other text has it. -/
theorem literal_denotes (text : String) :
    (∀ c ∈ (literal text).toList, 0x20 ≤ c.toNat) ∧
      (∀ place, IsBareQuote (literal text).toList place ↔
        place = 0 ∨ place + 1 = (literal text).toList.length) ∧
      readLiteral? (literal text).toList = some (text.toList, []) ∧
      ∀ other, literal other = literal text → other = text := by
  have hread (text : String) : readLiteral? (literal text).toList = some (text.toList, []) := by
    simpa using @readLiteral?_literal text [] (by simp)
  refine ⟨fun c => le_of_mem_literal, ?_, hread text, ?_⟩
  · intro place
    have hescaped : Escaped (text.toList.flatMap literalChar) := .flatMap escaped_literalChar _
    rw [toList_literal, hescaped.isBareQuote_iff]
    simp
  · intro other hsame
    have hboth := hread other
    rw [hsame, hread text] at hboth
    exact String.toList_inj.1 (congrArg Prod.fst (Option.some.inj hboth)).symm

end Text

end Groundplan
