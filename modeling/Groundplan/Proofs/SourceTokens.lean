import Groundplan.Proofs.FieldArguments
import Groundplan.Proofs.LiteralReading
import Groundplan.Proofs.NameCapture

/-!
# The tokens of a line

A line of generated source is read as words, literals and marks. Spaces part tokens, and a number
sign hides what is behind it. A line that would need more than this to be read is refused: one with
a single quote, a backslash outside of literals, a second statement or a line break.

The reading of a part of a line is settled by the part alone, as long as no letter, digit or quote
follows it. So the tokens of a declaration are those of its name, of its hint and of its initial
value, each read by itself.
-/

namespace Groundplan

namespace Source

/-- A token of a line. -/
inductive Token where
  | word (w : String)
  | text (t : String)
  | mark (c : Char)
  deriving DecidableEq, Repr

/-- The characters of words. Beyond ASCII all of them are taken to be letters. -/
def isWordChar (c : Char) : Bool :=
  isIdentifierChar c || 0x80 ≤ c.toNat

/-- The characters that are not read one by one as parts of words, spaces or marks. -/
def isDelimiter (c : Char) : Bool :=
  c = '"' || c = '#' || c = '\'' || c = '\\' || c = ';' || isBreak c

/-! ### Reading -/

theorem length_upToQuotes?_le {closing cs content rest : List Char}
    (h : upToQuotes? closing cs = some (content, rest)) : rest.length ≤ cs.length := by
  fun_induction upToQuotes? closing cs generalizing content rest with
  | case1 => cases h
  | case2 c cs behind hclosing =>
      have hlength := TypeExpr.length_of_dropOpening? hclosing
      cases h
      omega
  | case3 d cs _ ih =>
      obtain ⟨⟨inside, behind⟩, hinside, heq⟩ := Option.map_eq_some_iff.1 h
      cases heq
      have hle := ih hinside
      simp only [List.length_cons, id_eq]
      omega
  | case4 => cases h
  | case5 c cs _ _ ih =>
      obtain ⟨⟨inside, behind⟩, hinside, heq⟩ := Option.map_eq_some_iff.1 h
      cases heq
      have hle := ih hinside
      simp only [List.length_cons, id_eq]
      omega

/-- What is behind a literal is shorter than what starts with it. -/
theorem length_readLiteral?_lt {cs : List Char} {parts : List Char × List Char}
    (h : readLiteral? cs = some parts) : parts.2.length < cs.length := by
  unfold readLiteral? at h
  split at h
  next inside hopening =>
    obtain ⟨⟨content, rest⟩, hend, h⟩ := Option.bind_eq_some_iff.1 h
    have hlength := TypeExpr.length_of_dropOpening? hopening
    have hle := length_upToQuotes?_le hend
    split_ifs at h
    obtain ⟨meaning, -, rfl⟩ := Option.map_eq_some_iff.1 h
    simp only [List.length_cons, List.length_nil] at hlength ⊢
    omega
  next =>
    obtain ⟨inside, hopening, h⟩ := Option.bind_eq_some_iff.1 h
    obtain ⟨⟨content, rest⟩, hend, h⟩ := Option.bind_eq_some_iff.1 h
    have hlength := TypeExpr.length_of_dropOpening? hopening
    have hle := length_upToQuotes?_le hend
    split_ifs at h
    obtain ⟨meaning, -, rfl⟩ := Option.map_eq_some_iff.1 h
    simp only [List.length_cons, List.length_nil] at hlength ⊢
    omega

/-- The tokens of a line. -/
def tokens? (cs : List Char) : Option (List Token) :=
  match cs with
  | [] => some []
  | c :: cs =>
    if c = ' ' then tokens? cs
    else if c = '#' then some []
    else if c = '"' then
      match _hread : readLiteral? (c :: cs) with
      | none => none
      | some parts => (tokens? parts.2).map (.text (String.ofList parts.1) :: ·)
    else if isDelimiter c then none
    -- A word reaches as far as it can.
    else if isWordChar c then
      (tokens? (cs.dropWhile isWordChar)).map
        (.word (String.ofList (c :: cs.takeWhile isWordChar)) :: ·)
    else (tokens? cs).map (.mark c :: ·)
termination_by cs.length
decreasing_by
  · simp
  · exact length_readLiteral?_lt ‹_›
  · have hle := (@List.dropWhile_suffix _ cs isWordChar).length_le
    simp only [List.length_cons]
    omega
  · simp

theorem tokens?_nil : tokens? [] = some [] := by
  rw [tokens?]

theorem tokens?_space (cs : List Char) : tokens? (' ' :: cs) = tokens? cs := by
  rw [tokens?, if_pos rfl]

theorem tokens?_text {cs : List Char} {parts : List Char × List Char}
    (h : readLiteral? ('"' :: cs) = some parts) :
    tokens? ('"' :: cs) = (tokens? parts.2).map (.text (String.ofList parts.1) :: ·) := by
  rw [tokens?, if_neg (by decide), if_neg (by decide), if_pos rfl]
  split
  next hnone =>
    rw [h] at hnone
    cases hnone
  next parts' hsome =>
    rw [h] at hsome
    cases hsome
    rfl

/-- Whether a character is a mark by itself. -/
def isPlainMark (c : Char) : Bool :=
  !(c = ' ' || isDelimiter c || isWordChar c)

theorem tokens?_mark {c : Char} (hc : isPlainMark c = true) (cs : List Char) :
    tokens? (c :: cs) = (tokens? cs).map (.mark c :: ·) := by
  simp only [isPlainMark, Bool.not_eq_true', Bool.or_eq_false_iff, decide_eq_false_iff_not] at hc
  obtain ⟨⟨hspace, hdelimiter⟩, hword⟩ := hc
  have hne : c ≠ '#' ∧ c ≠ '"' := by
    constructor <;> rintro rfl <;> exact absurd hdelimiter (by decide)
  rw [tokens?, if_neg hspace, if_neg hne.1, if_neg hne.2, if_neg (by simp [hdelimiter]),
    if_neg (by simp [hword])]

theorem not_isDelimiter_of_isWordChar {c : Char} (h : isWordChar c = true) :
    c ≠ ' ' ∧ isDelimiter c = false := by
  have hascii : ∀ n < 128, isWordChar (Char.ofNat n) = true →
      Char.ofNat n ≠ ' ' ∧ isDelimiter (Char.ofNat n) = false := by
    decide
  by_cases hlow : c.toNat < 128
  · exact Name.of_ascii
      (fun c => isWordChar c = true → c ≠ ' ' ∧ isDelimiter c = false) hascii hlow h
  · refine ⟨?_, ?_⟩
    · rintro rfl
      exact hlow (by decide)
    · by_contra hdelimiter
      simp only [isDelimiter, isBreak, Bool.not_eq_false, Bool.or_eq_true,
        decide_eq_true_eq] at hdelimiter
      rcases hdelimiter with ((((rfl | rfl) | rfl) | rfl) | rfl) | rfl | rfl <;>
        exact hlow (by decide)

theorem tokens?_word {c : Char} (hc : isWordChar c = true) (cs : List Char) :
    tokens? (c :: cs) =
      (tokens? (cs.dropWhile isWordChar)).map
        (.word (String.ofList (c :: cs.takeWhile isWordChar)) :: ·) := by
  obtain ⟨hspace, hdelimiter⟩ := not_isDelimiter_of_isWordChar hc
  have hne : c ≠ '#' ∧ c ≠ '"' := by
    constructor <;> rintro rfl <;> exact absurd hdelimiter (by decide)
  rw [tokens?, if_neg hspace, if_neg hne.1, if_neg hne.2, if_neg (by simp [hdelimiter]),
    if_pos hc]

/-! ### Parts of a line -/

/-- Whether characters continue neither a word nor a literal before them. -/
def Apart (cs : List Char) : Prop :=
  ∀ c ∈ cs.head?, isWordChar c = false ∧ c ≠ '"'

theorem apart_nil : Apart [] := by
  simp [Apart]

theorem apart_cons {c : Char} (hc : isWordChar c = false ∧ c ≠ '"') (cs : List Char) :
    Apart (c :: cs) := by
  simpa [Apart] using hc

theorem Apart.append {cs rest : List Char} (h : Apart cs) (hrest : Apart rest) :
    Apart (cs ++ rest) := by
  cases cs with
  | nil => exact hrest
  | cons c cs => exact apart_cons (h c rfl) (cs ++ rest)

/-- What characters are read as, whatever stands apart behind them. -/
def Scans (cs : List Char) (ts : List Token) : Prop :=
  ∀ rest, Apart rest → tokens? (cs ++ rest) = (tokens? rest).map (ts ++ ·)

theorem scans_nil : Scans [] [] := by
  intro rest _
  simp

theorem Scans.append {cs ds : List Char} {ts us : List Token} (h : Scans cs ts) (h' : Scans ds us)
    (hds : Apart ds) : Scans (cs ++ ds) (ts ++ us) := by
  intro rest hrest
  rw [List.append_assoc, h _ (hds.append hrest), h' rest hrest, Option.map_map]
  congr 1
  funext tail
  exact (List.append_assoc ts us tail).symm

theorem Scans.space {cs : List Char} {ts : List Token} (h : Scans cs ts) :
    Scans (' ' :: cs) ts := by
  intro rest hrest
  rw [List.cons_append, tokens?_space, h rest hrest]

theorem Scans.mark {c : Char} (hc : isPlainMark c = true) {cs : List Char} {ts : List Token}
    (h : Scans cs ts) : Scans (c :: cs) (.mark c :: ts) := by
  intro rest hrest
  rw [List.cons_append, tokens?_mark hc, h rest hrest, Option.map_map]
  rfl

theorem scans_word {c : Char} {cs : List Char} (h : ∀ d ∈ c :: cs, isWordChar d = true) :
    Scans (c :: cs) [.word (String.ofList (c :: cs))] := by
  intro rest hrest
  have hcs : ∀ d ∈ cs, isWordChar d = true := fun d hd => h d (List.mem_cons_of_mem c hd)
  have hstop : rest.takeWhile isWordChar = [] ∧ rest.dropWhile isWordChar = rest := by
    cases rest with
    | nil => exact ⟨rfl, rfl⟩
    | cons d rest =>
        have hd : isWordChar d = false := (hrest d rfl).1
        simp [hd]
  rw [List.cons_append, tokens?_word (h c List.mem_cons_self), List.dropWhile_append_of_pos hcs,
    List.takeWhile_append_of_pos hcs, hstop.1, hstop.2, List.append_nil]
  rfl

theorem scans_literal (t : String) : Scans (Text.literal t).toList [.text t] := by
  intro rest hrest
  -- A quote right behind would make three with those of the empty literal.
  have hquote : rest.head? ≠ some '"' := fun hhead => (hrest '"' hhead).2 rfl
  have hread := Text.readLiteral?_literal t hquote
  rw [Text.toList_literal, List.cons_append] at hread ⊢
  rw [tokens?_text hread, String.ofList_toList]
  rfl

/-- A word is as long as it can be, so what is behind it stands apart. -/
theorem apart_dropWhile {cs : List Char} (h : '"' ∉ cs) : Apart (cs.dropWhile isWordChar) := by
  intro c hc
  constructor
  · have hstop := List.head?_dropWhile_not isWordChar cs
    rw [hc] at hstop
    simpa using hstop
  · rintro rfl
    exact h ((List.dropWhile_suffix _).subset (List.mem_of_mem_head? hc))

/-- Whether tokens are words and marks, and the marks are some of the given characters. -/
def MadeOf (cs : List Char) (ts : List Token) : Prop :=
  ∀ t ∈ ts, (∃ w, t = .word w) ∨ ∃ c ∈ cs, t = .mark c

theorem MadeOf.mono {cs ds : List Char} {ts : List Token} (h : MadeOf cs ts) (hsubset : cs ⊆ ds) :
    MadeOf ds ts := by
  intro t ht
  rcases h t ht with hw | ⟨c, hc, rfl⟩
  · exact .inl hw
  · exact .inr ⟨c, hsubset hc, rfl⟩

theorem MadeOf.cons {cs : List Char} {t : Token} {ts : List Token}
    (ht : (∃ w, t = .word w) ∨ ∃ c ∈ cs, t = .mark c) (h : MadeOf cs ts) : MadeOf cs (t :: ts) := by
  intro u hu
  rcases List.mem_cons.1 hu with rfl | hu
  · exact ht
  · exact h u hu

/-- Characters without delimiters are read as words and marks. -/
theorem exists_scans {cs : List Char} (h : ∀ c ∈ cs, isDelimiter c = false) :
    ∃ ts, Scans cs ts ∧ MadeOf cs ts := by
  -- By the length, since a word takes several characters at once.
  induction hlength : cs.length using Nat.strong_induction_on generalizing cs with
  | h n ih =>
      subst hlength
      cases cs with
      | nil => exact ⟨[], scans_nil, by simp [MadeOf]⟩
      | cons c cs =>
          have hc : isDelimiter c = false := h c List.mem_cons_self
          have hcs : ∀ d ∈ cs, isDelimiter d = false := fun d hd => h d (List.mem_cons_of_mem c hd)
          by_cases hword : isWordChar c = true
          · have hsuffix : cs.dropWhile isWordChar <:+ cs := List.dropWhile_suffix _
            have hshort : (cs.dropWhile isWordChar).length < (c :: cs).length := by
              have hle := hsuffix.length_le
              simp only [List.length_cons]
              omega
            have hquote : '"' ∉ cs := fun hmem => absurd (hcs '"' hmem) (by decide)
            have hrun : ∀ d ∈ c :: cs.takeWhile isWordChar, isWordChar d = true := by
              intro d hd
              rcases List.mem_cons.1 hd with rfl | hd
              · exact hword
              · exact List.mem_takeWhile_imp hd
            obtain ⟨ts, hscans, hts⟩ := ih _ hshort (fun d hd => hcs d (hsuffix.subset hd)) rfl
            have hall := (scans_word hrun).append hscans (apart_dropWhile hquote)
            rw [List.cons_append, List.takeWhile_append_dropWhile] at hall
            have hbehind : cs.dropWhile isWordChar ⊆ c :: cs := fun d hd =>
              List.mem_cons_of_mem c (hsuffix.subset hd)
            exact ⟨_, hall, .cons (.inl ⟨_, rfl⟩) (hts.mono hbehind)⟩
          · obtain ⟨ts, hscans, hts⟩ := ih cs.length (by simp) hcs rfl
            have hts : MadeOf (c :: cs) ts := hts.mono (List.subset_cons_self c cs)
            by_cases hspace : c = ' '
            · subst hspace
              exact ⟨ts, hscans.space, hts⟩
            · have hmark : isPlainMark c = true := by
                simp [isPlainMark, hspace, hc, hword]
              exact ⟨_, hscans.mark hmark, .cons (.inr ⟨c, List.mem_cons_self, rfl⟩) hts⟩

/-- The tokens of a text that is read by itself. -/
def lexed (text : String) : List Token :=
  (tokens? text.toList).getD []

theorem Scans.tokens?_eq {cs : List Char} {ts : List Token} (h : Scans cs ts) :
    tokens? cs = some ts := by
  have hall := h [] apart_nil
  rwa [List.append_nil, tokens?_nil, Option.map_some, List.append_nil] at hall

theorem Scans.lexed_eq {text : String} {ts : List Token} (h : Scans text.toList ts) :
    lexed text = ts := by
  rw [lexed, h.tokens?_eq, Option.getD_some]

theorem scans_lexed {text : String} (h : Text.Free isDelimiter text) :
    Scans text.toList (lexed text) := by
  obtain ⟨ts, hscans, -⟩ := exists_scans (Text.free_iff.1 h)
  rwa [hscans.lexed_eq]

theorem madeOf_lexed {text : String} (h : Text.Free isDelimiter text) :
    MadeOf text.toList (lexed text) := by
  obtain ⟨ts, hscans, hts⟩ := exists_scans (Text.free_iff.1 h)
  rwa [hscans.lexed_eq]

/-! ### Words -/

/-- Whether a text is a single word. -/
def IsWord (text : String) : Prop :=
  text.toList ≠ [] ∧ text.toList.all isWordChar = true

instance : DecidablePred IsWord := fun _ => inferInstanceAs (Decidable (_ ∧ _))

theorem IsWord.scans {text : String} (h : IsWord text) : Scans text.toList [.word text] := by
  obtain ⟨hne, hall⟩ := h
  obtain ⟨c, cs, hcs⟩ := List.exists_cons_of_ne_nil hne
  rw [List.all_eq_true, hcs] at hall
  have hscans := scans_word hall
  rwa [← hcs, String.ofList_toList] at hscans

theorem isWordChar_of_isSnakeChar {c : Char} (h : Name.isSnakeChar c = true) :
    isWordChar c = true := by
  simp only [Name.isSnakeChar, Bool.or_eq_true, decide_eq_true_eq] at h
  rcases h with h | rfl
  · simp [isWordChar, isIdentifierChar, Name.isAlphanum_of_isSmall h]
  · decide

theorem isWordChar_toUpper {c : Char} (h : Name.isSnakeChar c = true) :
    isWordChar c.toUpper = true := by
  have hbound : c.toNat < 128 := by
    simp only [Name.isSnakeChar, Bool.or_eq_true, decide_eq_true_eq] at h
    rcases h with h | rfl
    · exact Name.toNat_lt_of_isAlphanum (Name.isAlphanum_of_isSmall h)
    · decide
  exact Name.of_ascii (fun c => Name.isSnakeChar c = true → isWordChar c.toUpper = true)
    (by decide) hbound h

theorem ledSnake_spec {lead : String} (hlead : Name.IsSmallWord lead) (name : String) :
    (Name.ledSnake lead name).toList ≠ [] ∧
      ∀ c ∈ (Name.ledSnake lead name).toList, Name.isSnakeChar c = true := by
  refine ⟨?_, Name.of_mem_intercalate_smallWords fun _ => Name.of_mem_ledWords hlead⟩
  obtain ⟨c, hlast, -⟩ := Name.getLast?_intercalate (Name.ledWords_ne_nil lead name)
    fun _ => Name.of_mem_ledWords hlead
  intro hnil
  rw [Name.ledSnake] at hnil
  rw [hnil] at hlast
  cases hlast

theorem isWord_escaped (reserved : List String) (name : String) :
    IsWord (Name.escaped reserved (Name.ledSnake "field" name)) := by
  obtain ⟨hne, hsnake⟩ := ledSnake_spec Name.isSmallWord_field name
  have hall : (Name.ledSnake "field" name).toList.all isWordChar = true :=
    List.all_eq_true.2 fun c hc => isWordChar_of_isSnakeChar (hsnake c hc)
  unfold Name.escaped
  split
  · refine ⟨by simp, ?_⟩
    rw [String.toList_append, List.all_append, hall]
    decide
  · exact ⟨hne, hall⟩

theorem isWord_field (name : String) : IsWord (Name.field name) := by
  rw [Name.field_eq_escaped]
  exact isWord_escaped _ name

theorem isWord_member (name : String) : IsWord (Name.member name) := by
  rw [Name.member_eq_escaped]
  exact isWord_escaped _ name

theorem isWord_constant (name : String) : IsWord (Name.constant name) := by
  obtain ⟨hne, hsnake⟩ := ledSnake_spec Name.isSmallWord_value name
  rw [Name.constant_eq_upper, IsWord, Name.upper, String.toList_ofList, List.all_map]
  refine ⟨by simpa using hne, ?_⟩
  exact List.all_eq_true.2 fun c hc => isWordChar_toUpper (hsnake c hc)

/-! ### Numbers -/

/-- Whether tokens are words that start with a digit, with points and signs between them. -/
def IsNumeral (ts : List Token) : Prop :=
  ∀ t ∈ ts, (∃ w, t = .word w ∧ Name.startsWithDigit w = true) ∨
    t = .mark '.' ∨ t = .mark '+' ∨ t = .mark '-'

/-- Whether characters are read as a numeral. -/
def ScansNumeral (cs : List Char) : Prop :=
  ∃ ts, Scans cs ts ∧ IsNumeral ts

theorem isWordChar_of_isDigit {c : Char} (h : c.isDigit = true) : isWordChar c = true := by
  have halphanum : c.isAlphanum = true := by rw [Char.isAlphanum, h, Bool.or_true]
  simp [isWordChar, isIdentifierChar, halphanum]

theorem scansNumeral_cons {c : Char} {cs : List Char} (hc : c.isDigit = true)
    (h : ∀ d ∈ cs, isWordChar d = true) : ScansNumeral (c :: cs) := by
  have hall : ∀ d ∈ c :: cs, isWordChar d = true := by
    intro d hd
    rcases List.mem_cons.1 hd with rfl | hd
    · exact isWordChar_of_isDigit hc
    · exact h d hd
  refine ⟨_, scans_word hall, ?_⟩
  intro t ht
  exact .inl ⟨_, List.mem_singleton.1 ht, by simp [Name.startsWithDigit, hc]⟩

theorem scansNumeral_digits {cs : List Char} (hne : cs ≠ []) (h : ∀ c ∈ cs, c.isDigit = true) :
    ScansNumeral cs := by
  obtain ⟨c, cs, rfl⟩ := List.exists_cons_of_ne_nil hne
  exact scansNumeral_cons (h c List.mem_cons_self) fun d hd =>
    isWordChar_of_isDigit (h d (List.mem_cons_of_mem c hd))

theorem scansNumeral_zero : ScansNumeral ['0'] :=
  scansNumeral_digits (by simp) (by simp)

theorem ScansNumeral.mark {c : Char} {cs ds : List Char} (h : ScansNumeral cs)
    (hc : c = '.' ∨ c = '+' ∨ c = '-') (h' : ScansNumeral ds) : ScansNumeral (cs ++ c :: ds) := by
  obtain ⟨ts, hscans, hts⟩ := h
  obtain ⟨us, hscans', hus⟩ := h'
  have hmark : isPlainMark c = true ∧ isWordChar c = false ∧ c ≠ '"' := by
    rcases hc with rfl | rfl | rfl <;> decide
  refine ⟨_, hscans.append (hscans'.mark hmark.1) (apart_cons hmark.2 ds), ?_⟩
  intro t ht
  rcases List.mem_append.1 ht with ht | ht
  · exact hts t ht
  · rcases List.mem_cons.1 ht with rfl | ht
    · exact .inr (by simpa using hc)
    · exact hus t ht

theorem ScansNumeral.minus {cs : List Char} (h : ScansNumeral cs) : ScansNumeral ('-' :: cs) := by
  have hnothing : ScansNumeral [] := ⟨[], scans_nil, by simp [IsNumeral]⟩
  exact hnothing.mark (.inr (.inr rfl)) h

theorem significant_ne_nil (n : Nat) : Double.significant n ≠ [] := by
  unfold Double.significant
  simp only
  split
  next => simp
  next hne => simpa using hne

/-- Wherever the point goes and whether there is an exponent, every word starts with a digit: the
mark of an exponent is part of the word before it. -/
theorem scansNumeral_layOut {digits : List Char} (hne : digits ≠ [])
    (h : ∀ c ∈ digits, c.isDigit = true) (exponent : Int) :
    ScansNumeral (Double.layOut digits exponent) := by
  have hzeros (count : Nat) : ∀ c ∈ List.replicate count '0', c.isDigit = true := by
    intro c hc
    rw [List.eq_of_mem_replicate hc]
    decide
  have hpower : ScansNumeral (if (Nat.toDigits 10 exponent.natAbs).length < 2 then
      '0' :: Nat.toDigits 10 exponent.natAbs else Nat.toDigits 10 exponent.natAbs) := by
    split
    · exact scansNumeral_cons (by decide) fun d hd =>
        isWordChar_of_isDigit (isDigit_of_mem_toDigits hd)
    · exact scansNumeral_digits Nat.toDigits_ne_nil fun d hd => isDigit_of_mem_toDigits hd
  unfold Double.layOut
  simp only
  split
  · split
    · -- A fraction below one.
      have hfraction : ∀ c ∈ List.replicate (-exponent - 1).toNat '0' ++ digits,
          c.isDigit = true := by
        intro c hc
        rcases List.mem_append.1 hc with hc | hc
        · exact hzeros _ c hc
        · exact h c hc
      exact scansNumeral_zero.mark (.inl rfl) (scansNumeral_digits (by simp [hne]) hfraction)
    · -- A whole part and a fraction.
      set filled := digits ++ List.replicate (exponent.toNat + 1 - digits.length) '0' with hfilled
      have hdigits : ∀ c ∈ filled, c.isDigit = true := by
        intro c hc
        rcases List.mem_append.1 hc with hc | hc
        · exact h c hc
        · exact hzeros _ c hc
      have hfilledne : filled ≠ [] := by simp [hfilled, hne]
      have hwhole : ScansNumeral (filled.take (exponent.toNat + 1)) :=
        scansNumeral_digits (by simp [hfilledne]) fun c hc => hdigits c (List.mem_of_mem_take hc)
      refine hwhole.mark (.inl rfl) ?_
      split
      · exact scansNumeral_zero
      next hrest =>
        exact scansNumeral_digits (by simpa using hrest) fun c hc =>
          hdigits c (List.mem_of_mem_drop hc)
  · -- An exponent, behind a fraction or not.
    obtain ⟨first, rest, rfl⟩ := List.exists_cons_of_ne_nil hne
    have hfirst : first.isDigit = true := h first List.mem_cons_self
    have hrest : ∀ c ∈ rest, c.isDigit = true := fun c hc => h c (List.mem_cons_of_mem first hc)
    have hsign : (if exponent < 0 then '-' else '+') = '.' ∨
        (if exponent < 0 then '-' else '+') = '+' ∨ (if exponent < 0 then '-' else '+') = '-' := by
      split <;> simp
    have hexponent : ∀ c ∈ ['e'], isWordChar c = true := by
      intro c hc
      rw [List.mem_singleton.1 hc]
      decide
    have hmantissa : ScansNumeral
        ([first] ++ (if rest.isEmpty then [] else '.' :: rest) ++ ['e']) := by
      cases rest with
      | nil => exact scansNumeral_cons hfirst hexponent
      | cons d rest =>
          have hbehind : ∀ c ∈ rest ++ ['e'], isWordChar c = true := by
            intro c hc
            rcases List.mem_append.1 hc with hc | hc
            · exact isWordChar_of_isDigit (hrest c (List.mem_cons_of_mem d hc))
            · exact hexponent c hc
          have hwhole : ScansNumeral [first] := scansNumeral_cons hfirst (by simp)
          exact hwhole.mark (.inl rfl) (scansNumeral_cons (hrest d List.mem_cons_self) hbehind)
    have hall := hmantissa.mark hsign hpower
    rwa [List.append_assoc _ ['e']] at hall

theorem scansNumeral_decimalInt (n : Int) : ScansNumeral (Text.decimalInt n).toList := by
  have hnat (n : Nat) : ScansNumeral (Text.decimal n).toList := by
    rw [Text.decimal, String.toList_ofList]
    exact scansNumeral_digits Nat.toDigits_ne_nil fun d hd => isDigit_of_mem_toDigits hd
  cases n with
  | ofNat n => exact hnat n
  | negSucc n =>
      rw [Text.decimalInt, String.toList_append]
      exact (hnat (n + 1)).minus

theorem scansNumeral_finite (negative : Bool) (mantissa : Nat) (exponent : Int) :
    ScansNumeral (Double.finite negative mantissa exponent).text.toList := by
  have hsigned {text : String} (h : ScansNumeral text.toList) :
      ScansNumeral ((if negative then "-" else "") ++ text).toList := by
    rw [String.toList_append]
    cases negative with
    | false => exact h
    | true => exact h.minus
  unfold Double.text
  simp only
  split
  · refine hsigned ?_
    exact scansNumeral_zero.mark (.inl rfl) scansNumeral_zero
  · refine hsigned ?_
    rw [String.toList_ofList]
    exact scansNumeral_layOut (significant_ne_nil _) (fun c => isDigit_of_mem_significant) _

/-- A number with an end is read as a numeral. -/
theorem scansNumeral_numberText {x : Double} (h : x.isFinite = true) :
    ScansNumeral (numberText x).toList := by
  unfold numberText
  split
  · exact scansNumeral_decimalInt _
  · cases x with
    | nan => cases h
    | infinite negative => cases h
    | finite negative mantissa exponent => exact scansNumeral_finite negative mantissa exponent

/-- A number without an end is read as a word, perhaps behind a sign. -/
theorem exists_scans_of_not_isFinite {x : Double} (h : x.isFinite = false) :
    ∃ sign w, (sign = [] ∨ sign = [Token.mark '-']) ∧ (w = "nan" ∨ w = "inf") ∧
      Scans (numberText x).toList (sign ++ [.word w]) := by
  have hnan : IsWord "nan" := by decide
  have hinf : IsWord "inf" := by decide
  cases x with
  | nan => exact ⟨[], "nan", .inl rfl, .inl rfl, hnan.scans⟩
  | infinite negative =>
      cases negative with
      | false => exact ⟨[], "inf", .inl rfl, .inr rfl, hinf.scans⟩
      | true => exact ⟨_, "inf", .inr rfl, .inr rfl, hinf.scans.mark (by decide)⟩
  | finite => cases h

theorem scans_numberText (x : Double) :
    Scans (numberText x).toList (lexed (numberText x)) := by
  cases hfinite : x.isFinite with
  | true =>
      obtain ⟨ts, hscans, -⟩ := scansNumeral_numberText hfinite
      rwa [hscans.lexed_eq]
  | false =>
      obtain ⟨sign, w, -, -, hscans⟩ := exists_scans_of_not_isFinite hfinite
      rwa [hscans.lexed_eq]

end Source

end Groundplan
