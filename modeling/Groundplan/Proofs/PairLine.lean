import Groundplan.Proofs.Encodability
import Groundplan.Yaml.Denote

/-!
# Documents of one pair

The shortest settings file is one line: a key, a colon and a word. Words of letters, digits, dashes
and underscores need no quotes, so the scanner passes over each of them in one run. The colon makes
the pending word a key and opens a block; the end of the text closes it. The document is a mapping
of one pair, and loads as the entry of the scalar that the second word is built into.
-/

namespace Groundplan.Text

theorem carry_of_unreserved {cs : List Char} (h : ∀ c ∈ cs, isReserved c = false) :
    carry cs = cs := by
  induction cs with
  | nil => rfl
  | cons c cs ih =>
      have hcarry : carryChar c = [c] := by simp [carryChar, h c (by simp)]
      have hrest := ih fun d hd => h d (by simp [hd])
      rw [carry] at hrest ⊢
      rw [List.flatMap_cons, hcarry, hrest]
      rfl

end Groundplan.Text

namespace Groundplan.Yaml

/-! ### Characters of words -/

/-- The marks that a plain scalar cannot begin with, but for the dash, which can. -/
def startMarks : List Char :=
  ['?', ':', ',', '[', ']', '{', '}', '#', '&', '*', '!', '|', '>', '\x27', '"', '%', '@', '\x60']

/-- What the scanner has to know of a character to pass over it. -/
structure IsInk (c : Char) : Prop where
  inline : isBreak c = false
  notOrderMark : c.toNat ≠ 0xfeff
  notGap : isGap (some c) = false
  notMark : startMarks.contains c = false
  allowed : isAllowed c = true
  unreserved : Text.isReserved c = false

theorem isInk_of_isNameChar {c : Char} (h : isNameChar c = true) : IsInk c := by
  have hascii : c.toNat < 128 := by
    simp only [isNameChar, Bool.or_eq_true, decide_eq_true_eq] at h
    rcases h with (h | rfl) | rfl
    · exact Name.toNat_lt_of_isAlphanum h
    all_goals decide
  have hall := Name.of_ascii (fun c => isNameChar c = true → isBreak c = false ∧
    c.toNat ≠ 0xfeff ∧ isGap (some c) = false ∧ startMarks.contains c = false ∧
    isAllowed c = true ∧ Text.isReserved c = false) (by decide) hascii h
  exact ⟨hall.1, hall.2.1, hall.2.2.1, hall.2.2.2.1, hall.2.2.2.2.1, hall.2.2.2.2.2⟩

theorem IsInk.ne {c : Char} (h : IsInk c) (d : Char) (hd : startMarks.contains d = true) :
    c ≠ d := by
  rintro rfl
  rw [h.notMark] at hd
  cases hd

theorem IsInk.ne_space {c : Char} (h : IsInk c) : c ≠ ' ' := by
  rintro rfl
  exact absurd h.notGap (by decide)

/-- The words that need no quotes as values: a dash alone would be the mark of an item. -/
structure IsWord (cs : List Char) : Prop where
  chars : ∀ c ∈ cs, isNameChar c = true
  ne_nil : cs ≠ []
  ne_dash : cs ≠ ['-']

/-! ### Cursors -/

namespace Cursor

variable {cs rest : List Char} {left index line column : Nat}

theorem next_of_isInk {c : Char} (h : IsInk c) :
    next ⟨c :: rest, left, index, line, column⟩ =
      ⟨rest, left - 1, index + 1, line, column + 1⟩ := by
  simp [next, h.inline, h.notOrderMark]

/-- Passing over a word moves the cursor along its line. -/
theorem skip_word (h : ∀ c ∈ cs, isNameChar c = true) :
    skip cs.length ⟨cs ++ rest, left, index, line, column⟩ =
      ⟨rest, left - cs.length, index + cs.length, line, column + cs.length⟩ := by
  induction cs generalizing left index column with
  | nil => rfl
  | cons c cs ih =>
      have hink := isInk_of_isNameChar (h c (by simp))
      rw [List.length_cons, List.cons_append, skip, next_of_isInk hink,
        ih fun d hd => h d (by simp [hd])]
      simp only [Cursor.mk.injEq, true_and]
      omega

/-- Where something to read comes next, no space is skipped. -/
theorem span_of_head {p : Char → Bool} {c : Char} (h : p c = false) :
    span p ⟨c :: rest, left, index, line, column⟩ =
      ([], ⟨c :: rest, left, index, line, column⟩) := by
  simp [span, h, skip]

theorem lineBreak_of_head {c : Char} (h : isBreak c = false) :
    lineBreak ⟨c :: rest, left, index, line, column⟩ =
      ([], ⟨c :: rest, left, index, line, column⟩) := by
  have hreturn : c ≠ '\r' := by
    rintro rfl
    exact absurd h (by decide)
  have hwide : ¬ (c.toNat = 0x2028 ∨ c.toNat = 0x2029) := by
    simp only [isBreak, Bool.or_eq_false_iff, decide_eq_false_iff_not] at h
    omega
  unfold lineBreak
  split
  next heq => exact absurd (List.cons.inj heq).1 hreturn
  next heq =>
    obtain ⟨rfl, -⟩ := List.cons.inj heq
    rw [if_neg (by simpa using hwide), if_neg (by simp [h])]
  next heq => cases heq

end Cursor

/-! ### Plain scalars -/

theorem plainRun_word {cs rest : List Char} (h : ∀ c ∈ cs, isNameChar c = true)
    (hrest : plainRun false rest = []) : plainRun false (cs ++ rest) = cs := by
  induction cs with
  | nil => exact hrest
  | cons c cs ih =>
      have hc := isInk_of_isNameChar (h c (by simp))
      have hcolon : c ≠ ':' := hc.ne ':' rfl
      have hends : plainEnds false c (cs ++ rest).head? = false := by
        simp [plainEnds, hc.notGap, hcolon]
      rw [List.cons_append, plainRun, hends, ih fun d hd => h d (by simp [hd])]
      rfl

theorem carry_word {cs : List Char} (h : ∀ c ∈ cs, isNameChar c = true) : Text.carry cs = cs :=
  Text.carry_of_unreserved fun c hc => (isInk_of_isNameChar (h c hc)).unreserved

variable {cs rest : List Char} {left index line column : Nat}

/-- A plain scalar is the word alone if the gap behind it ends the scalar. -/
theorem plainScalar_of_plainGap (h : IsWord cs) (hrest : plainRun false rest = []) {indent : Int}
    (hleft : 0 < left) {next : List Char} {broke : Bool} {k : Cursor}
    (hgap : plainGap ⟨rest, left - cs.length, index + cs.length, line, column + cs.length⟩ =
      (next, k, broke))
    (hends : next = [] ∨ (k.column : Int) < indent) :
    plainScalar false indent ⟨cs ++ rest, left, index, line, column⟩ = (cs, broke, k) := by
  obtain ⟨fuel, rfl⟩ := Nat.exists_eq_succ_of_ne_zero hleft.ne'
  have hhash : (⟨cs ++ rest, fuel + 1, index, line, column⟩ : Cursor).peek ≠ some '#' := by
    obtain ⟨c, ds, rfl⟩ := List.exists_cons_of_ne_nil h.ne_nil
    have hc := (isInk_of_isNameChar (h.chars c (by simp))).ne '#' rfl
    simpa [Cursor.peek] using hc
  have hclosed : (next.isEmpty || decide (k.peek = some '#') ||
      (!false && decide ((k.column : Int) < indent))) = true := by
    rcases hends with rfl | hlt
    · rfl
    · simp [hlt]
  rw [plainScalar, plainParts, if_neg hhash, plainRun_word h.chars hrest]
  split
  next => exact absurd rfl h.ne_nil
  next =>
    rw [Cursor.skip_word h.chars, hgap]
    simp only [hclosed, if_true, List.nil_append, carry_word h.chars]

/-- A word before a colon is a scalar of its own. -/
theorem plainScalar_key (h : IsWord cs) (indent : Int) (hleft : 0 < left) :
    plainScalar false indent ⟨cs ++ ':' :: ' ' :: rest, left, index, line, column⟩ =
      (cs, false, ⟨':' :: ' ' :: rest, left - cs.length, index + cs.length, line,
        column + cs.length⟩) :=
  plainScalar_of_plainGap h rfl hleft rfl (.inl rfl)

/-- A word at the end of the text is a scalar of its own if something is around it. -/
theorem plainScalar_last (h : IsWord cs) {indent : Int} (hindent : 0 < indent) :
    plainScalar false indent ⟨cs ++ ['\n'], cs.length + 1, index, line, column⟩ =
      (cs, true, ⟨[], 0, index + cs.length + 1, line + 1, 0⟩) := by
  have hgap : plainGap ⟨['\n'], cs.length + 1 - cs.length, index + cs.length, line,
      column + cs.length⟩ = ([' '], ⟨[], 0, index + cs.length + 1, line + 1, 0⟩, true) := by
    rw [Nat.add_sub_cancel_left]
    rfl
  exact plainScalar_of_plainGap h rfl (Nat.succ_pos _) hgap (.inr hindent)

/-! ### Steps of the scanner -/

namespace Lexer

variable {s : Lexer} {c : Char}

theorem skipToToken_of_head (hcursor : s.cursor = ⟨c :: rest, left, index, line, column⟩)
    (hbreak : isBreak c = false) (hspace : c ≠ ' ') (hhash : c ≠ '#') (fuel : Nat) :
    skipToToken fuel s = s := by
  cases fuel with
  | zero => rfl
  | succ fuel =>
      have hskip : s.cursor.skipSpaces.skipComment = s.cursor := by
        rw [Cursor.skipSpaces, hcursor, Cursor.span_of_head (by simpa using hspace),
          Cursor.skipComment, if_neg (by simpa [Cursor.peek] using hhash)]
      rw [skipToToken]
      simp only [hskip]
      rw [hcursor, Cursor.lineBreak_of_head hbreak, ← hcursor]

/-- A dash at the start of a word stands before another character of it. -/
theorem isGap_second (h : IsWord (c :: cs)) (hdash : c = '-') :
    isGap (Cursor.peekAt ⟨c :: cs ++ rest, left, index, line, column⟩ 1) = false := by
  obtain ⟨d, ds, rfl⟩ := List.exists_cons_of_ne_nil fun hnil : cs = [] =>
    h.ne_dash (by rw [hdash, hnil])
  exact (isInk_of_isNameChar (h.chars d (by simp))).notGap

theorem startsPlain_word (h : IsWord (c :: cs))
    (hcursor : s.cursor = ⟨c :: cs ++ rest, left, index, line, column⟩) :
    s.startsPlain = true := by
  have hink := isInk_of_isNameChar (h.chars c (by simp))
  -- The dash is the one mark that a word may begin with, and only before another character.
  have hmarks : "-?:,[]\x7b\x7d#&*!|>'\"%@`".toList = '-' :: startMarks := rfl
  rw [startsPlain, hcursor, hmarks]
  by_cases hdash : c = '-'
  · have hgap := @isGap_second cs rest left index line column c h hdash
    subst hdash
    simpa [Cursor.peek] using hgap
  · have hcontains : ('-' :: startMarks).contains c = false := by
      rw [List.contains_cons, hink.notMark, Bool.or_false]
      simpa using hdash
    simp only [Cursor.peek, List.cons_append, List.head?_cons, hink.notGap, hcontains]
    rfl

/-- A word is read as a plain scalar where it is no document mark. -/
theorem token_word (h : IsWord (c :: cs))
    (hcursor : s.cursor = ⟨c :: cs ++ rest, left, index, line, column⟩)
    (hmark : column ≠ 0 ∨ c ≠ '-') {s' : Lexer} (hsave : s.savePending = .ok s')
    {text : List Char} {broke : Bool} {k : Cursor}
    (hscalar : plainScalar s'.inFlow (s'.indent + 1) s.cursor = (text, broke, k)) :
    s.token c =
      .ok ({ s' with keyAllowed := broke }.pushAt (.scalar (String.ofList text) true) k) := by
  have hink := isInk_of_isNameChar (h.chars c (by simp))
  have hpoint : c ≠ '.' := by
    rintro rfl
    exact absurd (h.chars '.' (by simp)) (by decide)
  have hdocument : (decide (s.cursor.column = 0) && s.cursor.atMark) = false := by
    rw [hcursor]
    rcases hmark with hcolumn | hdash
    · simp [hcolumn]
    · simp [Cursor.atMark, hdash, hpoint]
  have hitem : (decide (c = '-') && isGap (s.cursor.peekAt 1)) = false := by
    rw [hcursor]
    by_cases hdash : c = '-'
    · rw [isGap_second h hdash, Bool.and_false]
    · simp [hdash]
  -- No branch before the last one is taken: each asks for a mark that no word begins with.
  unfold token
  simp only [hink.ne '%' rfl, hink.ne '[' rfl, hink.ne '{' rfl, hink.ne ']' rfl, hink.ne '}' rfl,
    hink.ne ',' rfl, hink.ne '?' rfl, hink.ne ':' rfl, hink.ne '*' rfl, hink.ne '&' rfl,
    hink.ne '!' rfl, hink.ne '|' rfl, hink.ne '>' rfl, hink.ne '\x27' rfl, hink.ne '"' rfl,
    decide_false, Bool.false_and, Bool.or_self, Bool.false_eq_true, if_false, hdocument, hitem,
    startsPlain_word h hcursor, if_true, hsave, bind, Except.bind, hscalar]
  rfl

/-- A step reads the token that comes next if no block ends before it. -/
theorem step_of_token {s' : Lexer} (hskip : skipToToken s.cursor.left s = s')
    (hstale : s'.dropStale = .ok s') (hopen : s'.unwind s'.cursor.column = s')
    (hpeek : s'.cursor.peek = some c) {s'' : Lexer} (htoken : s'.token c = .ok s'') :
    s.step = .ok (s'', false) := by
  rw [step, hskip, hstale]
  simp only [bind, Except.bind, hopen, hpeek, htoken]
  rfl

/-- The first word of a line may turn out to be a key. -/
theorem step_key (h : IsWord cs) (hdash : cs.head? ≠ some '-') (hleft : 0 < left) :
    step ⟨⟨cs ++ ':' :: ' ' :: rest, left, 0, 0, 0⟩, [], 0, none, [], -1, [], true⟩ =
      .ok (⟨⟨':' :: ' ' :: rest, left - cs.length, cs.length, 0, cs.length⟩,
        [.scalar (String.ofList cs) true], 1, some ⟨0, false, 0, 0, 0⟩, [], -1, [], false⟩,
        false) := by
  obtain ⟨c, ds, rfl⟩ := List.exists_cons_of_ne_nil h.ne_nil
  have hink := isInk_of_isNameChar (h.chars c (by simp))
  refine step_of_token (skipToToken_of_head rfl hink.inline hink.ne_space (hink.ne '#' rfl) _)
    rfl rfl rfl ?_
  have hsave (cs : List Char) : savePending ⟨⟨cs, left, 0, 0, 0⟩, [], 0, none, [], -1, [], true⟩ =
      .ok ⟨⟨cs, left, 0, 0, 0⟩, [], 0, some ⟨0, false, 0, 0, 0⟩, [], -1, [], true⟩ := rfl
  have hscalar := @plainScalar_key (c :: ds) rest left 0 0 0 h 0 hleft
  rw [Nat.zero_add] at hscalar
  exact token_word h rfl (.inr (by simpa using hdash)) (hsave _) hscalar

/-- The state inside the block of one key, where no other key is pending. -/
def inBlock (k : Cursor) (found : List Token) (count : Nat) (keyAllowed : Bool) : Lexer :=
  ⟨k, found, count, none, [], 0, [-1], keyAllowed⟩

/-- The colon behind a word makes it the key of a block. -/
theorem step_colon {width : Nat} (hwidth : width < 1024) (first : Token) :
    step ⟨⟨':' :: ' ' :: rest, left, width + 1, 0, width + 1⟩, [first], 1,
        some ⟨0, false, 0, 0, 0⟩, [], -1, [], false⟩ =
      .ok (inBlock ⟨' ' :: rest, left - 1, width + 2, 0, width + 2⟩
        [.value, first, .key, .blockMappingStart] 4 false, false) := by
  refine step_of_token (skipToToken_of_head rfl (by decide) (by decide) (by decide) _) ?_ rfl
    rfl rfl
  have hkept : forgetStale ⟨':' :: ' ' :: rest, left, width + 1, 0, width + 1⟩
      (some ⟨0, false, 0, 0, 0⟩) = .ok (some ⟨0, false, 0, 0, 0⟩) := by
    rw [forgetStale, if_neg]
    simp
    omega
  rw [dropStale, hkept]
  rfl

/-- One space is skipped before a token. -/
theorem skipToToken_space (hbreak : isBreak c = false) (hspace : c ≠ ' ') (hhash : c ≠ '#')
    (hcursor : s.cursor = ⟨' ' :: c :: rest, left, index, line, column⟩) (fuel : Nat) :
    skipToToken (fuel + 1) s =
      { s with cursor := ⟨c :: rest, left - 1, index + 1, line, column + 1⟩ } := by
  have hskip : s.cursor.skipSpaces.skipComment =
      ⟨c :: rest, left - 1, index + 1, line, column + 1⟩ := by
    have hspan : s.cursor.skipSpaces = ⟨c :: rest, left - 1, index + 1, line, column + 1⟩ := by
      rw [hcursor, Cursor.skipSpaces, Cursor.span]
      simp [hspace, Cursor.skip, Cursor.next, isBreak]
    rw [hspan, Cursor.skipComment, if_neg (by simpa [Cursor.peek] using hhash)]
  rw [skipToToken]
  simp only [hskip]
  rw [Cursor.lineBreak_of_head hbreak]

/-- A word is the value of the key before it, up to the end of the line. -/
theorem step_plain (h : IsWord cs) (found : List Token) (count : Nat) :
    step (inBlock ⟨' ' :: (cs ++ ['\n']), cs.length + 2, index, 0, column⟩ found count false) =
      .ok (inBlock ⟨[], 0, index + 1 + cs.length + 1, 1, 0⟩
        (.scalar (String.ofList cs) true :: found) (count + 1) true, false) := by
  obtain ⟨c, ds, rfl⟩ := List.exists_cons_of_ne_nil h.ne_nil
  have hink := isInk_of_isNameChar (h.chars c (by simp))
  refine step_of_token (skipToToken_space hink.inline hink.ne_space (hink.ne '#' rfl) rfl _)
    rfl rfl rfl ?_
  have hsave (k : Cursor) : savePending (inBlock k found count false) =
      .ok (inBlock k found count false) := rfl
  have hscalar := @plainScalar_last (c :: ds) (index + 1) 0 (column + 1) h 1 (by decide)
  exact token_word h rfl (.inl (Nat.succ_ne_zero column)) (hsave _) hscalar

/-- A quoted word ends with its quote. -/
theorem quotedParts_word (h : ∀ c ∈ cs, isNameChar c = true) {fuel : Nat}
    (hfuel : cs.length < fuel) :
    quotedParts true fuel ⟨cs ++ '"' :: rest, left, index, line, column⟩ =
      .ok (cs, ⟨rest, left - cs.length - 1, index + cs.length + 1, line,
        column + cs.length + 1⟩) := by
  induction cs generalizing fuel left index column with
  | nil =>
      obtain ⟨fuel, rfl⟩ := Nat.exists_eq_succ_of_ne_zero (Nat.ne_of_gt hfuel)
      rfl
  | cons c cs ih =>
      obtain ⟨fuel, rfl⟩ := Nat.exists_eq_succ_of_ne_zero (Nat.ne_of_gt (Nat.zero_lt_of_lt hfuel))
      have hink := isInk_of_isNameChar (h c (by simp))
      have hbackslash : c ≠ '\\' := by
        rintro rfl
        exact absurd (h '\\' (by simp)) (by decide)
      have hquote : c ≠ '"' := hink.ne '"' rfl
      have hrest := @ih (left - 1) (index + 1) (column + 1) (fun d hd => h d (by simp [hd])) fuel
        (by simpa using hfuel)
      rw [List.cons_append, quotedParts]
      simp only [Cursor.peek, List.head?_cons, Bool.not_true, Bool.false_and, Bool.false_eq_true,
        if_false, if_true, hquote, hbackslash, decide_false, Bool.and_false, hink.notGap,
        Cursor.next_of_isInk hink, hrest, bind, Except.bind, Text.carryChar, hink.unreserved]
      refine congrArg Except.ok (Prod.ext rfl ?_)
      simp only [List.length_cons, Cursor.mk.injEq, true_and]
      omega

/-- A quoted word is the value of the key before it, and the line is not yet over. -/
theorem step_quoted (h : ∀ c ∈ cs, isNameChar c = true) (found : List Token) (count : Nat) :
    step (inBlock ⟨' ' :: '"' :: (cs ++ ['"', '\n']), cs.length + 4, index, 0, column⟩ found count
        false) =
      .ok (inBlock ⟨['\n'], 1, index + 2 + cs.length + 1, 0, column + 2 + cs.length + 1⟩
        (.scalar (String.ofList cs) false :: found) (count + 1) false, false) := by
  refine step_of_token (skipToToken_space (by decide) (by decide) (by decide) rfl _) rfl rfl rfl ?_
  have hscalar : quotedScalar true ⟨'"' :: (cs ++ ['"', '\n']), cs.length + 3, index + 1, 0,
      column + 1⟩ = .ok (cs, ⟨['\n'], 1, index + 2 + cs.length + 1, 0,
        column + 2 + cs.length + 1⟩) := by
    have hparts := @quotedParts_word cs ['\n'] (cs.length + 2) (index + 2) 0 (column + 2) h
      (cs.length + 4) (by omega)
    rwa [Nat.add_sub_cancel_left] at hparts
  have htoken (rest : List Char) (left : Nat) :
      token (inBlock ⟨'"' :: rest, left, index + 1, 0, column + 1⟩ found count false) '"' =
        (quotedScalar true ⟨'"' :: rest, left, index + 1, 0, column + 1⟩).bind fun r =>
          .ok (inBlock r.2 (.scalar (String.ofList r.1) false :: found) (count + 1) false) := rfl
  refine (htoken (cs ++ ['"', '\n']) (cs.length + 3)).trans ?_
  rw [hscalar]
  rfl

/-- The end of the text ends the block, also behind a line break. -/
theorem step_end (found : List Token) (count : Nat) (keyAllowed : Bool) :
    step (inBlock ⟨[], 0, index, 1, 0⟩ found count keyAllowed) =
        .ok (⟨⟨[], 0, index, 1, 0⟩, .blockEnd :: found, count + 1, none, [], -1, [], keyAllowed⟩,
          true) ∧
      step (inBlock ⟨['\n'], 1, index, 0, column⟩ found count keyAllowed) =
        .ok (⟨⟨[], 0, index + 1, 1, 0⟩, .blockEnd :: found, count + 1, none, [], -1, [],
          keyAllowed || true⟩, true) :=
  ⟨rfl, rfl⟩

theorem run_of_step {s' : Lexer} (h : s.step = .ok (s', false)) (fuel : Nat) :
    run (fuel + 1) s = run fuel s' := by
  rw [run, h]
  rfl

theorem run_of_last {s' : Lexer} (h : s.step = .ok (s', true)) (fuel : Nat) :
    run (fuel + 1) s = ⟨s'.found.reverse, none⟩ := by
  rw [run, h]
  rfl

end Lexer

/-! ### Lines -/

/-- The line of a key and its value. -/
def pairLine (key value : String) : String :=
  key ++ ": " ++ value ++ "\n"

theorem toList_pairLine (key value : String) :
    (pairLine key value).toList = key.toList ++ ':' :: ' ' :: (value.toList ++ ['\n']) := by
  simp [pairLine, String.toList_append]

/-- What the scanner asks of the keys of lines: a word without a dash in front that is short enough
to be pending. -/
structure IsKey (key : String) : Prop where
  word : IsWord key.toList
  noDash : key.toList.head? ≠ some '-'
  short : key.length ≤ 1024

/-- The tokens of a mapping of one pair. -/
def pairTokens (first second : Token) : List Token :=
  [.blockMappingStart, .key, first, .value, second, .blockEnd]

/-- A text of allowed characters is scanned from its first one, unless this is a byte order mark. -/
theorem tokens_eq_run {text : String} {c : Char} {cs : List Char} (htext : text.toList = c :: cs)
    (hmark : c.toNat ≠ 0xfeff)
    (hchars : ∀ d ∈ text.toList, isAllowed d = true ∧ Text.isReserved d = false) :
    tokens text = Lexer.run (text.length + 2)
      ⟨⟨text.toList, text.length, 0, 0, 0⟩, [], 0, none, [], -1, [], true⟩ := by
  have hfree : text.toList.any Text.isReserved = false := by
    rw [List.any_eq_false]
    intro d hd
    simp [(hchars d hd).2]
  have hallowed : text.toList.all isAllowed = true :=
    List.all_eq_true.2 fun d hd => (hchars d hd).1
  have hstart : dropByteOrderMark (Cursor.start text.toList) =
      ⟨text.toList, text.length, 0, 0, 0⟩ := by
    rw [dropByteOrderMark, if_neg, Cursor.start, String.length_toList]
    rw [htext]
    simp [Cursor.start, Cursor.peek, hmark]
  rw [tokens, Text.hasSurrogate, Text.characters, hfree]
  simp only [Bool.false_and, Bool.false_eq_true, if_false, hallowed, String.length_toList,
    Bool.not_true, Bool.or_self]
  exact congrArg (fun k => Lexer.run _ { Lexer.start _ with cursor := k }) hstart

/-- The tokens of a line are those of its value behind those of its key. -/
theorem tokens_pairLine {key value : String} (h : IsKey key)
    (hvalue : ∀ c ∈ value.toList, isAllowed c = true ∧ Text.isReserved c = false) :
    tokens (pairLine key value) = Lexer.run (key.length + value.length + 3)
      (Lexer.inBlock ⟨' ' :: (value.toList ++ ['\n']), value.length + 2, key.length + 1, 0,
        key.length + 1⟩ [.value, .scalar key true, .key, .blockMappingStart] 4 false) := by
  have hchars : ∀ c ∈ (pairLine key value).toList,
      isAllowed c = true ∧ Text.isReserved c = false := by
    intro c hc
    rw [toList_pairLine, List.mem_append, List.mem_cons, List.mem_cons, List.mem_append,
      List.mem_singleton] at hc
    rcases hc with hc | rfl | rfl | hc | rfl
    · have hink := isInk_of_isNameChar (h.word.chars c hc)
      exact ⟨hink.allowed, hink.unreserved⟩
    · decide
    · decide
    · exact hvalue c hc
    · decide
  have hlength : (pairLine key value).length = key.length + value.length + 3 := by
    rw [← String.length_toList, toList_pairLine]
    simp only [List.length_append, List.length_cons, List.length_nil, String.length_toList]
    omega
  obtain ⟨c, ds, heq⟩ := List.exists_cons_of_ne_nil h.word.ne_nil
  have hink := isInk_of_isNameChar (h.word.chars c (by simp [heq]))
  have hstart := tokens_eq_run
    ((toList_pairLine key value).trans (congrArg (· ++ _) heq)) hink.notOrderMark hchars
  rw [hlength, toList_pairLine] at hstart
  have hkey := @Lexer.step_key key.toList (value.toList ++ ['\n']) (key.length + value.length + 3)
    h.word h.noDash (Nat.succ_pos _)
  rw [String.length_toList, String.ofList_toList] at hkey
  have hleft : key.length + value.length + 3 - key.length - 1 = value.length + 2 := by omega
  have hshort := h.short
  have hpos : key.length ≠ 0 := by
    rw [← String.length_toList]
    exact mt List.length_eq_zero_iff.1 h.word.ne_nil
  -- The colon stands at least one column behind the start of the key that is pending there.
  obtain ⟨width, hwidth⟩ := Nat.exists_eq_succ_of_ne_zero hpos
  rw [hstart, ← hleft]
  rw [hwidth] at hkey hshort ⊢
  exact (Lexer.run_of_step hkey _).trans (Lexer.run_of_step (Lexer.step_colon hshort _) _)

theorem tokens_plainLine {key word : String} (h : IsKey key) (hword : IsWord word.toList) :
    tokens (pairLine key word) = ⟨pairTokens (.scalar key true) (.scalar word true), none⟩ := by
  have hstep := @Lexer.step_plain word.toList (key.length + 1) (key.length + 1) hword
    [.value, .scalar key true, .key, .blockMappingStart] 4
  rw [String.length_toList, String.ofList_toList] at hstep
  rw [tokens_pairLine h fun c hc => ?_]
  · exact (Lexer.run_of_step hstep _).trans (Lexer.run_of_last (@Lexer.step_end _ 0 _ _ _).1 _)
  · have hink := isInk_of_isNameChar (hword.chars c hc)
    exact ⟨hink.allowed, hink.unreserved⟩

theorem tokens_quotedLine {key word : String} (h : IsKey key)
    (hword : ∀ c ∈ word.toList, isNameChar c = true) :
    tokens (pairLine key ("\"" ++ word ++ "\"")) =
      ⟨pairTokens (.scalar key true) (.scalar word false), none⟩ := by
  have hlist : ("\"" ++ word ++ "\"").toList = '"' :: (word.toList ++ ['"']) := by
    simp [String.toList_append]
  have hstep := @Lexer.step_quoted word.toList (key.length + 1) (key.length + 1) hword
    [.value, .scalar key true, .key, .blockMappingStart] 4
  rw [String.length_toList, String.ofList_toList] at hstep
  rw [tokens_pairLine h fun c hc => ?_]
  · have hlength : ("\"" ++ word ++ "\"").length = word.length + 2 := by
      rw [← String.length_toList, hlist]
      simp [String.length_toList]
    rw [hlength, hlist, List.cons_append, List.append_assoc]
    exact (Lexer.run_of_step hstep _).trans (Lexer.run_of_last (Lexer.step_end _ _ _).2 _)
  · rw [hlist, List.mem_cons, List.mem_append, List.mem_singleton] at hc
    rcases hc with rfl | hc | rfl
    · decide
    · have hink := isInk_of_isNameChar (hword c hc)
      exact ⟨hink.allowed, hink.unreserved⟩
    · decide

/-! ### From tokens to a value -/

/-- The nodes of a mapping of one pair. -/
def pairNodes (key : String) (tag : Tag) (word : String) : Array Node :=
  #[.map .map [(1, 2)], .scalar .str key, .scalar tag word]

theorem compose_of_pairTokens {text key word : String} {plain : Bool}
    (h : tokens text = ⟨pairTokens (.scalar key true) (.scalar word plain), none⟩)
    (hkey : plainTag key = .str) :
    compose text = .ok (some ⟨pairNodes key (Grammar.scalarTag none word plain) word, 0⟩) := by
  rw [pairNodes, ← hkey, compose, h]
  rfl

namespace Builder

theorem bind_of_ok {α β : Type} {x : Builder α} {f : α → Builder β} {s s' : Building} {a : α}
    (h : x s = .ok (a, s')) : (x >>= f) s = f a s' := by
  change (x s >>= fun r => f r.1 r.2) = _
  rw [h]
  rfl

theorem bind_of_error {α β : Type} {x : Builder α} {f : α → Builder β} {s : Building}
    {fault : Fault} (h : x s = .error fault) : (x >>= f) s = .error fault := by
  change (x s >>= fun r => f r.1 r.2) = _
  rw [h]
  rfl

/-- A node with a tag for scalars is built when it is first met. -/
theorem part_scalar {s : Building} {number : Nat} (htag : (tagAt s.nodes number).isScalar = true)
    (hnew : s.parts[number]? = some none) :
    part number s = (scalarOf s.nodes number).map fun x =>
      (.scalar x, { s with parts := s.parts.setIfInBounds number (some (.scalar x)) }) := by
  have hget : (get : Builder Building) s = .ok (s, s) := rfl
  unfold part
  rw [bind_of_ok hget, hnew]
  simp only [htag, if_true]
  cases scalarOf s.nodes number <;> rfl

/-- A single pair has the entry of its value if its key is built. -/
theorem entries_single {s s' : Building} {first second : Nat} {k : Key}
    (h : key first s = .ok (k, s')) :
    entries [(first, second)] s = (part second s').map fun r => ([(k.scalar, r.1)], r.2) := by
  unfold entries
  simp only [List.foldlM_cons, List.foldlM_nil, bind_assoc, pure_bind]
  rw [bind_of_ok h]
  cases hpart : part second s' with
  | error fault =>
      rw [bind_of_error hpart]
      rfl
  | ok r =>
      rw [bind_of_ok hpart]
      rfl

/-- The state in which the mapping is met and its key may be built. -/
def pairBuilding (key : String) (tag : Tag) (word : String) (first : Option Part) : Building :=
  ⟨pairNodes key tag word, #[some (.collection 0), first, none], #[.map []], #[0], 0⟩

theorem entries_pairNodes (key word : String) {tag : Tag} (htag : tag.isScalar = true) :
    entries [(1, 2)] (pairBuilding key tag word none) =
      ((buildScalar tag word).map fun x =>
        (.scalar x, ⟨pairNodes key tag word,
          #[some (.collection 0), some (.scalar (.str key)), some (.scalar x)], #[.map []], #[0],
          0⟩)).map fun r => ([(.str key, r.1)], r.2) := by
  have hkey : Builder.key 1 (pairBuilding key tag word none) =
      .ok (⟨.str key, none⟩, pairBuilding key tag word (some (.scalar (.str key)))) := rfl
  have hpart := @part_scalar (pairBuilding key tag word (some (.scalar (.str key)))) 2 htag rfl
  rw [entries_single hkey, hpart]
  rfl

end Builder

/-- A mapping of one pair denotes the scalar of its second node under its key. -/
theorem value_pairNodes (key word : String) {tag : Tag} (htag : tag.isScalar = true) :
    NodeGraph.value ⟨pairNodes key tag word, 0⟩ =
      (buildScalar tag word).map fun x => .node #[.map [(.str key, .scalar x)]] 0 := by
  -- The one collection is met and filled, and then nothing is left to fill.
  have hvalue : NodeGraph.value ⟨pairNodes key tag word, 0⟩ =
      (((Builder.collection 0 (.map []) (Builder.pairBuilding key tag word none)).bind fun r =>
        Builder.fill 3 1 { r.2 with graph := r.2.graph.setIfInBounds 0 r.1 }).bind fun r =>
          .ok (Part.collection 0, r.2)).bind fun r => .ok (.ofPart r.2.graph r.1) := rfl
  have hcollection : Builder.collection 0 (.map []) (Builder.pairBuilding key tag word none) =
      (Builder.entries [(1, 2)] (Builder.pairBuilding key tag word none)).bind fun r =>
        .ok (.map r.1, r.2) := rfl
  rw [hvalue, hcollection, Builder.entries_pairNodes key word htag]
  cases buildScalar tag word <;> rfl

/-- A text with the tokens of one pair denotes its entry, or has the fault of its value. -/
theorem load_of_pairTokens {text key word : String} {plain : Bool}
    (h : tokens text = ⟨pairTokens (.scalar key true) (.scalar word plain), none⟩)
    (hkey : plainTag key = .str) (htag : (Grammar.scalarTag none word plain).isScalar = true) :
    load text = (buildScalar (Grammar.scalarTag none word plain) word).map fun x =>
      .node #[.map [(.str key, .scalar x)]] 0 := by
  rw [load, compose_of_pairTokens h hkey]
  exact value_pairNodes key word htag

end Groundplan.Yaml
