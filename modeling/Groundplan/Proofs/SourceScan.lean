import Groundplan.Proofs.LiteralReading

/-!
# Scanning source

What a character of source means depends on what stands before it: it is code, or a part of a
comment or of a string, and a line break within brackets does not end a line. Source is scanned
character by character, from its first one, with the mode of reading and the brackets that are
still open. The scan gives the code and the contents of the long strings. Comments are no code, a
short string is code as it is written, and a long string leaves a pair of quotes behind. The lines
of the code are therefore the logical lines of the source, without what strings of several lines
and comments have in them. A scan tells code from text. It does not say whether the code means
something, nor does it look at the null character, with which a file cannot be loaded at all.

A text is *inline* if it is code wherever it stands in code, up to its end, and leaves no string or
bracket open. Names, numbers, literals and what is built from them are inline. Of a text that is
written by hand this can be checked by scanning it: one that is *contained* is inline.
-/

namespace Groundplan.Source

/-! ### Places and steps -/

/-- How a character is read: as code, behind a backslash in code, in a comment, behind the quote
that opens a string, behind two quotes, in a short string, behind a backslash in it, or in a long
string of which some characters have been read, the last one first. -/
inductive Mode where
  | code
  | joined
  | comment
  | opened (quote : Char)
  | paired (quote : Char)
  | short (quote : Char)
  | escaped (quote : Char)
  | long (quote : Char) (r : Reading) (read : List Char)
  deriving DecidableEq, Repr

/-- A place in source: the closing brackets that are awaited there, the next one first, and the
mode. -/
structure Place where
  awaited : List Char
  mode : Mode
  deriving DecidableEq, Repr

/-- What a scan gives: characters of code and the contents of long strings. -/
inductive Piece where
  | code (c : Char)
  | string (content : List Char)
  deriving DecidableEq, Repr

def isQuote (c : Char) : Bool :=
  c = '"' || c = '\''

def isClosing (c : Char) : Bool :=
  c = ')' || c = ']' || c = '\x7d'

/-- The bracket that closes an opening one. -/
def closing? (c : Char) : Option Char :=
  if c = '(' then some ')'
  else if c = '[' then some ']'
  else if c = '\x7b' then some '\x7d'
  else none

/-- Reads a character of code. A closing bracket has to be the one that is awaited. -/
def onCode (awaited : List Char) (c : Char) : Option (Place × List Piece) :=
  if c = '#' then some (⟨awaited, .comment⟩, [])
  else if c = '\\' then some (⟨awaited, .joined⟩, [])
  else if isBreak c then some (⟨awaited, .code⟩, if awaited.isEmpty then [.code '\n'] else [])
  else if isQuote c then some (⟨awaited, .opened c⟩, [.code c])
  else if isClosing c then
    if awaited.head? = some c then some (⟨awaited.tail, .code⟩, [.code c]) else none
  else some (⟨(closing? c).toList ++ awaited, .code⟩, [.code c])

/-- Reads a character of a short string, which has to end on its line. -/
def onShort (awaited : List Char) (quote c : Char) : Option (Place × List Piece) :=
  if c = quote then some (⟨awaited, .code⟩, [.code c])
  else if c = '\\' then some (⟨awaited, .escaped quote⟩, [.code c])
  else if isBreak c then none
  else some (⟨awaited, .short quote⟩, [.code c])

/-- A character as the reading of docstrings takes it, where strings are in the given quotes. -/
def asQuote (quote c : Char) : Char :=
  if c = quote then '"' else if c = '"' then ' ' else c

/-- Reads a character at a place. A carriage return behind a backslash is refused, because a line
feed behind it would have to be read with it. -/
def Place.step : Place → Char → Option (Place × List Piece)
  | ⟨awaited, .code⟩, c => onCode awaited c
  | ⟨awaited, .joined⟩, c => if c = '\n' then some (⟨awaited, .code⟩, []) else none
  | ⟨awaited, .comment⟩, c =>
    if isBreak c then onCode awaited c else some (⟨awaited, .comment⟩, [])
  | ⟨awaited, .opened quote⟩, c =>
    if c = quote then some (⟨awaited, .paired quote⟩, [.code c]) else onShort awaited quote c
  | ⟨awaited, .paired quote⟩, c =>
    if c = quote then some (⟨awaited, .long quote .plain []⟩, []) else onCode awaited c
  | ⟨awaited, .short quote⟩, c => onShort awaited quote c
  | ⟨awaited, .escaped quote⟩, c =>
    if c = '\n' then some (⟨awaited, .short quote⟩, [])
    else if c = '\r' then none
    else some (⟨awaited, .short quote⟩, [.code c])
  | ⟨awaited, .long quote r read⟩, c =>
    match r.next (asQuote quote c) with
    | some r' => some (⟨awaited, .long quote r' (c :: read)⟩, [])
    -- The two quotes before the last one have been read as content.
    | none => some (⟨awaited, .code⟩, [.string (read.drop 2).reverse])

/-- Reads characters from a place on. -/
def path (p : Place) : List Char → Option (Place × List Piece)
  | [] => some (p, [])
  | c :: cs => (p.step c).bind fun next => (path next.1 cs).map (Prod.map id (next.2 ++ ·))

/-- Where reading starts: in code, with no bracket open. -/
def Place.start : Place := ⟨[], .code⟩

theorem path_cons {p q : Place} {c : Char} {here : List Piece} (h : p.step c = some (q, here))
    (cs : List Char) : path p (c :: cs) = (path q cs).map (Prod.map id (here ++ ·)) := by
  rw [path, h, Option.bind_some]

theorem of_path_cons {p q : Place} {c : Char} {cs : List Char} {pieces : List Piece}
    (h : path p (c :: cs) = some (q, pieces)) :
    ∃ next here rest, p.step c = some (next, here) ∧ path next cs = some (q, rest) ∧
      pieces = here ++ rest := by
  obtain ⟨⟨next, here⟩, hstep, hbehind⟩ := Option.bind_eq_some_iff.1 h
  obtain ⟨⟨last, rest⟩, hrest, heq⟩ := Option.map_eq_some_iff.1 hbehind
  cases heq
  exact ⟨next, here, rest, hstep, hrest, rfl⟩

theorem path_append {p q : Place} {cs : List Char} {here : List Piece}
    (h : path p cs = some (q, here)) (ds : List Char) :
    path p (cs ++ ds) = (path q ds).map (Prod.map id (here ++ ·)) := by
  induction cs generalizing p here with
  | nil =>
      cases h
      exact Option.map_id'.symm
  | cons c cs ih =>
      obtain ⟨next, first, later, hstep, hrest, rfl⟩ := of_path_cons h
      rw [List.cons_append, path_cons hstep, ih hrest, Option.map_map]
      refine congrArg₂ Option.map (funext fun result => ?_) rfl
      simp [Prod.map]

/-! ### Scanning a text -/

/-- Whether source may end at a place. -/
def Place.isEnd (p : Place) : Bool :=
  p.awaited.isEmpty &&
    match p.mode with
    | .code | .comment | .paired _ => true
    | _ => false

/-- The code among pieces. -/
def codeChars (pieces : List Piece) : List Char :=
  pieces.filterMap fun piece =>
    match piece with
    | .code c => some c
    | .string _ => none

/-- The contents of the long strings among pieces. -/
def contents (pieces : List Piece) : List String :=
  pieces.filterMap fun piece =>
    match piece with
    | .code _ => none
    | .string content => some (String.ofList content)

/-- Scans a text, which has to end where source may end. -/
def scan? (text : String) : Option (List Piece) :=
  (path .start text.toList).bind fun (place, pieces) => if place.isEnd then some pieces else none

/-- The logical lines of code in a text. -/
def codeLines? (text : String) : Option (List String) :=
  (scan? text).map fun pieces => linesOf (String.ofList (codeChars pieces))

/-- The contents of the long strings in a text, in their order. -/
def longStrings? (text : String) : Option (List String) :=
  (scan? text).map contents

@[simp] theorem codeChars_append (pieces pieces' : List Piece) :
    codeChars (pieces ++ pieces') = codeChars pieces ++ codeChars pieces' :=
  List.filterMap_append

@[simp] theorem contents_append (pieces pieces' : List Piece) :
    contents (pieces ++ pieces') = contents pieces ++ contents pieces' :=
  List.filterMap_append

@[simp] theorem codeChars_map_code (cs : List Char) : codeChars (cs.map .code) = cs := by
  simp [codeChars, List.filterMap_map]

@[simp] theorem contents_map_code (cs : List Char) : contents (cs.map .code) = [] := by
  simp [contents, List.filterMap_map]

theorem scan?_eq {text : String} {pieces : List Piece}
    (h : path .start text.toList = some (.start, pieces)) : scan? text = some pieces := by
  rw [scan?, h]
  rfl

/-! ### Code -/

/-- Whether reading characters leads from one place to another and gives some code, with no string
of several lines in it. -/
def Reads (p : Place) (cs : List Char) (q : Place) (code : List Char) : Prop :=
  path p cs = some (q, code.map .code)

theorem reads_nil (p : Place) : Reads p [] p [] :=
  rfl

theorem Reads.append {p q r : Place} {cs ds code code' : List Char} (h : Reads p cs q code)
    (h' : Reads q ds r code') : Reads p (cs ++ ds) r (code ++ code') := by
  rw [Reads, path_append h, h', List.map_append]
  rfl

theorem Reads.cons {p q r : Place} {c : Char} {cs code : List Char} (here : List Char)
    (hstep : p.step c = some (q, here.map .code)) (h : Reads q cs r code) :
    Reads p (c :: cs) r (here ++ code) := by
  rw [Reads, path_cons hstep, h, List.map_append]
  rfl

/-- The characters that do more in code than stand for themselves. -/
def isLexical (c : Char) : Bool :=
  c = '#' || c = '\\' || isBreak c || isQuote c || isClosing c || (closing? c).isSome

theorem step_of_isLexical_eq_false {c : Char} (h : isLexical c = false) (awaited : List Char) :
    Place.step ⟨awaited, .code⟩ c = some (⟨awaited, .code⟩, [.code c]) := by
  simp only [isLexical, Bool.or_eq_false_iff, decide_eq_false_iff_not, Option.isSome_eq_false_iff,
    Option.isNone_iff_eq_none] at h
  obtain ⟨⟨⟨⟨⟨hsign, hslash⟩, hbreak⟩, hquote⟩, hclosing⟩, hopening⟩ := h
  simp [Place.step, onCode, hsign, hslash, hbreak, hquote, hclosing, hopening]

theorem reads_of_free {cs : List Char} (h : cs.any isLexical = false) (awaited : List Char) :
    Reads ⟨awaited, .code⟩ cs ⟨awaited, .code⟩ cs := by
  induction cs with
  | nil => exact reads_nil _
  | cons c cs ih =>
      rw [List.any_cons, Bool.or_eq_false_iff] at h
      exact Reads.cons [c] (step_of_isLexical_eq_false h.1 awaited) (ih h.2)

/-- The end of a line ends a line of code where no bracket is open. -/
theorem reads_break : Reads .start ['\n'] .start ['\n'] :=
  rfl

/-- The end of a line is no code where a bracket is open. -/
theorem Reads.inside {awaited rest code : List Char} {q : Place} (hopen : awaited ≠ [])
    (h : Reads ⟨awaited, .code⟩ rest q code) : Reads ⟨awaited, .code⟩ ('\n' :: rest) q code := by
  obtain ⟨bracket, brackets, rfl⟩ := List.exists_cons_of_ne_nil hopen
  exact Reads.cons [] rfl h

theorem Reads.opening {awaited rest code : List Char} {q : Place} {c bracket : Char}
    (hc : closing? c = some bracket) (h : Reads ⟨bracket :: awaited, .code⟩ rest q code) :
    Reads ⟨awaited, .code⟩ (c :: rest) q (c :: code) := by
  have hopening : c = '(' ∨ c = '[' ∨ c = '\x7b' := by
    unfold closing? at hc
    split_ifs at hc with h₁ h₂ h₃
    · exact .inl h₁
    · exact .inr (.inl h₂)
    · exact .inr (.inr h₃)
  refine Reads.cons [c] ?_ h
  rcases hopening with rfl | rfl | rfl <;> cases hc <;> rfl

theorem Reads.closing {awaited rest code : List Char} {q : Place} {c : Char}
    (hc : isClosing c = true) (h : Reads ⟨awaited, .code⟩ rest q code) :
    Reads ⟨c :: awaited, .code⟩ (c :: rest) q (c :: code) := by
  have hclosing : c = ')' ∨ c = ']' ∨ c = '\x7d' := by
    simpa [isClosing, or_assoc] using hc
  refine Reads.cons [c] ?_ h
  rcases hclosing with rfl | rfl | rfl <;> simp [Place.step, onCode, isBreak, isQuote, isClosing]

/-- The place behind a character that is code as it stands and ends no line. -/
def Place.next? (p : Place) (c : Char) : Option Place :=
  if isBreak c then none
  else
    match p.step c with
    | some (q, [.code d]) => if d = c then some q else none
    | _ => none

/-- The place behind characters of one line if each of them is code as it stands. -/
def codeEnd? (p : Place) : List Char → Option Place
  | [] => some p
  | c :: cs =>
    match p.next? c with
    | some q => codeEnd? q cs
    | none => none

theorem Place.of_next?_eq_some {p q : Place} {c : Char} (h : p.next? c = some q) :
    isBreak c = false ∧ p.step c = some (q, [.code c]) := by
  unfold Place.next? at h
  split_ifs at h with hbreak
  split at h
  next r d hstep =>
    split_ifs at h with hd
    cases h
    exact ⟨Bool.eq_false_iff.2 hbreak, hd ▸ hstep⟩
  next => cases h

theorem Place.next?_eq_some {p q : Place} {c : Char} (hc : isBreak c = false)
    (hstep : p.step c = some (q, [.code c])) : p.next? c = some q := by
  simp [Place.next?, hc, hstep]

theorem of_codeEnd?_eq_some {p q : Place} {cs : List Char} (h : codeEnd? p cs = some q) :
    cs.any isBreak = false ∧ Reads p cs q cs := by
  induction cs generalizing p with
  | nil =>
      cases h
      exact ⟨rfl, reads_nil _⟩
  | cons c cs ih =>
      rw [codeEnd?] at h
      split at h
      next r hnext =>
        obtain ⟨hbreak, hstep⟩ := Place.of_next?_eq_some hnext
        obtain ⟨hline, hreads⟩ := ih h
        rw [List.any_cons, hline, hbreak]
        exact ⟨rfl, Reads.cons [c] hstep hreads⟩
      next => cases h

theorem codeEnd?_append (p : Place) (cs ds : List Char) :
    codeEnd? p (cs ++ ds) = (codeEnd? p cs).bind fun q => codeEnd? q ds := by
  induction cs generalizing p with
  | nil => rfl
  | cons c cs ih =>
      rw [List.cons_append, codeEnd?, codeEnd?]
      cases p.next? c with
      | none => rfl
      | some q => exact ih q

theorem codeEnd?_of_free {cs : List Char} (h : cs.any isLexical = false) (awaited : List Char) :
    codeEnd? ⟨awaited, .code⟩ cs = some ⟨awaited, .code⟩ := by
  induction cs with
  | nil => rfl
  | cons c cs ih =>
      rw [List.any_cons, Bool.or_eq_false_iff] at h
      have hbreak : isBreak c = false := by
        have hlexical := h.1
        simp only [isLexical, Bool.or_eq_false_iff] at hlexical
        exact hlexical.1.1.1.2
      rw [codeEnd?, Place.next?_eq_some hbreak (step_of_isLexical_eq_false h.1 awaited)]
      exact ih h.2

/-! ### Inline texts -/

/-- Whether characters start with one that is no quote. -/
def Clear (cs : List Char) : Prop :=
  cs.head?.any (fun c => !isQuote c) = true

theorem clear_cons {c : Char} (hc : isQuote c = false) (cs : List Char) : Clear (c :: cs) := by
  rw [Clear, List.head?_cons, Option.any_some, hc]
  rfl

theorem Clear.append {cs : List Char} (h : Clear cs) (ds : List Char) : Clear (cs ++ ds) := by
  cases cs with
  | nil => cases h
  | cons c cs => exact h

/-- Whether a text of one line is code wherever it stands in code, and leaves nothing open. What
follows must not be a quote, which would be read together with an empty string before it. -/
def Inline (text : String) : Prop :=
  OneLine text ∧ ∀ awaited rest code q, Clear rest → Reads ⟨awaited, .code⟩ rest q code →
    Reads ⟨awaited, .code⟩ (text.toList ++ rest) q (text.toList ++ code)

theorem Inline.reads {text : String} (h : Inline text) {awaited rest code : List Char} {q : Place}
    (hclear : Clear rest) (hrest : Reads ⟨awaited, .code⟩ rest q code) :
    Reads ⟨awaited, .code⟩ (text.toList ++ rest) q (text.toList ++ code) :=
  h.2 awaited rest code q hclear hrest

theorem oneLine_of_free {text : String} (h : Text.Free isLexical text) : OneLine text :=
  fun hbreak => absurd (Text.free_iff.1 h '\n' hbreak) (by decide)

theorem inline_of_free {text : String} (h : Text.Free isLexical text) : Inline text :=
  ⟨oneLine_of_free h, fun _ _ _ _ _ hrest => (reads_of_free h _).append hrest⟩

theorem inline_ofList {cs : List Char} (h : cs.any isLexical = false) :
    Inline (String.ofList cs) :=
  inline_of_free (Text.free_ofList h)

/-- A text without such characters leaves nothing that has to be read with what follows it. -/
theorem inline_append_of_free {text text' : String} (h : Text.Free isLexical text)
    (h' : Inline text') : Inline (text ++ text') := by
  refine ⟨(oneLine_of_free h).append h'.1, fun awaited rest code q hclear hrest => ?_⟩
  rw [String.toList_append, List.append_assoc, List.append_assoc]
  exact (reads_of_free h awaited).append (h'.reads hclear hrest)

theorem Inline.append {text text' : String} (h : Inline text) (h' : Inline text')
    (hclear' : text' = "" ∨ Clear text'.toList) : Inline (text ++ text') := by
  refine ⟨h.1.append h'.1, fun awaited rest code q hclear hrest => ?_⟩
  rw [String.toList_append, List.append_assoc, List.append_assoc]
  refine h.reads ?_ (h'.reads hclear hrest)
  rcases hclear' with rfl | hclear'
  · simpa using hclear
  · exact hclear'.append rest

theorem Inline.listed {texts : List String} (h : ∀ text ∈ texts, Inline text) :
    Inline (", ".intercalate texts) := by
  induction texts with
  | nil => exact inline_of_free rfl
  | cons text texts ih =>
      obtain ⟨htext, htexts⟩ := List.forall_mem_cons.1 h
      cases texts with
      | nil => simpa using htext
      | cons next texts =>
          rw [String.intercalate_cons_cons, String.append_assoc]
          refine htext.append (inline_append_of_free (Text.free_ofList rfl) (ih htexts)) (.inr ?_)
          rw [String.toList_append]
          exact clear_cons (c := ',') rfl _

/-- An inline text in brackets is inline, with a name before them or none. -/
theorem Inline.enclose {inner : String} (h : Inline inner) (before : String) (bracket : Char)
    (hbefore : Text.Free isLexical before) {bracket' : Char}
    (hpair : closing? bracket = some bracket') (hclosing : isClosing bracket' = true)
    {text : String}
    (htext : text.toList = before.toList ++ bracket :: (inner.toList ++ [bracket'])) :
    Inline text := by
  have hquote : isQuote bracket' = false := by
    simp only [isClosing, Bool.or_eq_true, decide_eq_true_eq] at hclosing
    rcases hclosing with (rfl | rfl) | rfl <;> decide
  refine ⟨?_, fun awaited rest code q _ hrest => ?_⟩
  · have hbefore := oneLine_of_free hbefore
    rw [OneLine, htext]
    simp only [List.mem_append, List.mem_cons, List.not_mem_nil, or_false, not_or]
    refine ⟨hbefore, ?_, h.1, ?_⟩
    · rintro rfl
      cases hpair
    · rintro rfl
      cases hclosing
  have hinner := h.reads (clear_cons hquote rest) (hrest.closing hclosing)
  have hall := (reads_of_free hbefore awaited).append (hinner.opening hpair)
  simpa [htext] using hall

/-! ### Literals -/

/-- A quote behind an empty string would open a long one; anything else is read as code. -/
theorem path_paired {c : Char} {cs : List Char} {quote : Char} (h : c ≠ quote)
    (awaited : List Char) :
    path ⟨awaited, .paired quote⟩ (c :: cs) = path ⟨awaited, .code⟩ (c :: cs) := by
  have hstep : Place.step ⟨awaited, .paired quote⟩ c = Place.step ⟨awaited, .code⟩ c := by
    simp [Place.step, h]
  rw [path, path, hstep]

theorem reads_paired {rest code : List Char} (hclear : Clear rest) {quote : Char}
    (hquote : isQuote quote = true) {awaited : List Char} {q : Place}
    (h : Reads ⟨awaited, .code⟩ rest q code) : Reads ⟨awaited, .paired quote⟩ rest q code := by
  cases rest with
  | nil => cases hclear
  | cons c rest =>
      have hne : c ≠ quote := by
        rintro rfl
        simp [Clear, hquote] at hclear
      rw [Reads, path_paired hne]
      exact h

/-- Escaped content is read within a short string. -/
theorem Escaped.reads {cs : List Char} (h : Escaped cs) (hbreak : cs.any isBreak = false)
    (awaited : List Char) :
    Reads ⟨awaited, .short '"'⟩ cs ⟨awaited, .short '"'⟩ cs := by
  induction h with
  | nil => exact reads_nil _
  | @plain c cs hc _ ih =>
      rw [List.any_cons, Bool.or_eq_false_iff] at hbreak
      obtain ⟨hquote, hslash⟩ := ne_of_isMark_eq_false hc
      refine Reads.cons [c] ?_ (ih hbreak.2)
      simp [Place.step, onShort, hquote, hslash, hbreak.1]
  | @escape c cs _ ih =>
      simp only [List.any_cons, Bool.or_eq_false_iff] at hbreak
      have hfeed : c ≠ '\n' := by
        rintro rfl
        exact absurd hbreak.2.1 (by decide)
      have hreturn : c ≠ '\r' := by
        rintro rfl
        exact absurd hbreak.2.1 (by decide)
      refine Reads.cons ['\\'] rfl (Reads.cons [c] ?_ (ih hbreak.2.2))
      simp [Place.step, hfeed, hreturn]

theorem inline_literal (text : String) : Inline (Text.literal text) := by
  refine ⟨oneLine_of_unbroken (unbroken_literal text), fun awaited rest code q hclear hrest => ?_⟩
  have hbreak : (text.toList.flatMap Text.literalChar).any isBreak = false := by
    have hall := unbroken_literal text
    unfold Unbroken Text.Free at hall
    rw [Text.toList_literal] at hall
    simpa [isBreak] using hall
  have hescaped : Escaped (text.toList.flatMap Text.literalChar) :=
    .flatMap Text.escaped_literalChar _
  rw [Text.toList_literal]
  generalize text.toList.flatMap Text.literalChar = content at hbreak hescaped ⊢
  have hclose : Reads ⟨awaited, .short '"'⟩ ('"' :: rest) q ('"' :: code) :=
    Reads.cons ['"'] rfl hrest
  have hbehind := (hescaped.reads hbreak awaited).append hclose
  cases content with
  | nil =>
      -- The two quotes of an empty string are settled by what follows.
      have hpaired : Reads ⟨awaited, .paired '"'⟩ rest q code := reads_paired hclear rfl hrest
      exact Reads.cons ['"'] rfl (Reads.cons ['"'] rfl hpaired)
  | cons c content =>
      have hfirst : c ≠ '"' := by
        rintro rfl
        cases hescaped with
        | plain hc _ => exact absurd hc (by decide)
      have hstep : Place.step ⟨awaited, .opened '"'⟩ c = Place.step ⟨awaited, .short '"'⟩ c := by
        simp [Place.step, hfirst]
      have hopened : Reads ⟨awaited, .opened '"'⟩ (c :: (content ++ '"' :: rest)) q
          (c :: (content ++ '"' :: code)) := by
        rw [Reads, path, hstep]
        exact hbehind
      simpa using Reads.cons (p := ⟨awaited, .code⟩) ['"'] rfl hopened

/-! ### Contained texts -/

/-- Whether a text stays on its line and, scanned by itself, is code and leaves nothing open. -/
def Contained (text : String) : Prop :=
  ∃ mode ∈ [Mode.code, .paired '"', .paired '\''],
    codeEnd? .start text.toList = some ⟨[], mode⟩

instance : DecidablePred Contained := fun _ =>
  inferInstanceAs (Decidable (∃ mode ∈ _, _))

/-- On one line, brackets that were open before do not matter. -/
theorem onCode_append {awaited : List Char} {c : Char} (hc : isBreak c = false) {q : Place}
    {here : List Piece} (h : onCode awaited c = some (q, here)) (outer : List Char) :
    onCode (awaited ++ outer) c = some (⟨q.awaited ++ outer, q.mode⟩, here) := by
  unfold onCode at h ⊢
  by_cases hawaited : isClosing c = true ∧ awaited.head? = some c
  · -- The bracket that is closed is not one of those that were open before.
    obtain ⟨rest, rfl⟩ := List.head?_eq_some_iff.1 hawaited.2
    simp only [hc, hawaited.1, List.head?_cons, List.cons_append, Bool.false_eq_true,
      if_false] at h ⊢
    split_ifs at h ⊢ <;> cases h <;> rfl
  · simp only [hc, Bool.false_eq_true, if_false] at h ⊢
    split_ifs at h with hsign hslash hquote hclosing hhead
    · cases h
      rw [if_pos hsign]
    · cases h
      rw [if_neg hsign, if_pos hslash]
    · cases h
      rw [if_neg hsign, if_neg hslash, if_pos hquote]
    · exact absurd ⟨hclosing, hhead⟩ hawaited
    · cases h
      rw [if_neg hsign, if_neg hslash, if_neg hquote, if_neg hclosing, List.append_assoc]

theorem step_append {awaited : List Char} {mode : Mode} {c : Char} (hc : isBreak c = false)
    {q : Place} {here : List Piece} (h : Place.step ⟨awaited, mode⟩ c = some (q, here))
    (outer : List Char) :
    Place.step ⟨awaited ++ outer, mode⟩ c = some (⟨q.awaited ++ outer, q.mode⟩, here) := by
  have hshort (quote : Char) (h : onShort awaited quote c = some (q, here)) :
      onShort (awaited ++ outer) quote c = some (⟨q.awaited ++ outer, q.mode⟩, here) := by
    unfold onShort at h ⊢
    split_ifs at h ⊢ <;> cases h <;> rfl
  -- Brackets are opened and closed in code only; every other mode passes on those that are open.
  cases mode with
  | code => exact onCode_append hc h outer
  | joined =>
      simp only [Place.step] at h ⊢
      split_ifs at h ⊢
      cases h
      rfl
  | comment =>
      simp only [Place.step, hc, Bool.false_eq_true, if_false] at h ⊢
      cases h
      rfl
  | opened quote =>
      simp only [Place.step] at h ⊢
      split_ifs at h ⊢
      · cases h
        rfl
      · exact hshort quote h
  | paired quote =>
      simp only [Place.step] at h ⊢
      split_ifs at h ⊢
      · cases h
        rfl
      · exact onCode_append hc h outer
  | short quote => exact hshort quote h
  | escaped quote =>
      simp only [Place.step] at h ⊢
      split_ifs at h ⊢ <;> cases h <;> rfl
  | long quote r read =>
      simp only [Place.step] at h ⊢
      cases hnext : r.next (asQuote quote c) with
      | some r' =>
          simp only [hnext] at h ⊢
          cases h
          rfl
      | none =>
          simp only [hnext] at h ⊢
          cases h
          rfl

theorem codeEnd?_append_awaited {awaited cs : List Char} {mode : Mode} {q : Place}
    (h : codeEnd? ⟨awaited, mode⟩ cs = some q) (outer : List Char) :
    codeEnd? ⟨awaited ++ outer, mode⟩ cs = some ⟨q.awaited ++ outer, q.mode⟩ := by
  induction cs generalizing awaited mode with
  | nil =>
      cases h
      rfl
  | cons c cs ih =>
      rw [codeEnd?] at h ⊢
      split at h
      next next hnext =>
        obtain ⟨hbreak, hstep⟩ := Place.of_next?_eq_some hnext
        rw [Place.next?_eq_some hbreak (step_append hbreak hstep outer)]
        exact ih h
      next => cases h

theorem Contained.inline {text : String} (h : Contained text) : Inline text := by
  obtain ⟨mode, hmode, hend⟩ := h
  have hline := (of_codeEnd?_eq_some hend).1
  refine ⟨oneLine_of_unbroken hline, fun awaited rest code q hclear hrest => ?_⟩
  have hreads := (of_codeEnd?_eq_some (codeEnd?_append_awaited hend awaited)).2
  -- A text may end with an empty string, which is settled by what follows.
  have hbehind : Reads ⟨awaited, mode⟩ rest q code := by
    simp only [List.mem_cons, List.not_mem_nil, or_false] at hmode
    rcases hmode with rfl | rfl | rfl
    · exact hrest
    · exact reads_paired hclear rfl hrest
    · exact reads_paired hclear rfl hrest
  exact hreads.append hbehind

theorem contained_append_iff {before : String} (h : Text.Free isLexical before) (text : String) :
    Contained (before ++ text) ↔ Contained text := by
  unfold Contained
  rw [String.toList_append, codeEnd?_append, Place.start, codeEnd?_of_free h]
  rfl

theorem contained_of_free {text : String} (h : Text.Free isLexical text) : Contained text :=
  ⟨.code, List.mem_cons_self, codeEnd?_of_free h []⟩

/-- A contained text in square brackets is contained, with a name before them. -/
theorem Contained.subscript {inner : String} (h : Contained inner) {before : String}
    (hbefore : Text.Free isLexical before) : Contained (before ++ ("[" ++ inner ++ "]")) := by
  obtain ⟨mode, hmode, hend⟩ := h
  refine (contained_append_iff hbefore _).2 ⟨.code, List.mem_cons_self, ?_⟩
  have hinner := codeEnd?_append_awaited hend [']']
  have hopening : codeEnd? .start ['['] = some ⟨[']'], .code⟩ := rfl
  have hclosing : codeEnd? ⟨[']'], mode⟩ [']'] = some .start := by
    simp only [List.mem_cons, List.not_mem_nil, or_false] at hmode
    rcases hmode with rfl | rfl | rfl <;> rfl
  rw [String.toList_append, String.toList_append, codeEnd?_append, codeEnd?_append,
    show "[".toList = ['['] from rfl, hopening]
  exact (congrArg (Option.bind · _) hinner).trans hclosing

/-! ### Comments and docstrings -/

theorem reads_comment {cs : List Char} (h : cs.any isBreak = false) (awaited : List Char) :
    Reads ⟨awaited, .comment⟩ cs ⟨awaited, .comment⟩ [] := by
  induction cs with
  | nil => exact reads_nil _
  | cons c cs ih =>
      rw [List.any_cons, Bool.or_eq_false_iff] at h
      refine Reads.cons [] ?_ (ih h.2)
      simp [Place.step, h.1]

theorem asQuote_self (c : Char) : asQuote '"' c = c := by
  unfold asQuote
  split
  · exact Eq.symm ‹_›
  · rfl

/-- Characters within which a docstring does not end are its content. -/
theorem path_long {r r' : Reading} {cs : List Char} (h : r.readOn cs = some r')
    (awaited read : List Char) :
    path ⟨awaited, .long '"' r read⟩ cs =
      some (⟨awaited, .long '"' r' (cs.reverse ++ read)⟩, []) := by
  induction cs generalizing r read with
  | nil =>
      cases h
      rfl
  | cons c cs ih =>
      rw [Reading.readOn_cons, Option.bind_eq_some_iff] at h
      obtain ⟨next, hnext, hrest⟩ := h
      have hstep : Place.step ⟨awaited, .long '"' r read⟩ c =
          some (⟨awaited, .long '"' next (c :: read)⟩, []) := by
        simp [Place.step, asQuote_self, hnext]
      rw [path_cons hstep, ih hrest]
      simp

/-- Where a docstring ends, its content has been read up to the closing quotes, and what is behind
them is code. -/
theorem path_long_of_behindQuotes? {r : Reading} {cs rest : List Char}
    (h : r.behindQuotes? cs = some rest) (awaited read : List Char) :
    ∃ before c, cs = before ++ c :: rest ∧ path ⟨awaited, .long '"' r read⟩ cs =
      (path ⟨awaited, .code⟩ rest).map
        (Prod.map id ([.string ((before.reverse ++ read).drop 2).reverse] ++ ·)) := by
  induction cs generalizing r read with
  | nil => cases h
  | cons c cs ih =>
      rw [Reading.behindQuotes?] at h
      cases hnext : r.next c with
      | none =>
          rw [hnext] at h
          cases h
          refine ⟨[], c, rfl, path_cons ?_ _⟩
          simp [Place.step, asQuote_self, hnext]
      | some r' =>
          rw [hnext] at h
          obtain ⟨before, d, rfl, hpath⟩ := ih h (c :: read)
          have hstep : Place.step ⟨awaited, .long '"' r read⟩ c =
              some (⟨awaited, .long '"' r' (c :: read)⟩, []) := by
            simp [Place.step, asQuote_self, hnext]
          refine ⟨c :: before, d, rfl, ?_⟩
          rw [path_cons hstep, hpath, Option.map_map, List.reverse_cons, List.append_assoc]
          rfl

/-- A docstring that is closed when as many characters have been read as it has is closed by its own
quotes. -/
theorem inert_of_length_eq {content : String} {before after rest : List Char} {c : Char}
    (hbehind : Reading.behindQuotes? .plain
      (content ++ tripleQuote ++ String.ofList after).toList = some rest)
    (hsplit : (content ++ tripleQuote ++ String.ofList after).toList = before ++ c :: rest)
    (hlength : before.length - 2 = content.toList.length) : Inert content := by
  by_cases hempty : content.toList = []
  · rw [String.toList_eq_nil_iff.1 hempty]
    exact inert_of_free rfl
  -- Two texts behind the same one are equal if they are of one length.
  have hall : content.toList.length + 3 + after.length = before.length + 1 + rest.length := by
    have hboth := congrArg List.length hsplit
    simp only [String.toList_append, String.toList_ofList, List.length_append, List.length_cons,
      show tripleQuote.toList = ['"', '"', '"'] from rfl, List.length_nil] at hboth
    omega
  have hpositive := List.length_pos_iff.2 hempty
  have hafter : after <:+ (content ++ tripleQuote ++ String.ofList after).toList := by
    rw [String.toList_append, String.toList_ofList]
    exact List.suffix_append _ _
  have hrest : rest <:+ (content ++ tripleQuote ++ String.ofList after).toList := by
    rw [hsplit]
    exact (List.suffix_cons c rest).trans (List.suffix_append _ _)
  have hsuffix : rest = after :=
    List.IsSuffix.eq_of_length (List.suffix_of_suffix_length_le hrest hafter (by omega)) (by omega)
  refine (Docstring.behindQuotes?_content_iff content (String.ofList after)).1 ?_
  rw [hbehind, hsuffix, String.toList_ofList]

/-- A docstring whose content is the first long string has been closed by its own quotes. -/
theorem inert_of_contents {content : String} {awaited after : List Char} {q : Place}
    {pieces : List Piece} {others : List String}
    (h : path ⟨awaited, .code⟩ ((tripleQuote ++ content ++ tripleQuote).toList ++ after) =
      some (q, pieces)) (hcontents : contents pieces = content :: others) : Inert content := by
  have hquotes : tripleQuote.toList = ['"', '"', '"'] := rfl
  have hopening : path ⟨awaited, .code⟩ ['"', '"', '"'] =
      some (⟨awaited, .long '"' .plain []⟩, [.code '"', .code '"']) := rfl
  have hchars : (tripleQuote ++ content ++ tripleQuote).toList ++ after =
      ['"', '"', '"'] ++ (content ++ tripleQuote ++ String.ofList after).toList := by
    simp [hquotes]
  rw [hchars, path_append hopening] at h
  cases hbehind : Reading.behindQuotes? .plain
      (content ++ tripleQuote ++ String.ofList after).toList with
  | none =>
      -- The docstring is not closed at all, so there is no long string.
      rw [Reading.behindQuotes?_eq_none_iff] at hbehind
      obtain ⟨r, hread⟩ := Option.isSome_iff_exists.1 hbehind
      rw [path_long hread] at h
      cases h
      cases hcontents
  | some rest =>
      -- It is closed somewhere, and what has been read up to there is as long as the content.
      obtain ⟨before, c, hsplit, hpath⟩ := path_long_of_behindQuotes? hbehind awaited []
      rw [hpath, Option.map_map, Option.map_eq_some_iff] at h
      obtain ⟨⟨last, later⟩, -, heq⟩ := h
      cases heq
      have hread : String.ofList ((before.reverse ++ []).drop 2).reverse = content :=
        (List.cons.inj hcontents).1
      refine inert_of_length_eq hbehind hsplit ?_
      rw [← hread]
      simp

/-- An inert text between three quotes at each end is one long string. -/
theorem path_docstring {content : String} (h : Inert content) (awaited : List Char) :
    path ⟨awaited, .code⟩ (tripleQuote ++ content ++ tripleQuote).toList =
      some (⟨awaited, .code⟩, [.code '"', .code '"', .string content.toList]) := by
  have hopening : path ⟨awaited, .code⟩ ['"', '"', '"'] =
      some (⟨awaited, .long '"' .plain []⟩, [.code '"', .code '"']) := rfl
  have hclosing (read : List Char) : path ⟨awaited, .long '"' .plain read⟩ ['"', '"', '"'] =
      some (⟨awaited, .code⟩, [.string read.reverse]) := rfl
  have hquotes : tripleQuote.toList = ['"', '"', '"'] := rfl
  rw [String.toList_append, String.toList_append, hquotes, List.append_assoc,
    path_append hopening, path_append (path_long h awaited []), hclosing]
  simp

end Groundplan.Source
