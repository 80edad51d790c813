import Groundplan.Proofs.LiteralReading

/-!
# Flattened texts

A text on one line of a docstring or a comment keeps its words and nothing else: the maximal pieces
without blanks, with one space between neighbours. The words of a flattened text are those of the
text, so flattening a second time changes nothing, and since every character at which lines end is
a blank, a flattened text stays on its line.

In a docstring quotes and backslashes are escaped on top of that. Read between the quotes of the
docstring, the line ends with these and denotes the flattened text. Nothing else is escaped, and so a
text with the null character, which is no blank, makes a docstring that cannot be read.
-/

namespace Groundplan.Text

open Source

/-! ### Words -/

/-- Whether characters divide into words: each word is not empty, has no blanks in it and ends
before a blank or with the text, and there are only blanks besides. -/
inductive DividesInto : List Char → List (List Char) → Prop where
  | nil : DividesInto [] []
  | blank {c : Char} {cs : List Char} {words : List (List Char)} (hc : isBlank c = true)
      (h : DividesInto cs words) : DividesInto (c :: cs) words
  | word {word cs : List Char} {words : List (List Char)} (hne : word ≠ [])
      (hword : ∀ c ∈ word, isBlank c = false) (hcs : ∀ c ∈ cs.head?, isBlank c = true)
      (h : DividesInto cs words) : DividesInto (word ++ cs) (word :: words)

theorem runs_cons_blank {c : Char} (hc : isBlank c = true) (cs : List Char) :
    runs isBlank (c :: cs) = runs isBlank cs := by
  simp [runs, firstRun, hc, consRun]

theorem DividesInto.eq_runs {cs : List Char} {words : List (List Char)} (h : DividesInto cs words) :
    words = runs isBlank cs := by
  induction h with
  | nil => rfl
  | blank hc _ ih => rw [runs_cons_blank hc, ih]
  | @word word cs words hne hword hcs _ ih =>
      cases cs with
      | nil =>
          rw [List.append_nil, runs_of_free hword hne, ih]
          rfl
      | cons c cs =>
          have hc : isBlank c = true := hcs c rfl
          rw [runs_append_separator hword hne hc, ih, runs_cons_blank hc]

/-- A run in front of a blank is a word, unless it is empty. -/
theorem DividesInto.consRun {run rest : List Char} {others : List (List Char)}
    (hrun : ∀ c ∈ run, isBlank c = false) (hrest : ∀ c ∈ rest.head?, isBlank c = true)
    (h : DividesInto rest others) : DividesInto (run ++ rest) (consRun run others) := by
  cases run with
  | nil => exact h
  | cons c run => exact .word (by simp) hrun hrest h

theorem dividesInto_behind_firstRun (cs : List Char) :
    ∃ rest, cs = (firstRun isBlank cs).1 ++ rest ∧ (∀ c ∈ rest.head?, isBlank c = true) ∧
      DividesInto rest (firstRun isBlank cs).2 := by
  induction cs with
  | nil => exact ⟨[], rfl, by simp, .nil⟩
  | cons c cs ih =>
      obtain ⟨rest, hrest, hhead, hdivides⟩ := ih
      cases hc : isBlank c with
      | false =>
          refine ⟨rest, ?_, hhead, ?_⟩
          · simp only [firstRun, hc, Bool.false_eq_true, if_false, List.cons_append, ← hrest]
          · simpa [firstRun, hc] using hdivides
      | true =>
          -- The run before the blank is empty, and the one behind it joins the others.
          have hbehind := DividesInto.consRun (free_firstRun isBlank cs).1 hhead hdivides
          rw [← hrest] at hbehind
          refine ⟨c :: cs, by simp [firstRun, hc], by simpa using hc, ?_⟩
          simpa only [firstRun, hc, if_true] using hbehind.blank hc

/-- The runs between blanks are the words that characters divide into, and there is no other way to
divide them. -/
theorem dividesInto_iff (cs : List Char) (words : List (List Char)) :
    DividesInto cs words ↔ words = runs isBlank cs := by
  constructor
  · exact DividesInto.eq_runs
  · rintro rfl
    obtain ⟨rest, hrest, hhead, hdivides⟩ := dividesInto_behind_firstRun cs
    have hwhole := DividesInto.consRun (free_firstRun isBlank cs).1 hhead hdivides
    rwa [← hrest] at hwhole

/-! ### Flattening -/

theorem toList_flatten (text : String) :
    (flatten text).toList = [' '].intercalate (runs isBlank text.toList) := by
  have hspace : " ".toList = [' '] := rfl
  rw [flatten, words, String.toList_intercalate, List.map_map, hspace]
  simp [Function.comp_def]

/-- A flattened text has the words of the text. -/
theorem runs_flatten (text : String) :
    runs isBlank (flatten text).toList = runs isBlank text.toList := by
  rw [toList_flatten]
  exact runs_intercalate (by decide) fun _ hrun => of_mem_runs hrun

theorem flatten_flatten (text : String) : flatten (flatten text) = flatten text := by
  rw [← String.toList_inj, toList_flatten, runs_flatten, toList_flatten]

/-- The characters at which a text can be divided into lines. -/
def isTerminator (c : Char) : Bool :=
  [0x0a, 0x0b, 0x0c, 0x0d, 0x1c, 0x1d, 0x1e, 0x85, 0x2028, 0x2029].contains c.toNat

theorem isBlank_of_isTerminator {c : Char} (h : isTerminator c = true) :
    isBlank c = true ∧ c ≠ ' ' := by
  constructor
  · simp only [isTerminator, List.contains_iff_mem, List.mem_cons, List.not_mem_nil, or_false] at h
    simp only [isBlank, Bool.or_eq_true, Bool.and_eq_true, decide_eq_true_eq, beq_iff_eq]
    omega
  · rintro rfl
    revert h
    decide

theorem isTerminator_of_mem_flatten {text : String} {c : Char} (h : c ∈ (flatten text).toList) :
    isTerminator c = false := by
  rw [← Bool.not_eq_true]
  intro hterminator
  obtain ⟨hblank, hspace⟩ := isBlank_of_isTerminator hterminator
  rcases of_mem_flatten h with hc | ⟨-, hc⟩
  · exact hspace hc
  · rw [hblank] at hc
    cases hc

/-! ### Lines of docstrings -/

theorem escaped_docChar (c : Char) : Escaped (docChar c) := by
  unfold docChar
  split_ifs with hescape hquote
  · exact .escape _ .nil
  · exact .escape _ .nil
  · exact .plain (by simp [isMark, hescape, hquote]) .nil

theorem unescape?_docChar (c : Char) (cs : List Char) :
    unescape? (docChar c ++ cs) = (unescape? cs).map (c :: ·) := by
  unfold docChar
  split_ifs with hescape hquote
  · rw [hescape]
    exact unescape?_escape rfl cs
  · rw [hquote]
    exact unescape?_escape rfl cs
  · exact unescape?_cons hescape cs

theorem unescape?_flatMap_docChar (cs : List Char) :
    unescape? (cs.flatMap docChar) = some cs := by
  induction cs with
  | nil => rfl
  | cons c cs ih => rw [List.flatMap_cons, unescape?_docChar, ih, Option.map_some]

theorem mem_docChar_of_isMark {c d : Char} (hd : isMark d = false) : d ∈ docChar c ↔ d = c := by
  obtain ⟨hquote, hescape⟩ := ne_of_isMark_eq_false hd
  unfold docChar
  split_ifs with hc hc'
  · simp [hescape, hc]
  · simp [hescape, hquote, hc']
  · simp

/-- Escaping takes away no character that is neither quote nor backslash. -/
theorem mem_flatMap_docChar {c : Char} (hc : isMark c = false) (cs : List Char) :
    c ∈ cs.flatMap docChar ↔ c ∈ cs := by
  simp [List.mem_flatMap, mem_docChar_of_isMark hc]

/-- Flattening takes away blanks only. -/
theorem mem_flatten_of_isBlank {c : Char} (hc : isBlank c = false) (text : String) :
    c ∈ (flatten text).toList ↔ c ∈ text.toList := by
  have hfilter := congrArg List.flatten (runs_flatten text)
  rw [flatten_runs, flatten_runs] at hfilter
  have hmem := congrArg (c ∈ ·) hfilter
  simpa [hc] using hmem

/-- Between the quotes of a docstring a line denotes the flattened text, unless the text has the null
character. -/
theorem readLiteral?_docLine (text : String) (rest : List Char) :
    readLiteral? ((tripleQuote ++ docLine text ++ tripleQuote).toList ++ rest) =
      if null ∈ text.toList then none else some ((flatten text).toList, rest) := by
  have hquotes : tripleQuote.toList = ['"', '"', '"'] := rfl
  have hescaped : Escaped ((flatten text).toList.flatMap docChar) := .flatMap escaped_docChar _
  have hend := hescaped.upToQuotes?_append ['"', '"'] rest
  have hnull : null ∈ (flatten text).toList.flatMap docChar ↔ null ∈ text.toList := by
    rw [mem_flatMap_docChar (by decide), mem_flatten_of_isBlank (by decide)]
  rw [String.toList_append, String.toList_append, docLine, String.toList_ofList, hquotes,
    List.append_assoc, List.append_assoc, readLiteral?, dropOpening?_append]
  simp only [hend, Option.bind_some, unescape?_flatMap_docChar, Option.map_some, hnull]

/-- One line for a docstring or a comment denotes the words of the text, with a space between
neighbours. A docstring with that line ends with its own quotes and is read so, exactly if the text
does not have the null character. A comment holds the line as it is. The line of a comment does not
end before its last character, and to flatten it again changes nothing. -/
theorem lines_denote_words (text : Option String) :
    ∃ words, (∀ pieces, DividesInto (text.getD "").toList pieces ↔ pieces = words) ∧
      (∀ rest, readLiteral? ((tripleQuote ++ docLine? text ++ tripleQuote).toList ++ rest) =
        if null ∈ (text.getD "").toList then none else some ([' '].intercalate words, rest)) ∧
      (commentLine (text.getD "")).toList = [' '].intercalate words ∧
      (∀ c ∈ (commentLine (text.getD "")).toList, isTerminator c = false) ∧
      commentLine (commentLine (text.getD "")) = commentLine (text.getD "") := by
  refine ⟨runs isBlank (text.getD "").toList, dividesInto_iff _, ?_, toList_flatten _,
    fun c => isTerminator_of_mem_flatten, flatten_flatten _⟩
  intro rest
  rw [docLine?, readLiteral?_docLine, toList_flatten]

/-- The null character is a part of a word, and stands in the docstring as it is. -/
theorem null_in_docstring :
    DividesInto ['a', null, 'b'] [['a', null, 'b']] ∧
      docLine (String.ofList ['a', null, 'b']) = String.ofList ['a', null, 'b'] ∧
      readLiteral? (tripleQuote ++ docLine (String.ofList ['a', null, 'b']) ++
        tripleQuote).toList = none := by
  have hwords := (dividesInto_iff ['a', null, 'b'] [['a', null, 'b']]).2 (by decide)
  exact ⟨hwords, by decide, by decide +kernel⟩

end Groundplan.Text
