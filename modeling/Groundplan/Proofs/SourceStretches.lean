import Groundplan.Proofs.ClosedExpressions
import Groundplan.Proofs.SourceScan

/-!
# Stretches of source

Generated source is made of stretches that each come to one line of code: a line, a comment, a
docstring, or several lines in brackets. A stretch is *sound* if a scan that starts in front of it
gives its code and its docstring, and is in code behind it again. Sound stretches can be put one
below the other: the lines of code and the docstrings of a module are those of its stretches.

A run of code is read piece by piece. Texts that are fixed are scanned; between them there are
inline texts, whatever they are.
-/

namespace Groundplan

namespace Source

/-! ### Lines -/

/-- Lines with a line feed behind each of them. -/
def terminated (lines : List String) : List Char :=
  lines.flatMap fun line => line.toList ++ ['\n']

theorem terminated_append (lines lines' : List String) :
    terminated (lines ++ lines') = terminated lines ++ terminated lines' :=
  List.flatMap_append

theorem terminated_cons (line : String) (lines : List String) :
    terminated (line :: lines) = line.toList ++ '\n' :: terminated lines := by
  simp [terminated]

theorem toList_joinLines {lines : List String} (hne : lines ≠ []) :
    (joinLines lines).toList ++ ['\n'] = terminated lines := by
  induction lines with
  | nil => exact absurd rfl hne
  | cons line lines ih =>
      cases lines with
      | nil => simp [joinLines, terminated]
      | cons next lines =>
          rw [terminated_cons, ← ih (by simp)]
          simp [joinLines, String.intercalate_cons_cons]

theorem linesOf_terminated {lines : List String} (h : ∀ line ∈ lines, OneLine line) :
    linesOf (String.ofList (terminated lines)) = lines ++ [""] := by
  have hlines : String.ofList (terminated lines) = joinLines (lines ++ [""]) := by
    cases lines with
    | nil => decide
    | cons line lines =>
        rw [← toList_joinLines (by simp), joinLines_append (by simp) (by simp),
          ← String.toList_inj, String.toList_ofList]
        simp [joinLines]
  rw [hlines, linesOf_joinLines (by simp)]
  intro line hline
  rcases List.mem_append.1 hline with hline | hline
  · exact h line hline
  · rw [List.mem_singleton.1 hline]
    decide

/-! ### Runs of code -/

/-- Whether lines come to one line of code, the first of them being the rest of a line at whose
place some brackets are open. -/
def Run (awaited : List Char) (lines : List String) (code : String) : Prop :=
  OneLine code ∧ Reads ⟨awaited, .code⟩ (terminated lines) .start (code.toList ++ ['\n'])

theorem run_end : Run [] [""] "" :=
  ⟨by decide, reads_break⟩

section

variable {awaited awaited' : List Char} {rest code : String} {lines : List String}

theorem Run.fixed {cs : List Char} (h : Run awaited' (rest :: lines) code)
    (hend : codeEnd? ⟨awaited, .code⟩ cs = some ⟨awaited', .code⟩) :
    Run awaited ((String.ofList cs ++ rest) :: lines) (String.ofList cs ++ code) := by
  obtain ⟨hline, hreads⟩ := of_codeEnd?_eq_some hend
  refine ⟨(oneLine_of_unbroken (Text.free_ofList hline)).append h.1, ?_⟩
  have hall := hreads.append h.2
  simpa [terminated_cons] using hall

/-- A fixed text up to the end of a line within brackets. -/
theorem Run.fixedLine {cs : List Char} (h : Run awaited' lines code)
    (hend : codeEnd? ⟨awaited, .code⟩ cs = some ⟨awaited', .code⟩) (hopen : awaited' ≠ []) :
    Run awaited (String.ofList cs :: lines) (String.ofList cs ++ code) := by
  obtain ⟨hline, hreads⟩ := of_codeEnd?_eq_some hend
  refine ⟨(oneLine_of_unbroken (Text.free_ofList hline)).append h.1, ?_⟩
  have hall := hreads.append (h.2.inside hopen)
  simpa [terminated_cons] using hall

theorem Run.text {text : String} (h : Run awaited (rest :: lines) code) (htext : Inline text)
    (hclear : Clear (rest.toList ++ ['\n'])) :
    Run awaited ((text ++ rest) :: lines) (text ++ code) := by
  refine ⟨htext.1.append h.1, ?_⟩
  have hrest := h.2
  rw [terminated_cons] at hrest ⊢
  have hclear' : Clear (rest.toList ++ '\n' :: terminated lines) := by
    have hall := hclear.append (terminated lines)
    simpa using hall
  have hall := htext.reads hclear' hrest
  simpa using hall

theorem clear_ofList {c : Char} {cs : List Char} (hc : isQuote c = false) :
    Clear ((String.ofList (c :: cs) ++ rest).toList ++ ['\n']) := by
  rw [String.toList_append, String.toList_ofList]
  exact clear_cons hc _

end

theorem free_isLexical_padding (level : Nat) : Text.Free isLexical (padding level) := by
  refine Text.free_ofList ?_
  rw [List.any_replicate]
  split <;> decide

theorem run_inline {text : String} (h : Inline text) : Run [] [text] text := by
  have hrun := run_end.text h (clear_cons (c := '\n') rfl [])
  simpa using hrun

/-- A fixed text that ends a line, and the run with it. -/
theorem run_fixed {awaited cs : List Char} (h : codeEnd? ⟨awaited, .code⟩ cs = some .start) :
    Run awaited [String.ofList cs] (String.ofList cs) := by
  have hrun := run_end.fixed h
  simpa using hrun

/-- Lines within brackets. -/
theorem Run.inner {awaited : List Char} {lines : List String} {code : String}
    (h : Run awaited lines code) (hopen : awaited ≠ []) {texts : List String}
    (htexts : ∀ text ∈ texts, Inline text) :
    Run awaited (texts ++ lines) (String.join texts ++ code) := by
  induction texts with
  | nil => simpa using h
  | cons text texts ih =>
      obtain ⟨htext, htexts⟩ := List.forall_mem_cons.1 htexts
      obtain ⟨hline, hreads⟩ := ih htexts
      rw [List.cons_append, String.join_cons, String.append_assoc]
      refine ⟨htext.1.append hline, ?_⟩
      have hall := htext.reads (clear_cons rfl _) (hreads.inside hopen)
      simpa [terminated_cons] using hall

/-- A run stays one where it is moved to the right. -/
theorem Run.indent {text : String} (h : Run [] [text] text) (level : Nat) :
    Run [] [padding level ++ text] (padding level ++ text) := by
  have hpadding := free_isLexical_padding level
  refine ⟨(oneLine_of_free hpadding).append h.1, ?_⟩
  have hall := (reads_of_free hpadding []).append h.2
  simpa [terminated] using hall

theorem Docstring.terminated_lines (d : Docstring) :
    terminated d.lines = (padding d.level).toList ++
      ((tripleQuote ++ d.content ++ tripleQuote).toList ++ ['\n']) := by
  have hne : d.lines ≠ [] := by
    unfold Docstring.lines indentBy docstring
    split <;> simp
  rw [← toList_joinLines hne, d.joinLines_lines]
  simp

/-! ### Stretches -/

/-- Lines of source, the line of code that they come to, and the contents of the long strings in
them. -/
structure Stretch where
  source : List String
  code : String
  strings : List String

namespace Stretch

/-- A line of code. -/
def line (text : String) : Stretch :=
  ⟨[text], text, []⟩

/-- Lines in brackets, which come to one line of code. -/
def joined (lines : List String) : Stretch :=
  ⟨lines, String.join lines, []⟩

/-- A comment at the end of a line. -/
def remark (before text : String) : Stretch :=
  ⟨[before ++ text], before, []⟩

/-- A docstring. -/
def doc (d : Docstring) : Stretch :=
  ⟨d.lines, padding d.level ++ "\"\"", [d.content]⟩

@[simp] theorem source_doc (d : Docstring) : (doc d).source = d.lines :=
  rfl

/-- Whether a scan gives the code and the strings of a stretch. -/
def Sound (s : Stretch) : Prop :=
  OneLine s.code ∧ ∃ pieces, path .start (terminated s.source) = some (.start, pieces) ∧
    codeChars pieces = s.code.toList ++ ['\n'] ∧ contents pieces = s.strings

theorem sound_of_run {lines : List String} {code : String} (h : Run [] lines code) :
    (Stretch.mk lines code []).Sound :=
  ⟨h.1, _, h.2, codeChars_map_code _, contents_map_code _⟩

theorem sound_line {text : String} (h : Run [] [text] text) : (line text).Sound :=
  sound_of_run h

theorem sound_fixed {cs : List Char} (h : codeEnd? .start cs = some .start) :
    (line (String.ofList cs)).Sound :=
  sound_line (run_fixed h)

theorem sound_remark {before text : String} (hbefore : Text.Free isLexical before)
    (hmark : text.toList.head? = some '#') (hline : Unbroken text) :
    (remark before text).Sound := by
  refine ⟨oneLine_of_free hbefore, before.toList.map .code ++ [.code '\n'], ?_, ?_, ?_⟩
  · obtain ⟨cs, hcs⟩ := List.head?_eq_some_iff.1 hmark
    have hbreak : cs.any isBreak = false := by
      unfold Unbroken Text.Free at hline
      rw [hcs, List.any_cons, Bool.or_eq_false_iff] at hline
      exact hline.2
    have hstart : Reads .start ['#'] ⟨[], .comment⟩ [] := rfl
    have hend : Reads ⟨[], .comment⟩ ['\n'] .start ['\n'] := rfl
    have hall := (reads_of_free hbefore []).append
      (hstart.append ((reads_comment hbreak []).append hend))
    have hchars : terminated [before ++ text] = before.toList ++ (['#'] ++ (cs ++ ['\n'])) := by
      simp [terminated, hcs]
    show path .start (terminated [before ++ text]) = _
    rw [hchars]
    simpa [Reads, Place.start] using hall
  · simp [remark, codeChars]
  · simp [remark, contents]

theorem sound_doc {d : Docstring} (h : Inert d.content) : (doc d).Sound := by
  have hpadding := reads_of_free (free_isLexical_padding d.level) []
  refine ⟨(oneLine_of_free (free_isLexical_padding d.level)).append (by decide),
    (padding d.level).toList.map .code ++ ([.code '"', .code '"', .string d.content.toList] ++
      [.code '\n']), ?_, ?_, ?_⟩
  · have hbreak : path ⟨[], .code⟩ ['\n'] = some (.start, [.code '\n']) := rfl
    rw [source_doc, d.terminated_lines, Place.start, path_append hpadding,
      path_append (path_docstring h []), hbreak]
    rfl
  · simp [doc, codeChars]
  · simp [doc, contents]

/-- Lines of code, moved to the right. -/
def lines (level : Nat) (texts : List String) : List Stretch :=
  (indentBy level texts).map line

@[simp] theorem flatMap_source_lines (level : Nat) (texts : List String) :
    (lines level texts).flatMap source = indentBy level texts := by
  rw [lines, List.flatMap_map]
  exact List.flatMap_singleton' _

@[simp] theorem flatMap_strings_lines (level : Nat) (texts : List String) :
    (lines level texts).flatMap strings = [] := by
  rw [lines, List.flatMap_map]
  exact List.flatMap_eq_nil_iff.2 fun _ _ => rfl

@[simp] theorem map_code_lines (level : Nat) (texts : List String) :
    (lines level texts).map code = indentBy level texts := by
  rw [lines, List.map_map]
  exact List.map_id _

theorem sound_lines {texts : List String} (h : ∀ text ∈ texts, Run [] [text] text) (level : Nat) :
    ∀ s ∈ lines level texts, s.Sound := by
  intro s hs
  obtain ⟨indented, hindented, rfl⟩ := List.mem_map.1 hs
  obtain ⟨text, htext, rfl⟩ := List.mem_map.1 hindented
  split
  · exact sound_line run_end
  · exact sound_line ((h text htext).indent level)

/-- Stretches below an empty line, if there are any. -/
def spaced : List Stretch → List Stretch
  | [] => []
  | stretches => line "" :: stretches

theorem sound_spaced {stretches : List Stretch} (h : ∀ s ∈ stretches, s.Sound) :
    ∀ s ∈ spaced stretches, s.Sound := by
  cases stretches with
  | nil => exact h
  | cons s stretches => exact List.forall_mem_cons.2 ⟨sound_line run_end, h⟩

theorem flatMap_source_spaced {stretches : List Stretch} {level : Nat} {texts : List String}
    (h : stretches.flatMap source = indentBy level texts)
    (hsource : ∀ s ∈ stretches, s.source ≠ []) :
    (spaced stretches).flatMap source = indentBy level (Source.spaced texts) := by
  cases texts with
  | nil =>
      -- Every stretch has a line, so that without lines there is no stretch.
      have hnone : stretches = [] := by
        refine List.eq_nil_iff_forall_not_mem.2 fun s hs => hsource s hs ?_
        exact List.flatMap_eq_nil_iff.1 h s hs
      rw [hnone]
      rfl
  | cons text texts =>
      cases stretches with
      | nil => cases h
      | cons s stretches =>
          show (line "" :: s :: stretches).flatMap source = _
          rw [List.flatMap_cons, h]
          rfl

@[simp] theorem flatMap_strings_spaced (stretches : List Stretch) :
    (spaced stretches).flatMap strings = stretches.flatMap strings := by
  cases stretches <;> rfl

/-- Comments on lines of their own, moved to the right. -/
def remarks (level : Nat) (texts : List String) : List Stretch :=
  texts.map (remark (padding level))

theorem flatMap_source_remarks {texts : List String}
    (h : ∀ text ∈ texts, text.toList.head? = some '#') (level : Nat) :
    (remarks level texts).flatMap source = indentBy level texts := by
  rw [remarks, List.flatMap_map, indentBy, List.map_eq_flatMap]
  refine List.flatMap_congr fun text htext => ?_
  have hne : text ≠ "" := by
    rintro rfl
    cases h "" htext
  simp [remark, hne]

@[simp] theorem flatMap_strings_remarks (level : Nat) (texts : List String) :
    (remarks level texts).flatMap strings = [] := by
  rw [remarks, List.flatMap_map]
  exact List.flatMap_eq_nil_iff.2 fun _ _ => rfl

theorem sound_remarks {texts : List String}
    (h : ∀ text ∈ texts, text.toList.head? = some '#' ∧ Unbroken text) (level : Nat) :
    ∀ s ∈ remarks level texts, s.Sound := by
  intro s hs
  obtain ⟨text, htext, rfl⟩ := List.mem_map.1 hs
  obtain ⟨hmark, hline⟩ := h text htext
  exact sound_remark (free_isLexical_padding level) hmark hline

/-- A line of code below a comment, if there is one. -/
def commented (level : Nat) (comment : Option String) (text : String) : List Stretch :=
  (comment.map fun comment => remark (padding level) ("# " ++ comment)).toList ++
    [line (padding level ++ text)]

theorem flatMap_source_commented (level : Nat) (comment : Option String) {text : String}
    (hne : text ≠ "") :
    (commented level comment text).flatMap source =
      indentBy level ((comment.map fun comment => "# " ++ comment).toList ++ [text]) := by
  cases comment <;> simp [commented, indentBy, hne, remark, line]

@[simp] theorem flatMap_strings_commented (level : Nat) (comment : Option String) (text : String) :
    (commented level comment text).flatMap strings = [] := by
  cases comment <;> rfl

theorem source_ne_nil_of_mem_commented {level : Nat} {comment : Option String} {text : String}
    {s : Stretch} (h : s ∈ commented level comment text) : s.source ≠ [] := by
  simp only [commented, List.mem_append, Option.mem_toList, Option.map_eq_some_iff,
    List.mem_singleton] at h
  rcases h with ⟨comment, -, rfl⟩ | rfl <;> simp [remark, line]

theorem sound_commented {comment : Option String} (hcomment : ∀ text ∈ comment, Unbroken text)
    {text : String} (htext : Run [] [text] text) (level : Nat) :
    ∀ s ∈ commented level comment text, s.Sound := by
  intro s hs
  simp only [commented, List.mem_append, Option.mem_toList, Option.map_eq_some_iff,
    List.mem_singleton] at hs
  rcases hs with ⟨comment, hsome, rfl⟩ | rfl
  · refine sound_remark (free_isLexical_padding level) ?_
      (Text.Free.append (by decide) (hcomment comment hsome))
    rw [String.toList_append]
    rfl
  · exact sound_line (htext.indent level)

/-- Sound stretches are scanned one after the other. -/
theorem path_flatMap {stretches : List Stretch} (h : ∀ s ∈ stretches, s.Sound) :
    ∃ pieces, path .start (terminated (stretches.flatMap source)) = some (.start, pieces) ∧
      codeChars pieces = terminated (stretches.map code) ∧
      contents pieces = stretches.flatMap strings := by
  induction stretches with
  | nil => exact ⟨[], rfl, rfl, rfl⟩
  | cons s stretches ih =>
      obtain ⟨⟨-, first, hpath, hcode, hstrings⟩, hrest⟩ := List.forall_mem_cons.1 h
      obtain ⟨later, hpath', hcode', hstrings'⟩ := ih hrest
      refine ⟨first ++ later, ?_, ?_, ?_⟩
      · rw [List.flatMap_cons, terminated_append, path_append hpath, hpath']
        rfl
      · rw [codeChars_append, hcode, hcode', List.map_cons, terminated_cons]
        simp
      · rw [contents_append, hstrings, hstrings', List.flatMap_cons]

/-- If the long strings are those of the stretches, then every docstring among these is inert,
although it need not be sound. -/
theorem inert_of_contents {stretches : List Stretch}
    (h : ∀ s ∈ stretches, s.Sound ∨ ∃ d, s = doc d) {q : Place} {pieces : List Piece}
    (hpath : path .start (terminated (stretches.flatMap source)) = some (q, pieces))
    (hcontents : contents pieces = stretches.flatMap strings) :
    ∀ d, doc d ∈ stretches → Inert d.content := by
  induction stretches generalizing pieces with
  | nil => simp
  | cons s stretches ih =>
      obtain ⟨hs, hrest⟩ := List.forall_mem_cons.1 h
      rw [List.flatMap_cons, terminated_append] at hpath
      -- The content of a docstring at the head is the first of the strings.
      have hinert : ∀ d, s = doc d → Inert d.content := by
        rintro d rfl
        have hpadding := reads_of_free (free_isLexical_padding d.level) []
        rw [source_doc, d.terminated_lines, List.append_assoc, List.append_assoc, Place.start,
          path_append hpadding, Option.map_eq_some_iff] at hpath
        obtain ⟨⟨last, later⟩, hlater, heq⟩ := hpath
        cases heq
        have hfirst : contents later = d.content :: stretches.flatMap strings := by
          simpa [doc] using hcontents
        exact Source.inert_of_contents hlater hfirst
      -- With that, the scan goes on behind a docstring as behind any other stretch.
      have hsound : s.Sound := by
        rcases hs with hs | ⟨d, rfl⟩
        · exact hs
        · exact sound_doc (hinert d rfl)
      obtain ⟨-, first, hfirst, -, hstrings⟩ := hsound
      rw [path_append hfirst, Option.map_eq_some_iff] at hpath
      obtain ⟨⟨last, later⟩, hlater, heq⟩ := hpath
      cases heq
      have hothers : contents later = stretches.flatMap strings := by
        simpa [hstrings] using hcontents
      intro d hd
      rcases List.mem_cons.1 hd with rfl | hd
      · exact hinert d rfl
      · exact ih hrest hlater hothers d hd

theorem sound_doc_iff (d : Docstring) : (doc d).Sound ↔ Inert d.content := by
  refine ⟨fun h => ?_, sound_doc⟩
  obtain ⟨-, pieces, hpath, -, hstrings⟩ := h
  rw [← List.flatMap_singleton source] at hpath
  rw [← List.flatMap_singleton strings] at hstrings
  exact inert_of_contents (fun s hs => .inr ⟨d, List.mem_singleton.1 hs⟩) hpath hstrings d
    List.mem_cons_self

end Stretch

/-! ### Modules -/

theorem flatMap_intercalate {α β : Type} (f : α → List β) (separator : List α)
    (groups : List (List α)) :
    (separator.intercalate groups).flatMap f =
      (separator.flatMap f).intercalate (groups.map fun group => group.flatMap f) := by
  induction groups with
  | nil => rfl
  | cons group groups ih =>
      cases groups with
      | nil => simp
      | cons next groups =>
          rw [List.intercalate_cons_cons, List.flatMap_append, List.flatMap_append, ih]
          simp [List.intercalate_cons_cons]

theorem nil_intercalate {α : Type} (groups : List (List α)) :
    ([] : List α).intercalate groups = groups.flatten := by
  induction groups with
  | nil => rfl
  | cons group groups ih =>
      cases groups with
      | nil => simp
      | cons next groups =>
          rw [List.intercalate_cons_cons, ih]
          simp

/-- Whether there are lines and the last of them ends with something but a line feed. -/
def Solid (lines : List String) : Prop :=
  lines ≠ [] ∧ ∃ c, (joinLines lines).toList.getLast? = some c ∧ c ≠ '\n'

theorem Solid.append {lines : List String} (h : Solid lines) (above : List String) :
    Solid (above ++ lines) := by
  obtain ⟨hne, c, hlast, hc⟩ := h
  refine ⟨by simp [hne], c, ?_, hc⟩
  by_cases habove : above = []
  · rw [habove, List.nil_append, hlast]
  · rw [joinLines_append habove hne, String.toList_append, List.getLast?_append, hlast]
    rfl

theorem solid_singleton {line : String} (hne : line ≠ "") (hone : OneLine line) :
    Solid [line] := by
  have hchars : line.toList ≠ [] := mt String.toList_eq_nil_iff.1 hne
  refine ⟨by simp, line.toList.getLast hchars, ?_, ?_⟩
  · rw [joinLines_singleton, List.getLast?_eq_some_getLast hchars]
  · intro heq
    exact hone (heq ▸ List.getLast_mem hchars)

theorem Docstring.solid_lines (d : Docstring) : Solid d.lines := by
  refine ⟨?_, '"', ?_, by decide⟩
  · unfold Docstring.lines indentBy docstring
    split <;> simp
  · have hquotes : tripleQuote.toList.getLast? = some '"' := rfl
    rw [d.joinLines_lines, String.toList_append, List.getLast?_append, hquotes]
    rfl

theorem trimNewlines_eq {text : String} {c : Char} (hlast : text.toList.getLast? = some c)
    (hc : c ≠ '\n') : trimNewlines text = text := by
  have hreverse : text.toList.reverse.head? = some c := by
    rw [List.head?_reverse, hlast]
  obtain ⟨cs, hcs⟩ := List.head?_eq_some_iff.1 hreverse
  rw [trimNewlines, hcs, List.dropWhile_cons_of_neg (by simpa using hc), ← hcs,
    List.reverse_reverse, String.ofList_toList]

theorem toList_intercalate_joinLines {groups : List (List String)} (hne : groups ≠ [])
    (h : ∀ lines ∈ groups, lines ≠ []) :
    ("\n\n\n".intercalate (groups.map joinLines)).toList ++ ['\n'] =
      terminated (["", ""].intercalate groups) := by
  induction groups with
  | nil => exact absurd rfl hne
  | cons lines groups ih =>
      obtain ⟨hlines, hgroups⟩ := List.forall_mem_cons.1 h
      cases groups with
      | nil => simpa using toList_joinLines hlines
      | cons next groups =>
          rw [List.intercalate_cons_cons, terminated_append, terminated_append,
            ← ih (by simp) hgroups, ← toList_joinLines hlines]
          simp [String.intercalate_cons_cons, terminated]

/-- Groups of lines as blocks, with two empty lines between neighbours. -/
theorem toList_joinBlocks {groups : List (List String)} (hne : groups ≠ [])
    (h : ∀ lines ∈ groups, Solid lines) :
    (joinBlocks (groups.map joinLines)).toList = terminated (["", ""].intercalate groups) := by
  -- No block is left out or cut at its end, because its last line is not empty.
  have hblock : ∀ block ∈ groups.map joinLines,
      (!block.isEmpty) = true ∧ trimNewlines block = block := by
    intro block hblock
    obtain ⟨lines, hlines, rfl⟩ := List.mem_map.1 hblock
    obtain ⟨-, c, hlast, hc⟩ := h lines hlines
    refine ⟨?_, trimNewlines_eq hlast hc⟩
    rw [Bool.not_eq_true', Bool.eq_false_iff, ne_eq, String.isEmpty_iff]
    intro hempty
    rw [hempty] at hlast
    cases hlast
  have hkept : ((groups.map joinLines).filter fun block => !block.isEmpty).map trimNewlines =
      groups.map joinLines := by
    rw [List.filter_eq_self.2 fun block hmem => (hblock block hmem).1]
    exact (List.map_congr_left fun block hmem => (hblock block hmem).2).trans (List.map_id' _)
  rw [joinBlocks, hkept, String.toList_append,
    ← toList_intercalate_joinLines hne fun lines hlines => (h lines hlines).1]
  rfl

/-- Parts of a module with two empty lines between neighbours. -/
def laidOut (parts : List (List Stretch)) : List Stretch :=
  [Stretch.line "", Stretch.line ""].intercalate parts

/-- The source of a part. -/
def partText (part : List Stretch) : String :=
  joinLines (part.flatMap Stretch.source)

/-- Whether a part is a block of sound stretches. -/
def IsPart (part : List Stretch) : Prop :=
  Solid (part.flatMap Stretch.source) ∧ ∀ s ∈ part, s.Sound

theorem isPart_line {text : String} (h : Run [] [text] text) (hne : text ≠ "") :
    IsPart [Stretch.line text] :=
  ⟨solid_singleton hne h.1, List.forall_mem_singleton.2 (Stretch.sound_line h)⟩

theorem isPart_joined {above : List String} {last : String}
    (h : Run [] (above ++ [last]) (String.join (above ++ [last]))) (hne : last ≠ "")
    (hlast : OneLine last) : IsPart [Stretch.joined (above ++ [last])] := by
  refine ⟨?_, List.forall_mem_singleton.2 (Stretch.sound_of_run h)⟩
  rw [List.flatMap_singleton]
  exact (solid_singleton hne hlast).append above

theorem isPart_doc {d : Docstring} (h : Inert d.content) : IsPart [Stretch.doc d] := by
  refine ⟨?_, List.forall_mem_singleton.2 (Stretch.sound_doc h)⟩
  rw [List.flatMap_singleton]
  exact d.solid_lines

theorem IsPart.prepend {part before : List Stretch} (h : IsPart part)
    (hbefore : ∀ s ∈ before, s.Sound) : IsPart (before ++ part) := by
  refine ⟨?_, List.forall_mem_append.2 ⟨hbefore, h.2⟩⟩
  rw [List.flatMap_append]
  exact h.1.append _

/-- Whether stretches can follow a part. -/
def Follows (part : List Stretch) : Prop :=
  part = [] ∨ IsPart part

theorem IsPart.append {part part' : List Stretch} (h : IsPart part) (h' : Follows part') :
    IsPart (part ++ part') := by
  rcases h' with rfl | h'
  · rwa [List.append_nil]
  · exact h'.prepend h.2

theorem Follows.sound {part : List Stretch} (h : Follows part) : ∀ s ∈ part, s.Sound := by
  rcases h with rfl | h
  · simp
  · exact h.2

theorem follows_flatMap {α : Type} {f : α → List Stretch} {as : List α}
    (h : ∀ a ∈ as, IsPart (f a)) : Follows (as.flatMap f) := by
  induction as with
  | nil => exact .inl rfl
  | cons a as ih =>
      obtain ⟨ha, has⟩ := List.forall_mem_cons.1 h
      exact .inr (ha.append (ih has))

theorem Follows.spaced {part : List Stretch} (h : Follows part) :
    Follows (Stretch.spaced part) := by
  rcases h with rfl | h
  · exact .inl rfl
  · obtain ⟨s, part, rfl⟩ : ∃ s rest, part = s :: rest :=
      List.exists_cons_of_ne_nil fun hnil => h.1.1 (by rw [hnil]; rfl)
    exact .inr (h.prepend (List.forall_mem_singleton.2 (Stretch.sound_line run_end)))

theorem IsPart.intercalate {parts : List (List Stretch)} (hne : parts ≠ [])
    (h : ∀ part ∈ parts, IsPart part) : IsPart ([Stretch.line ""].intercalate parts) := by
  induction parts with
  | nil => exact absurd rfl hne
  | cons part parts ih =>
      obtain ⟨hpart, hparts⟩ := List.forall_mem_cons.1 h
      cases parts with
      | nil => simpa using hpart
      | cons next parts =>
          rw [List.intercalate_cons_cons]
          refine (ih (by simp) hparts).prepend (List.forall_mem_append.2 ⟨hpart.2, ?_⟩)
          exact List.forall_mem_singleton.2 (Stretch.sound_line run_end)

theorem isPart_commented {comment : Option String} (hcomment : ∀ text ∈ comment, Unbroken text)
    {text : String} (htext : Run [] [text] text) (hne : text ≠ "") (level : Nat) :
    IsPart (Stretch.commented level comment text) := by
  refine ⟨?_, Stretch.sound_commented hcomment htext level⟩
  rw [Stretch.commented, List.flatMap_append]
  have hline := htext.indent level
  exact (solid_singleton (by simp [hne]) hline.1).append _

theorem of_mem_laidOut {parts : List (List Stretch)} {s : Stretch} (h : s ∈ laidOut parts) :
    s = .line "" ∨ ∃ part ∈ parts, s ∈ part := by
  rcases Text.of_mem_intercalate h with hs | hs
  · simp only [List.mem_cons, List.not_mem_nil, or_false, or_self] at hs
    exact .inl hs
  · exact .inr hs

theorem mem_laidOut {parts : List (List Stretch)} {part : List Stretch} (hpart : part ∈ parts)
    {s : Stretch} (hs : s ∈ part) : s ∈ laidOut parts := by
  unfold laidOut
  induction parts with
  | nil => cases hpart
  | cons first parts ih =>
      cases parts with
      | nil =>
          rw [List.mem_singleton.1 hpart] at hs
          simpa using hs
      | cons next parts =>
          rw [List.intercalate_cons_cons, List.mem_append, List.mem_append]
          rcases List.mem_cons.1 hpart with rfl | hpart
          · exact .inl (.inl hs)
          · exact .inr (ih hpart)

theorem laidOut_append {parts parts' : List (List Stretch)} (h : parts ≠ []) (h' : parts' ≠ []) :
    laidOut (parts ++ parts') = laidOut parts ++ ([.line "", .line ""] ++ laidOut parts') := by
  unfold laidOut
  induction parts with
  | nil => exact absurd rfl h
  | cons part parts ih =>
      cases parts with
      | nil =>
          obtain ⟨next, rest, rfl⟩ := List.exists_cons_of_ne_nil h'
          simp [List.intercalate_cons_cons]
      | cons next parts =>
          rw [List.cons_append, List.cons_append, List.intercalate_cons_cons, ← List.cons_append,
            ih (by simp), List.intercalate_cons_cons]
          simp only [List.append_assoc]

@[simp] theorem laidOut_singleton (part : List Stretch) : laidOut [part] = part :=
  List.intercalate_singleton

theorem sound_laidOut {parts : List (List Stretch)} (h : ∀ part ∈ parts, IsPart part) :
    ∀ s ∈ laidOut parts, s.Sound := by
  intro s hs
  rcases of_mem_laidOut hs with rfl | ⟨part, hpart, hs⟩
  · exact Stretch.sound_line run_end
  · exact (h part hpart).2 s hs

/-- The texts that the line of an import is made of. -/
def Import.words : Import → List String
  | .only source names => source :: names
  | .everything source => [source]

/-- The stretch of an import. -/
def Import.stretch : Import → Stretch
  | .only source names => .line (Import.line (.only source names))
  | .everything source => .remark ("from " ++ source ++ " import *  ") "# noqa: F401,F403"

/-- The part of a module that its imports make. -/
def importPart (groups : List (List Import)) : List Stretch :=
  [Stretch.line ""].intercalate (groups.map fun group => group.map Import.stretch)

theorem Import.isPart_stretch {i : Import} (h : ∀ word ∈ i.words, Text.Free isLexical word) :
    IsPart [i.stretch] := by
  cases i with
  | only source names =>
      obtain ⟨hsource, hnames⟩ := List.forall_mem_cons.1 h
      refine isPart_line (run_inline (inline_of_free ?_)) (by simp [Import.line])
      exact ((Text.Free.append (Text.free_ofList rfl) hsource).append (Text.free_ofList rfl)).append
        (Text.free_intercalate (Text.free_ofList rfl) hnames)
  | everything source =>
      have hsource := h source (List.mem_singleton.2 rfl)
      have hbefore : Text.Free isLexical ("from " ++ source ++ " import *  ") :=
        (Text.Free.append (Text.free_ofList rfl) hsource).append (Text.free_ofList rfl)
      refine ⟨?_, List.forall_mem_singleton.2 (Stretch.sound_remark hbefore (by simp)
        (Text.free_ofList rfl))⟩
      exact solid_singleton (by simp)
        ((oneLine_of_free hbefore).append (oneLine_ofList (by decide)))

theorem partText_importPart (groups : List (List Import)) :
    partText (importPart groups) = joinLines (importLines groups) := by
  have hline (i : Import) : i.stretch.source = [i.line] := by
    cases i with
    | only source names => rfl
    | everything source =>
        simp only [Import.stretch, Stretch.remark, Import.line, String.append_assoc]
        rfl
  have hgroups : (groups.map fun group => (group.map Import.stretch).flatMap Stretch.source) =
      groups.map fun group => group.map Import.line := by
    refine List.map_congr_left fun group _ => ?_
    rw [List.flatMap_map, List.map_eq_flatMap]
    simp only [hline]
  rw [partText, importPart, flatMap_intercalate, List.map_map, importLines]
  exact congrArg (fun lines => joinLines ([""].intercalate lines)) hgroups

theorem isPart_importPart {groups : List (List Import)} (hne : groups ≠ [])
    (h : ∀ group ∈ groups, group ≠ [] ∧
      ∀ i ∈ group, ∀ word ∈ i.words, Text.Free isLexical word) :
    IsPart (importPart groups) := by
  refine IsPart.intercalate (by simpa using hne) fun part hpart => ?_
  obtain ⟨group, hgroup, rfl⟩ := List.mem_map.1 hpart
  obtain ⟨hgroupNe, hwords⟩ := h group hgroup
  have hfollows : Follows (group.flatMap fun i => [i.stretch]) :=
    follows_flatMap fun i hi => Import.isPart_stretch (hwords i hi)
  rw [← List.map_eq_flatMap] at hfollows
  rcases hfollows with hempty | hpart
  · exact absurd (List.map_eq_nil_iff.1 hempty) hgroupNe
  · exact hpart

namespace SourceModule

/-- The docstring of a module. -/
def docstring (m : SourceModule) : Docstring :=
  ⟨0, m.title, ["Generated by StormForge from the domain model. Regeneration",
    "overwrites this file."]⟩

theorem lines_docstring (m : SourceModule) : m.docstring.lines = m.header := by
  rw [Docstring.lines, docstring, indentBy_zero]
  rfl

theorem inert_docstring {m : SourceModule} (h : Inert m.title) : Inert m.docstring.content := by
  refine Docstring.inert_content h ?_
  exact List.forall_mem_cons.2 ⟨inert_ofList rfl, List.forall_mem_singleton.2 (inert_ofList rfl)⟩

/-- Whether a module is made of some parts, the first two of which are its docstring and its
imports. -/
def MadeOf (m : SourceModule) (parts : List (List Stretch)) : Prop :=
  joinLines m.header :: joinLines (importLines m.imports) :: m.blocks = parts.map partText ∧
    ∀ part ∈ parts, IsPart part

variable {m : SourceModule} {parts : List (List Stretch)}

/-- The parts of a module whose blocks are made of some parts. -/
def allParts (m : SourceModule) (parts : List (List Stretch)) : List (List Stretch) :=
  [.doc m.docstring] :: importPart m.imports :: parts

theorem map_partText_allParts (hblocks : parts.map partText = m.blocks) :
    (m.allParts parts).map partText =
      joinLines m.header :: joinLines (importLines m.imports) :: m.blocks := by
  have hheader : partText [.doc m.docstring] = joinLines m.header := by
    rw [partText, List.flatMap_singleton, ← lines_docstring]
    rfl
  rw [allParts, List.map_cons, List.map_cons, hheader, partText_importPart, hblocks]

theorem madeOf_allParts (htitle : Inert m.title) (himports : IsPart (importPart m.imports))
    (hblocks : parts.map partText = m.blocks) (h : ∀ part ∈ parts, IsPart part) :
    m.MadeOf (m.allParts parts) :=
  ⟨(map_partText_allParts hblocks).symm, List.forall_mem_cons.2
    ⟨isPart_doc (inert_docstring htitle), List.forall_mem_cons.2 ⟨himports, h⟩⟩⟩

theorem flatMap_strings_importPart (groups : List (List Import)) :
    (importPart groups).flatMap Stretch.strings = [] := by
  refine List.flatMap_eq_nil_iff.2 fun s hs => ?_
  rcases Text.of_mem_intercalate hs with hs | ⟨part, hpart, hs⟩
  · rw [List.mem_singleton.1 hs]
    rfl
  · obtain ⟨group, -, rfl⟩ := List.mem_map.1 hpart
    obtain ⟨i, -, rfl⟩ := List.mem_map.1 hs
    cases i <;> rfl

theorem toList_text
    (hparts : joinLines m.header :: joinLines (importLines m.imports) :: m.blocks =
      parts.map partText)
    (h : ∀ part ∈ parts, Solid (part.flatMap Stretch.source)) :
    m.text.toList = terminated ((laidOut parts).flatMap Stretch.source) := by
  have hsolid : ∀ lines ∈ parts.map fun part => part.flatMap Stretch.source, Solid lines := by
    intro lines hlines
    obtain ⟨part, hpart, rfl⟩ := List.mem_map.1 hlines
    exact h part hpart
  have hne : (parts.map fun part => part.flatMap Stretch.source) ≠ [] := by
    intro hempty
    rw [List.map_eq_nil_iff.1 hempty] at hparts
    cases hparts
  have hblocks : parts.map partText =
      (parts.map fun part => part.flatMap Stretch.source).map joinLines := by
    rw [List.map_map]
    rfl
  rw [text, hparts, hblocks, toList_joinBlocks hne hsolid, laidOut, flatMap_intercalate]
  rfl

theorem flatMap_strings_laidOut (parts : List (List Stretch)) :
    (laidOut parts).flatMap Stretch.strings =
      parts.flatMap fun part => part.flatMap Stretch.strings := by
  have hnone : ([Stretch.line "", Stretch.line ""].flatMap Stretch.strings) = [] := rfl
  rw [laidOut, flatMap_intercalate, hnone, nil_intercalate, List.flatMap_def]

/-- A module that is made of parts is scanned part by part. -/
theorem MadeOf.scan?_text (h : m.MadeOf parts) :
    ∃ pieces, scan? m.text = some pieces ∧
      codeChars pieces = terminated ((laidOut parts).map Stretch.code) ∧
      contents pieces = parts.flatMap fun part => part.flatMap Stretch.strings := by
  obtain ⟨pieces, hpath, hcode, hstrings⟩ := Stretch.path_flatMap (sound_laidOut h.2)
  have htext := toList_text h.1 fun part hpart => (h.2 part hpart).1
  exact ⟨pieces, scan?_eq (htext ▸ hpath), hcode, by rw [hstrings, flatMap_strings_laidOut]⟩

theorem MadeOf.codeLines?_text (h : m.MadeOf parts) :
    codeLines? m.text = some ((laidOut parts).map Stretch.code ++ [""]) := by
  obtain ⟨pieces, hscan, hcode, -⟩ := h.scan?_text
  rw [codeLines?, hscan, Option.map_some, hcode, linesOf_terminated]
  intro line hline
  obtain ⟨s, hs, rfl⟩ := List.mem_map.1 hline
  exact (sound_laidOut h.2 s hs).1

theorem MadeOf.longStrings?_text (h : m.MadeOf parts) :
    longStrings? m.text = some (parts.flatMap fun part => part.flatMap Stretch.strings) := by
  obtain ⟨pieces, hscan, -, hstrings⟩ := h.scan?_text
  rw [longStrings?, hscan, Option.map_some, hstrings]

/-- A module whose last line leaves a string open has no end. -/
theorem scan?_text_eq_none {above : List Stretch} {line : String}
    (hparts : joinLines m.header :: joinLines (importLines m.imports) :: m.blocks =
      (parts ++ [above ++ [Stretch.line line]]).map partText)
    (hne : parts ≠ []) (h : ∀ part ∈ parts, IsPart part) (habove : ∀ s ∈ above, s.Sound)
    (hone : OneLine line) {q : Place} {pieces : List Piece}
    (hline : path .start (line.toList ++ ['\n']) = some (q, pieces)) (hopen : q.isEnd = false) :
    scan? m.text = none := by
  have hnonempty : line ≠ "" := by
    rintro rfl
    cases hline
    cases hopen
  have hlast : Solid ((above ++ [Stretch.line line]).flatMap Stretch.source) := by
    rw [List.flatMap_append]
    exact (solid_singleton hnonempty hone).append _
  have hsolid : ∀ part ∈ parts ++ [above ++ [Stretch.line line]],
      Solid (part.flatMap Stretch.source) :=
    List.forall_mem_append.2 ⟨fun part hpart => (h part hpart).1, List.forall_mem_singleton.2 hlast⟩
  have hbefore : ∀ s ∈ laidOut parts ++ ([Stretch.line "", Stretch.line ""] ++ above), s.Sound := by
    have hempty : (Stretch.line "").Sound := Stretch.sound_line run_end
    exact List.forall_mem_append.2 ⟨sound_laidOut h, List.forall_mem_append.2
      ⟨List.forall_mem_cons.2 ⟨hempty, List.forall_mem_singleton.2 hempty⟩, habove⟩⟩
  -- Up to the last line the scan is that of sound stretches.
  obtain ⟨first, hfirst, -, -⟩ := Stretch.path_flatMap hbefore
  have htext : m.text.toList = terminated
      ((laidOut parts ++ ([Stretch.line "", Stretch.line ""] ++ above)).flatMap Stretch.source) ++
        (line.toList ++ ['\n']) := by
    rw [toList_text hparts hsolid, laidOut_append hne (by simp), laidOut_singleton]
    simp [terminated, Stretch.line]
  rw [scan?, htext, path_append hfirst, hline]
  simp [hopen]

/-- Where every stretch but the docstrings is sound, the long strings are the docstrings exactly if
these are inert. -/
theorem longStrings?_text_iff
    (hparts : joinLines m.header :: joinLines (importLines m.imports) :: m.blocks =
      parts.map partText)
    (hsolid : ∀ part ∈ parts, Solid (part.flatMap Stretch.source))
    (h : ∀ part ∈ parts, ∀ s ∈ part, s.Sound ∨ ∃ d, s = .doc d) :
    longStrings? m.text = some (parts.flatMap fun part => part.flatMap Stretch.strings) ↔
      ∀ part ∈ parts, ∀ d, .doc d ∈ part → Inert d.content := by
  constructor
  · intro hstrings part hpart d hd
    obtain ⟨pieces, hscan, hcontents⟩ := Option.map_eq_some_iff.1 hstrings
    rw [scan?, Option.bind_eq_some_iff] at hscan
    obtain ⟨⟨place, found⟩, hpath, hend⟩ := hscan
    have hfound : found = pieces := by
      dsimp only at hend
      split_ifs at hend
      exact Option.some.inj hend
    rw [toList_text hparts hsolid] at hpath
    refine Stretch.inert_of_contents (fun s hs => ?_) hpath ?_ d (mem_laidOut hpart hd)
    · rcases of_mem_laidOut hs with rfl | ⟨part, hpart, hs⟩
      · exact .inl (Stretch.sound_line run_end)
      · exact h part hpart s hs
    · rw [hfound, hcontents, flatMap_strings_laidOut]
  · intro hinert
    refine MadeOf.longStrings?_text ⟨hparts, fun part hpart => ⟨hsolid part hpart, ?_⟩⟩
    intro s hs
    rcases h part hpart s hs with hs | ⟨d, rfl⟩
    · exact hs
    · exact Stretch.sound_doc (hinert part hpart d hs)

end SourceModule

/-! ### Declarations -/

theorem toNat_lt_of_isLexical {c : Char} (h : isLexical c = true) : c.toNat < 128 := by
  simp only [isLexical, isBreak, isQuote, isClosing, Bool.or_eq_true, decide_eq_true_eq] at h
  rcases h with ((((rfl | rfl) | rfl | rfl) | rfl | rfl) | (rfl | rfl) | rfl) | h
  iterate 9 decide
  unfold closing? at h
  split_ifs at h with hround hsquare hcurly
  · exact hround ▸ by decide
  · exact hsquare ▸ by decide
  · exact hcurly ▸ by decide
  · cases h

theorem free_of_all_isWordChar {text : String} (h : text.toList.all isWordChar = true) :
    Text.Free isLexical text := by
  have hascii : ∀ n < 128, isWordChar (Char.ofNat n) = true → isLexical (Char.ofNat n) = false := by
    decide
  -- A character of a word need not be in ASCII, but a lexical one is.
  refine Text.free_iff.2 fun c hc => Bool.eq_false_iff.2 fun hlexical => ?_
  have hword := List.all_eq_true.1 h c hc
  have hnot := Name.of_ascii (fun c => isWordChar c = true → isLexical c = false) hascii
    (toNat_lt_of_isLexical hlexical) hword
  exact Bool.eq_false_iff.1 hnot hlexical

theorem free_isLexical_of_isPlain {text : String} (h : Name.IsPlain text) :
    Text.Free isLexical text :=
  Text.free_iff.2 fun c hc =>
    Name.of_ascii (fun c => Name.isNameChar c = true → isLexical c = false) (by decide)
      (Name.toNat_lt_of_isNameChar (h c hc)) (h c hc)

theorem isLexical_of_isNumeric : ∀ n < 128, isNumeric (Char.ofNat n) = true →
    isLexical (Char.ofNat n) = false := by
  decide

/-- Whether the type and the name of a member are made of the characters of words. Nothing is asked
of other expressions. -/
def Expr.Worded (e : Expr) : Prop :=
  ∀ type name, e = .member type name →
    type.toList.all isWordChar = true ∧ name.toList.all isWordChar = true

theorem Expr.inline_render {e : Expr} (h : e.Worded) : Inline e.render := by
  cases e with
  | constant c => cases c <;> exact inline_ofList rfl
  | integer n =>
      exact inline_of_free (free_of_all_isNumeric isLexical_of_isNumeric (all_decimalInt n))
  | number x =>
      exact inline_of_free (free_of_all_isNumeric isLexical_of_isNumeric (all_numberText x))
  | text t => exact inline_literal t
  | decimal t =>
      exact (inline_literal t).enclose "Decimal" '(' (Text.free_ofList rfl) rfl rfl
        (by simp [Expr.render])
  | member type name =>
      obtain ⟨htype, hname⟩ := h type name rfl
      exact inline_of_free (((free_of_all_isWordChar htype).append (Text.free_ofList rfl)).append
        (free_of_all_isWordChar hname))

theorem Argument.inline_render {a : Argument} (h : a.All Expr.Worded) : Inline a.render := by
  obtain ⟨keyword, value⟩ := a
  cases keyword with
  | none => exact Expr.inline_render h.2
  | some keyword =>
      have hkeyword := free_of_all_isWordChar (h.1 keyword rfl).2
      exact inline_append_of_free (hkeyword.append (Text.free_ofList rfl)) (Expr.inline_render h.2)

theorem Initial.inline_render {i : Initial} (h : i.All Expr.Worded) : Inline i.render := by
  cases i with
  | none => exact inline_of_free rfl
  | value e => exact inline_append_of_free (Text.free_ofList rfl) (Expr.inline_render h)
  | call function arguments =>
      have harguments : Inline (", ".intercalate (arguments.map Argument.render)) := by
        refine Inline.listed fun text htext => ?_
        obtain ⟨a, ha, rfl⟩ := List.mem_map.1 htext
        exact Argument.inline_render (h.2 a ha)
      exact harguments.enclose (" = " ++ function) '('
        (Text.Free.append (Text.free_ofList rfl) (free_of_all_isWordChar h.1.2)) rfl rfl
        (by simp [Initial.render])

theorem Initial.clear_render (i : Initial) : i.render = "" ∨ Clear i.render.toList := by
  cases i with
  | none => exact .inl rfl
  | value e =>
      refine .inr ?_
      simp only [Initial.render, String.toList_append]
      exact clear_cons rfl _
  | call function arguments =>
      refine .inr ?_
      simp only [Initial.render, String.toList_append, List.append_assoc]
      exact clear_cons rfl _

namespace Declaration

variable {d : Declaration}

theorem inline_line (hname : IsWord d.name) (hhint : Inline d.hint)
    (hinitial : d.initial.All Expr.Worded) : Inline d.line := by
  have hbehind : Inline (d.hint ++ d.initial.render) :=
    hhint.append (Initial.inline_render hinitial) d.initial.clear_render
  unfold line
  rw [String.append_assoc]
  exact inline_append_of_free ((free_of_all_isWordChar hname.2).append (Text.free_ofList rfl))
    hbehind

/-- The stretches of a declaration: its comment, if any, and itself. -/
def stretches (level : Nat) (d : Declaration) : List Stretch :=
  Stretch.commented level d.comment d.line

theorem line_ne (d : Declaration) : d.line ≠ "" := by
  simp [line]

theorem flatMap_source_stretches (level : Nat) (d : Declaration) :
    (d.stretches level).flatMap Stretch.source = indentBy level d.lines := by
  have hlines : d.lines = (d.comment.map fun comment => "# " ++ comment).toList ++ [d.line] := by
    unfold lines
    cases d.comment <;> rfl
  rw [stretches, Stretch.flatMap_source_commented level d.comment d.line_ne, hlines]

theorem isPart_stretches (hcomment : ∀ comment ∈ d.comment, Unbroken comment)
    (hline : Inline d.line) (level : Nat) : IsPart (d.stretches level) :=
  isPart_commented hcomment (run_inline hline) d.line_ne level

end Declaration

/-! ### Types -/

theorem contained_around {inner : String} (h : Contained inner) (wrapper : Wrapper) :
    Contained (wrapper.around inner) := by
  have hwrapped (name : String) (hname : Text.Free isLexical name) :
      Contained (name ++ "[" ++ inner ++ "]") := by
    have hall := h.subscript hname
    rwa [← String.append_assoc, ← String.append_assoc] at hall
  cases wrapper with
  | list => exact hwrapped "list" (Text.free_ofList rfl)
  | vec => exact hwrapped "list" (Text.free_ofList rfl)
  | option => exact hwrapped "Optional" (Text.free_ofList rfl)
  | paged => exact hwrapped "PagedResult" (Text.free_ofList rfl)

theorem contained_optional {target : String} (h : Contained target) :
    Contained (TypeExpr.optional target) := by
  unfold TypeExpr.optional
  split
  · exact h
  · exact contained_around h .option

theorem contained_namedTarget {name : String} (h : Contained name) :
    Contained (TypeExpr.namedTarget name) := by
  have hmarks : ∀ mark ∈ TypeExpr.requestMarks, Text.Free isLexical mark := by decide
  unfold TypeExpr.namedTarget TypeExpr.typeName
  split
  · exact contained_of_free (free_isLexical_of_isPlain (Name.isPlain_pascal _))
  · cases hdrop : TypeExpr.dropRequestMark? name.toList with
    | none => rwa [Option.getD_none, String.ofList_toList]
    | some rest =>
        obtain ⟨-, mark, hmark, heq⟩ := TypeExpr.dropRequestMark?_eq_some hdrop
        have hname : name = mark ++ String.ofList rest := by
          rw [← String.toList_inj, String.toList_append, String.toList_ofList, heq]
        rw [hname] at h
        exact (contained_append_iff (hmarks mark hmark) _).1 h

/-- A target is contained if the leaf inside all wrappers has a contained target. -/
theorem contained_targetWith {named : String → String} {expr : TypeExpr}
    (h : TypeExpr.primitives.lookup expr.innermost = none → Contained (named expr.innermost)) :
    Contained (TypeExpr.targetWith named expr) := by
  have hprimitives : ∀ entry ∈ TypeExpr.primitives, Text.Free isLexical entry.2 := by decide
  induction expr with
  | leaf name =>
      rw [TypeExpr.targetWith]
      cases hlookup : TypeExpr.primitives.lookup name with
      | none => exact h hlookup
      | some target =>
          exact contained_of_free (hprimitives (name, target)
            ((Catalog.lookup_eq_some_iff_mem (by decide) name target).1 hlookup))
  | wrapped text wrapper inner ih => exact contained_around (ih h) wrapper

end Source

namespace Scope

open Source

variable {s : Scope} {p : Property}

/-- The target of a type is contained if the text is that it is made of. -/
theorem contained_target {text : String} (h : Contained (s.meaning text)) :
    Contained (s.target text) := by
  unfold meaning TypeExpr.meaning at h
  refine contained_targetWith fun hprimitive => ?_
  rw [hprimitive, Option.isSome_none, if_neg (by simp)] at h
  cases hlookup : s.aliases.entries.lookup (TypeExpr.parse text).innermost with
  | none =>
      simp only [hlookup] at h ⊢
      exact contained_namedTarget h
  | some other =>
      simp only [hlookup] at h ⊢
      exact contained_targetWith fun _ => contained_namedTarget h

theorem contained_hint (h : Contained (s.meaning p.typeText)) : Contained (s.hint p) := by
  unfold hint
  split
  · exact contained_target h
  · exact contained_optional (contained_target h)

theorem worded_initial (hnames : s.NamesWords) : (s.initial p).All Expr.Worded := by
  refine all_initial (fun e hplain type name hmember => absurd hmember (hplain type name)) ?_
  -- Only a value of an enumeration is kept as a member, and its name is spelled as a constant.
  rintro e hkept type name rfl
  obtain ⟨-, -, members, hget, -⟩ := of_fateOf_eq_member hkept
  obtain ⟨-, -, ⟨b, -, -, heq⟩ | ⟨n, -, -, heq⟩ | ⟨t, -, heq⟩ | ⟨t, -, -, heq⟩ | ⟨t, -, heq⟩⟩ :=
    fateOf_kept_cases hkept
  iterate 4 cases heq
  cases heq
  exact ⟨hnames _ members hget, (isWord_constant t).2⟩

theorem isPart_field (hnames : s.NamesWords) (hhint : Contained (s.hint p)) (level : Nat) :
    IsPart ((s.field p).stretches level) := by
  refine Declaration.isPart_stretches (fun comment => unbroken_of_comment) ?_ level
  have hname := isWord_member p.name
  have hinitial := worded_initial (p := p) hnames
  unfold field
  generalize Name.member p.name = name at hname ⊢
  exact Declaration.inline_line hname hhint.inline hinitial

end Scope

end Groundplan
