import Groundplan.Proofs.NameSpelling
import Groundplan.Source.Module
import Groundplan.Text.Quoted
import Groundplan.TypeExpr
import Mathlib.Data.List.Basic

/-!
# Reading generated source

What a generated module offers is told by its text: by the lines that open a function or a class,
by the lines that follow a mark, by the items between two brackets. This module defines readers for
these, which know nothing of how the text was made, and shows that they find again what was put in:
the lines of a text are the lines it was joined from if none of them breaks, and a name is read as
it was written if it has only the characters of names.
-/

namespace Groundplan.Source

/-! ### Beginnings -/

/-- What is left of a text behind a given beginning. -/
def after? (opening text : String) : Option String :=
  (TypeExpr.dropOpening? opening.toList text.toList).map String.ofList

/-- Whether a text has a given beginning. -/
def begins (opening text : String) : Bool :=
  (after? opening text).isSome

/-- The part of a text before the first occurrence of a character. -/
def upTo (stop : Char) (text : String) : String :=
  String.ofList (text.toList.takeWhile (· ≠ stop))

/-- What stands between a given beginning of a text and the next occurrence of a character. -/
def between? (opening : String) (stop : Char) (text : String) : Option String :=
  (after? opening text).map (upTo stop)

theorem dropOpening?_append (opening cs : List Char) :
    TypeExpr.dropOpening? opening (opening ++ cs) = some cs := by
  induction opening with
  | nil => rfl
  | cons o opening ih => simpa [TypeExpr.dropOpening?] using ih

theorem after?_append (opening text : String) : after? opening (opening ++ text) = some text := by
  rw [after?, String.toList_append, dropOpening?_append, Option.map_some, String.ofList_toList]

theorem begins_append (mark rest : String) : begins mark (mark ++ rest) = true := by
  rw [begins, after?_append, Option.isSome_some]

theorem dropOpening?_append_append (opening cs cs' : List Char) :
    TypeExpr.dropOpening? (opening ++ cs) (opening ++ cs') = TypeExpr.dropOpening? cs cs' := by
  induction opening with
  | nil => rfl
  | cons o opening ih => simpa [TypeExpr.dropOpening?] using ih

theorem after?_append_append (opening mark line : String) :
    after? (opening ++ mark) (opening ++ line) = after? mark line := by
  simp [after?, dropOpening?_append_append]

theorem begins_append_append (opening mark line : String) :
    begins (opening ++ mark) (opening ++ line) = begins mark line := by
  rw [begins, after?_append_append, begins]

/-- A line that starts with another character than the mark is not marked. -/
theorem begins_eq_false {mark line : String} {c : Char} (hmark : mark.toList.head? = some c)
    (hline : line.toList.head? ≠ some c) : begins mark line = false := by
  obtain ⟨cs, hcs⟩ := List.head?_eq_some_iff.1 hmark
  rw [begins, after?, hcs]
  cases hchars : line.toList with
  | nil => rfl
  | cons c' cs' =>
      have hne : c ≠ c' := fun heq => hline (by rw [hchars, heq]; rfl)
      simp [TypeExpr.dropOpening?, hne]

theorem begins_ofList {mark cs : List Char} (h : TypeExpr.dropOpening? mark cs = none) :
    begins (String.ofList mark) (String.ofList cs) = false := by
  rw [begins, after?, String.toList_ofList, String.toList_ofList, h]
  rfl

/-- A name between a beginning and a character that it does not have is read as it is. -/
theorem between?_eq {opening name text : String} {stop : Char} (rest : String)
    (htext : text = opening ++ (name ++ rest)) (hstop : rest.toList.head? = some stop)
    (hfree : stop ∉ name.toList) : between? opening stop text = some name := by
  have hname : ∀ c ∈ name.toList, decide (c ≠ stop) = true := by
    intro c hc
    exact decide_eq_true fun heq => hfree (heq ▸ hc)
  have hrest : rest.toList.takeWhile (· ≠ stop) = [] := by
    obtain ⟨cs, hcs⟩ := List.head?_eq_some_iff.1 hstop
    simp [hcs]
  rw [htext, between?, after?_append, Option.map_some, upTo, String.toList_append,
    List.takeWhile_append_of_pos hname, hrest, List.append_nil, String.ofList_toList]

theorem between?_eq_none {opening text : String} (h : begins opening text = false) (stop : Char) :
    between? opening stop text = none := by
  rw [begins, Option.isSome_eq_false_iff, Option.isNone_iff_eq_none] at h
  rw [between?, h, Option.map_none]

theorem findSome?_between?_cons {opening line : String} (h : begins opening line = false)
    (stop : Char) (lines : List String) :
    (line :: lines).findSome? (between? opening stop) =
      lines.findSome? (between? opening stop) := by
  rw [List.findSome?_cons, between?_eq_none h]

/-- Reading what was written for each of many things gives one reading for each. -/
theorem filterMap_map_eq_map {α β γ : Type} {write : α → β} {read : β → Option γ} {value : α → γ}
    {as : List α} (h : ∀ a ∈ as, read (write a) = some (value a)) :
    (as.map write).filterMap read = as.map value := by
  rw [List.filterMap_map, ← List.filterMap_eq_map]
  exact List.filterMap_congr h

/-! ### Lines -/

/-- The lines of a text. -/
def linesOf (text : String) : List String :=
  (text.toList.splitOn '\n').map String.ofList

/-- Whether a text has no line break. -/
def OneLine (text : String) : Prop :=
  '\n' ∉ text.toList

instance : DecidablePred OneLine := fun _ => inferInstanceAs (Decidable (_ ∉ _))

theorem OneLine.append {text text' : String} (h : OneLine text) (h' : OneLine text') :
    OneLine (text ++ text') := by
  simp only [OneLine, String.toList_append, List.mem_append, not_or]
  exact ⟨h, h'⟩

theorem OneLine.intercalate {separator : String} (hseparator : OneLine separator)
    {texts : List String} (h : ∀ text ∈ texts, OneLine text) :
    OneLine (separator.intercalate texts) := by
  intro hbreak
  rcases Text.of_mem_toList_intercalate hbreak with hbreak | ⟨text, htext, hbreak⟩
  · exact hseparator hbreak
  · exact h text htext hbreak

/-- Literals are lists of characters; this is cheaper to check than their encoding. -/
theorem oneLine_ofList {cs : List Char} (h : '\n' ∉ cs) : OneLine (String.ofList cs) := by
  rw [OneLine, String.toList_ofList]
  exact h

theorem joinLines_singleton (line : String) : joinLines [line] = line := by
  rw [joinLines, String.intercalate_singleton]

theorem linesOf_of_oneLine {line : String} (h : OneLine line) : linesOf line = [line] := by
  rw [linesOf, List.splitOn_eq_singleton h, List.map_singleton, String.ofList_toList]

theorem linesOf_cons {first : String} (hfirst : OneLine first) {lines : List String}
    (hne : lines ≠ []) :
    linesOf (joinLines (first :: lines)) = first :: linesOf (joinLines lines) := by
  have hjoined : (joinLines (first :: lines)).toList =
      first.toList ++ '\n' :: (joinLines lines).toList := by
    rw [joinLines, String.intercalate_cons_of_ne_nil hne]
    simp [joinLines]
  rw [linesOf, hjoined, List.splitOn_append_cons_self_of_not_mem hfirst, List.map_cons,
    String.ofList_toList, linesOf]

/-- The lines of a text are those it was joined from, if none of them breaks. -/
theorem linesOf_joinLines {lines : List String} (hne : lines ≠ [])
    (h : ∀ line ∈ lines, OneLine line) : linesOf (joinLines lines) = lines := by
  induction lines with
  | nil => exact absurd rfl hne
  | cons first lines ih =>
      have hfirst := h first (by simp)
      cases lines with
      | nil => simpa [joinLines] using linesOf_of_oneLine hfirst
      | cons next lines =>
          rw [linesOf_cons hfirst (by simp), ih (by simp) fun line hmem => h line (by simp [hmem])]

/-- A text of lines starts with the first of them. -/
theorem joinLines_eq_append (first : String) (lines : List String) :
    ∃ rest, joinLines (first :: lines) = first ++ rest := by
  unfold joinLines
  cases lines with
  | nil => exact ⟨"", by simp⟩
  | cons line lines =>
      rw [String.intercalate_cons_cons, String.append_assoc]
      exact ⟨_, rfl⟩

theorem begins_joinLines {mark first : String} (rest : String) (hfirst : first = mark ++ rest)
    (lines : List String) : begins mark (joinLines (first :: lines)) = true := by
  obtain ⟨below, hbelow⟩ := joinLines_eq_append first lines
  rw [hbelow, hfirst, String.append_assoc]
  exact begins_append _ _

theorem begins_joinLines_eq_false {mark first : String} {c : Char}
    (hmark : mark.toList.head? = some c) (hfirst : first.toList.head? ≠ some c) (hne : first ≠ "")
    (lines : List String) : begins mark (joinLines (first :: lines)) = false := by
  obtain ⟨below, hbelow⟩ := joinLines_eq_append first lines
  refine begins_eq_false hmark ?_
  obtain ⟨c', cs, hcs⟩ := List.exists_cons_of_ne_nil (mt String.toList_eq_nil_iff.1 hne)
  rw [hbelow, String.toList_append, hcs, List.cons_append]
  rwa [hcs] at hfirst

theorem padding_one : padding 1 = "    " := by decide

theorem indentBy_cons {line : String} (h : line ≠ "") (level : Nat) (lines : List String) :
    indentBy level (line :: lines) = (padding level ++ line) :: indentBy level lines := by
  simp [indentBy, h]

theorem indent_cons {line : String} (h : line ≠ "") (lines : List String) :
    indent (line :: lines) = (padding 1 ++ line) :: indent lines :=
  indentBy_cons h 1 lines

theorem indentBy_append (level : Nat) (lines lines' : List String) :
    indentBy level (lines ++ lines') = indentBy level lines ++ indentBy level lines' :=
  List.map_append

theorem indent_append (lines lines' : List String) :
    indent (lines ++ lines') = indent lines ++ indent lines' :=
  indentBy_append 1 lines lines'

theorem oneLine_indent {lines : List String} (h : ∀ line ∈ lines, OneLine line) :
    ∀ line ∈ indent lines, OneLine line := by
  intro line hmem
  obtain ⟨inner, hinner, rfl⟩ := List.mem_map.1 hmem
  split
  · decide
  · exact .append (by decide) (h inner hinner)

theorem oneLine_docstring {summary : String} {body : List String} (hsummary : OneLine summary)
    (hbody : ∀ line ∈ body, OneLine line) : ∀ line ∈ docstring summary body, OneLine line := by
  have hquote : OneLine tripleQuote := oneLine_ofList (by decide)
  intro line hmem
  unfold docstring at hmem
  split at hmem
  · rw [List.mem_singleton.1 hmem]
    exact (hquote.append hsummary).append hquote
  · simp only [List.cons_append, List.nil_append, List.mem_cons, List.mem_append,
      List.not_mem_nil, or_false] at hmem
    rcases hmem with rfl | rfl | hmem | rfl
    · exact hquote.append hsummary
    · decide
    · exact hbody line hmem
    · exact hquote

theorem of_mem_paragraphs {groups : List (List String)} {line : String}
    (h : line ∈ paragraphs groups) : line = "" ∨ ∃ group ∈ groups, line ∈ group := by
  rcases Text.of_mem_intercalate h with hempty | ⟨group, hgroup, hmem⟩
  · exact .inl (List.mem_singleton.1 hempty)
  · exact .inr ⟨group, (List.mem_filter.1 hgroup).1, hmem⟩

theorem of_mem_spaced {line : String} {lines : List String} (h : line ∈ spaced lines) :
    line = "" ∨ line ∈ lines := by
  cases lines with
  | nil => exact .inr h
  | cons first lines => exact List.mem_cons.1 h

theorem mem_spaced_of_mem {line : String} {lines : List String} (h : line ∈ lines) :
    line ∈ spaced lines := by
  cases lines with
  | nil => exact h
  | cons first lines => exact List.mem_cons_of_mem _ h

/-- The lines of a block are its first line and its indented body. -/
theorem linesOf_block {first : String} {body : List String} (hfirst : OneLine first)
    (hbody : ∀ line ∈ body, OneLine line) :
    linesOf (block first body) = first :: indent body := by
  refine linesOf_joinLines (by simp) ?_
  intro line hmem
  rcases List.mem_cons.1 hmem with rfl | hmem
  · exact hfirst
  · exact oneLine_indent hbody line hmem

/-- A line of the body of a block is a line of the block, moved to the right. -/
theorem mem_linesOf_block {first : String} {body : List String} (hfirst : OneLine first)
    (hbody : ∀ line ∈ body, OneLine line) {line : String} (h : line ∈ body) (hne : line ≠ "") :
    padding 1 ++ line ∈ linesOf (block first body) := by
  rw [linesOf_block hfirst hbody]
  refine List.mem_cons_of_mem _ (List.mem_map.2 ⟨line, h, ?_⟩)
  simp [hne]

/-! ### Names and texts in lines -/

theorem stop_not_mem {name : String} (h : Name.IsPlain name) {stop : Char}
    (hstop : Name.isNameChar stop = false) : stop ∉ name.toList := by
  intro hmem
  rw [h stop hmem] at hstop
  cases hstop

theorem oneLine_of_isPlain {text : String} (h : Name.IsPlain text) : OneLine text := by
  intro hmem
  exact absurd (h '\n' hmem) (by decide)

theorem literalChar_of_isNameChar {c : Char} (h : Name.isNameChar c = true) :
    Text.literalChar c = [c] :=
  Name.of_ascii (fun c => Name.isNameChar c = true → Text.literalChar c = [c]) (by decide)
    (Name.toNat_lt_of_isNameChar h) h

theorem flatMap_literalChar {cs : List Char} (h : ∀ c ∈ cs, Name.isNameChar c = true) :
    cs.flatMap Text.literalChar = cs := by
  induction cs with
  | nil => rfl
  | cons c cs ih =>
      rw [List.flatMap_cons, literalChar_of_isNameChar (h c (by simp)),
        ih fun c hc => h c (by simp [hc])]
      rfl

/-- The literal of a name is the name in quotes. -/
theorem literal_eq_of_isPlain {text : String} (h : Name.IsPlain text) :
    Text.literal text = "\"" ++ (text ++ "\"") := by
  rw [← String.toList_inj, Text.literal, String.toList_ofList, Text.literalChars,
    flatMap_literalChar h]
  simp

theorem oneLine_flatten (text : String) : OneLine (Text.flatten text) := by
  refine .intercalate (by decide) ?_
  intro word hmem
  obtain ⟨run, hrun, rfl⟩ := List.mem_map.1 hmem
  intro hbreak
  rw [String.toList_ofList] at hbreak
  exact absurd ((Text.of_mem_runs hrun).2 _ hbreak) (by decide)

theorem oneLine_docLine (text : String) : OneLine (Text.docLine text) := by
  intro hbreak
  rw [Text.docLine, String.toList_ofList] at hbreak
  obtain ⟨c, hc, hbreak⟩ := List.mem_flatMap.1 hbreak
  have hself : c = '\n' := by
    unfold Text.docChar at hbreak
    split at hbreak
    · exact absurd hbreak (by decide)
    · split at hbreak
      · exact absurd hbreak (by decide)
      · exact (List.mem_singleton.1 hbreak).symm
  exact oneLine_flatten text (hself ▸ hc)

theorem oneLine_docLineOr {text : Option String} {fallback : String} (h : OneLine fallback) :
    OneLine (Text.docLineOr text fallback) := by
  unfold Text.docLineOr
  split
  · exact h
  · exact oneLine_docLine _

/-! ### Marked lines -/

/-- What is read from the lines below each line that has a given beginning. -/
def readBelow {α : Type} (mark : String) (read : List String → Option α) : List String → List α
  | [] => []
  | line :: lines =>
    if begins mark line then (read lines).toList ++ readBelow mark read lines
    else readBelow mark read lines

theorem readBelow_append {α : Type} {mark : String} (read : List String → Option α)
    {lines : List String} (h : ∀ line ∈ lines, begins mark line = false) (rest : List String) :
    readBelow mark read (lines ++ rest) = readBelow mark read rest := by
  induction lines with
  | nil => rfl
  | cons line lines ih =>
      have hline : begins mark line = false := h line (by simp)
      simp only [List.cons_append, readBelow, hline, Bool.false_eq_true, if_false]
      exact ih fun line hmem => h line (by simp [hmem])

theorem readBelow_eq_nil {α : Type} {mark : String} (read : List String → Option α)
    {lines : List String} (h : ∀ line ∈ lines, begins mark line = false) :
    readBelow mark read lines = [] := by
  have hlines := readBelow_append read h []
  rwa [List.append_nil] at hlines

/-! ### Items -/

/-- The items of a text that are separated by commas, without the blanks before them. -/
def items (text : String) : List String :=
  (text.toList.splitOn ',').map fun piece => String.ofList (piece.dropWhile (· = ' '))

theorem items_blank_append (text : String) : items (" " ++ text) = items text := by
  have hblank : (" " ++ text).toList = ' ' :: text.toList := by simp
  rw [items, items, hblank, List.splitOn_cons_eq_if_modifyHead]
  obtain ⟨piece, pieces, hpieces⟩ :=
    List.exists_cons_of_ne_nil (List.splitOn_ne_nil ',' text.toList)
  simp [hpieces]

theorem items_of_free {text : String} (hcomma : ',' ∉ text.toList)
    (hblank : text.toList.head? ≠ some ' ') : items text = [text] := by
  have hdrop : text.toList.dropWhile (· = ' ') = text.toList := by
    cases hchars : text.toList with
    | nil => rfl
    | cons c cs =>
        have hc : c ≠ ' ' := fun heq => hblank (by rw [hchars, heq]; rfl)
        simp [hc]
  rw [items, List.splitOn_eq_singleton hcomma, List.map_singleton, hdrop, String.ofList_toList]

theorem items_append {text : String} (hcomma : ',' ∉ text.toList)
    (hblank : text.toList.head? ≠ some ' ') (rest : String) :
    items (text ++ ("," ++ rest)) = text :: items rest := by
  have hjoined : (text ++ ("," ++ rest)).toList = text.toList ++ ',' :: rest.toList := by simp
  have hfirst := items_of_free hcomma hblank
  rw [items, List.splitOn_eq_singleton hcomma] at hfirst
  rw [items, hjoined, List.splitOn_append_cons_self_of_not_mem hcomma, List.map_cons]
  exact congrArg₂ List.cons (List.singleton_inj.1 hfirst) rfl

/-- Items without commas, and with no blank in front, are read from the text that lists them. -/
theorem items_intercalate {texts : List String} (hne : texts ≠ [])
    (h : ∀ text ∈ texts, ',' ∉ text.toList ∧ text.toList.head? ≠ some ' ') :
    items (", ".intercalate texts) = texts := by
  induction texts with
  | nil => exact absurd rfl hne
  | cons text texts ih =>
      obtain ⟨hcomma, hblank⟩ := h text (by simp)
      cases texts with
      | nil => simpa using items_of_free hcomma hblank
      | cons next texts =>
          have hrest := ih (by simp) fun text hmem => h text (by simp [hmem])
          have hjoined : ", ".intercalate (text :: next :: texts) =
              text ++ ("," ++ (" " ++ ", ".intercalate (next :: texts))) := by
            rw [String.intercalate_cons_cons, ← String.toList_inj]
            simp
          rw [hjoined, items_append hcomma hblank, items_blank_append, hrest]

/-- A list in brackets is read item by item. -/
theorem items_between? (opening : String) {texts : List String} (hne : texts ≠ [])
    (h : ∀ text ∈ texts, ∀ stop ∈ [',', ' ', ']'], stop ∉ text.toList) :
    ∃ text, between? opening ']' (opening ++ (", ".intercalate texts ++ "]")) = some text ∧
      items text = texts := by
  have hbracket : ']' ∉ (", ".intercalate texts).toList := by
    intro hmem
    rcases Text.of_mem_toList_intercalate hmem with hmem | ⟨text, htext, hmem⟩
    · exact absurd hmem (by decide)
    · exact h text htext ']' (by simp) hmem
  refine ⟨_, between?_eq "]" rfl (by simp) hbracket, items_intercalate hne ?_⟩
  intro text htext
  exact ⟨h text htext ',' (by simp), fun hhead =>
    h text htext ' ' (by simp) (List.mem_of_mem_head? hhead)⟩

/-! ### Blocks -/

/-- The name of the class that a block defines. -/
def className? (block : String) : Option String :=
  between? "class " '(' block

/-- A class is known by the name behind its keyword. -/
theorem className?_joinLines {name : String} (hname : Name.IsPlain name) {first : String}
    (rest : String) (hfirst : first = "class " ++ (name ++ ("(" ++ rest))) (lines : List String) :
    className? (joinLines (first :: lines)) = some name := by
  obtain ⟨below, hbelow⟩ := joinLines_eq_append first lines
  have hstop : '(' ∉ name.toList := stop_not_mem hname (by decide)
  refine between?_eq ("(" ++ rest ++ below) ?_ (by simp) hstop
  rw [hbelow, hfirst]
  simp only [String.append_assoc]

end Groundplan.Source
