import Groundplan.Proofs.QuotedText
import Groundplan.Proofs.SourceReading

/-!
# Reading docstrings

A docstring ends at the first three quotes in a row of which none is escaped. Reading it character
by character, one has to remember only whether quotes or a backslash have just been read. A text is
*inert* if the docstring is still open behind it and nothing is to be remembered: then it does not
matter what follows. Escaped lines, spelled names and texts without quotes and backslashes are
inert.

A docstring is closed by its own quotes exactly if what stands between them is inert. Not to have an
unescaped triple quote is not enough for that: a backslash at the end would escape the first of the
closing quotes.
-/

namespace Groundplan.Source

/-! ### Reading -/

/-- What is to be remembered of a docstring: nothing, one or two quotes, or a backslash. -/
inductive Reading where
  | plain
  | quote
  | quotes
  | escape
  deriving DecidableEq, Repr

namespace Reading

/-- Reads a quote; the third in a row ends the docstring. -/
def onQuote : Reading → Option Reading
  | .plain => some .quote
  | .quote => some .quotes
  | .quotes => none
  | .escape => some .plain

/-- Reads a character of a docstring, unless it ends there. -/
def next (r : Reading) (c : Char) : Option Reading :=
  if r = .escape then some .plain
  else if c = '\\' then some .escape
  else if c = '"' then r.onQuote
  else some .plain

/-- Reads characters of a docstring, unless it ends within them. -/
def readOn (r : Reading) (cs : List Char) : Option Reading :=
  cs.foldlM next r

/-- What is behind the triple quote at which a docstring ends. -/
def behindQuotes? : Reading → List Char → Option (List Char)
  | _, [] => none
  | r, c :: cs =>
    match r.next c with
    | some r' => behindQuotes? r' cs
    | none => some cs

theorem readOn_cons (r : Reading) (c : Char) (cs : List Char) :
    r.readOn (c :: cs) = (r.next c).bind fun r' => r'.readOn cs :=
  rfl

theorem readOn_append (r : Reading) (cs ds : List Char) :
    r.readOn (cs ++ ds) = (r.readOn cs).bind fun r' => r'.readOn ds :=
  List.foldlM_append

/-- Where a docstring is still open, reading goes on with what is remembered. -/
theorem behindQuotes?_of_readOn_eq_some {r r' : Reading} {cs : List Char}
    (h : r.readOn cs = some r') (ds : List Char) :
    behindQuotes? r (cs ++ ds) = behindQuotes? r' ds := by
  induction cs generalizing r with
  | nil =>
      cases h
      rfl
  | cons c cs ih =>
      rw [readOn_cons, Option.bind_eq_some_iff] at h
      obtain ⟨next, hnext, hrest⟩ := h
      rw [List.cons_append, behindQuotes?, hnext]
      exact ih hrest

/-- Where a docstring has ended, what follows is behind it. -/
theorem behindQuotes?_of_readOn_eq_none {r : Reading} {cs : List Char} (h : r.readOn cs = none) :
    ∃ rest, ∀ ds, behindQuotes? r (cs ++ ds) = some (rest ++ ds) := by
  induction cs generalizing r with
  | nil => cases h
  | cons c cs ih =>
      rw [readOn_cons] at h
      cases hnext : r.next c with
      | none => exact ⟨cs, fun ds => by rw [List.cons_append, behindQuotes?, hnext]⟩
      | some r' =>
          rw [hnext] at h
          obtain ⟨rest, hrest⟩ := ih h
          exact ⟨rest, fun ds => by rw [List.cons_append, behindQuotes?, hnext]; exact hrest ds⟩

theorem behindQuotes?_eq_none_iff (r : Reading) (cs : List Char) :
    behindQuotes? r cs = none ↔ (r.readOn cs).isSome = true := by
  cases hread : r.readOn cs with
  | some r' =>
      have hopen := behindQuotes?_of_readOn_eq_some hread []
      rw [List.append_nil] at hopen
      simp [hopen, behindQuotes?]
  | none =>
      obtain ⟨rest, hrest⟩ := behindQuotes?_of_readOn_eq_none hread
      have hended := hrest []
      rw [List.append_nil] at hended
      simp [hended]

theorem length_behindQuotes?_lt {r : Reading} {cs rest : List Char}
    (h : behindQuotes? r cs = some rest) : rest.length < cs.length := by
  induction cs generalizing r with
  | nil => cases h
  | cons c cs ih =>
      rw [behindQuotes?] at h
      rw [List.length_cons]
      split at h
      · exact Nat.lt_succ_of_lt (ih h)
      · cases h
        exact Nat.lt_succ_self _

end Reading

open Reading

/-! ### Inert texts -/

/-- Whether a docstring is open behind a text, with nothing to be remembered. -/
def Inert (text : String) : Prop :=
  Reading.plain.readOn text.toList = some .plain

instance : DecidablePred Inert := fun _ => inferInstanceAs (Decidable (_ = some _))

/-- The characters that matter for where a docstring ends. -/
def isMark (c : Char) : Bool :=
  c = '"' || c = '\\'

theorem next_of_isMark_eq_false {c : Char} (h : isMark c = false) (r : Reading) :
    r.next c = some .plain := by
  simp only [isMark, Bool.or_eq_false_iff, decide_eq_false_iff_not] at h
  simp [next, h.1, h.2]

/-- Anything but a mark settles what was remembered. -/
theorem readOn_of_free {cs : List Char} (hne : cs ≠ []) (h : cs.any isMark = false) (r : Reading) :
    r.readOn cs = some .plain := by
  induction cs generalizing r with
  | nil => exact absurd rfl hne
  | cons c cs ih =>
      rw [List.any_cons, Bool.or_eq_false_iff] at h
      rw [readOn_cons, next_of_isMark_eq_false h.1, Option.bind_some]
      cases cs with
      | nil => rfl
      | cons d cs => exact ih (by simp) h.2 .plain

theorem readOn_plain_of_free {cs : List Char} (h : cs.any isMark = false) :
    Reading.plain.readOn cs = some .plain := by
  by_cases hne : cs = []
  · rw [hne]
    rfl
  · exact readOn_of_free hne h .plain

theorem isSome_readOn_of_free {cs : List Char} (h : cs.any isMark = false) (r : Reading) :
    (r.readOn cs).isSome = true := by
  by_cases hne : cs = []
  · rw [hne]
    rfl
  · rw [readOn_of_free hne h r]
    rfl

theorem inert_of_free {text : String} (h : Text.Free isMark text) : Inert text :=
  readOn_plain_of_free h

theorem inert_ofList {cs : List Char} (h : cs.any isMark = false) : Inert (String.ofList cs) :=
  inert_of_free (Text.free_ofList h)

theorem Inert.append {text text' : String} (h : Inert text) (h' : Inert text') :
    Inert (text ++ text') := by
  rw [Inert, String.toList_append, readOn_append, h, Option.bind_some, h']

theorem Inert.intercalate {separator : String} (hseparator : Inert separator)
    {texts : List String} (h : ∀ text ∈ texts, Inert text) :
    Inert (separator.intercalate texts) := by
  induction texts with
  | nil => exact inert_of_free rfl
  | cons text texts ih =>
      obtain ⟨htext, htexts⟩ := List.forall_mem_cons.1 h
      cases texts with
      | nil => simpa using htext
      | cons next texts =>
          rw [String.intercalate_cons_cons]
          exact (htext.append hseparator).append (ih htexts)

theorem inert_of_isPlain {text : String} (h : Name.IsPlain text) : Inert text := by
  refine inert_of_free (Text.free_iff.2 fun c hc => ?_)
  exact Name.of_ascii (fun c => Name.isNameChar c = true → isMark c = false) (by decide)
    (Name.toNat_lt_of_isNameChar (h c hc)) (h c hc)

/-- Each character of a line in a docstring is read without anything left to remember. -/
theorem readOn_docChar (c : Char) : Reading.plain.readOn (Text.docChar c) = some .plain := by
  unfold Text.docChar
  split_ifs with hescape hquote
  · decide
  · decide
  · exact readOn_of_free (by simp) (by simp [isMark, hescape, hquote]) .plain

theorem inert_docLine (text : String) : Inert (Text.docLine text) := by
  rw [Inert, Text.docLine, String.toList_ofList]
  induction (Text.flatten text).toList with
  | nil => rfl
  | cons c cs ih =>
      rw [List.flatMap_cons, readOn_append, readOn_docChar, Option.bind_some, ih]

theorem inert_docLineOr {text : Option String} {fallback : String} (h : Inert fallback) :
    Inert (Text.docLineOr text fallback) := by
  unfold Text.docLineOr
  split
  · exact h
  · exact inert_docLine _

theorem inert_paragraphs {groups : List (List String)}
    (h : ∀ group ∈ groups, ∀ line ∈ group, Inert line) :
    ∀ line ∈ paragraphs groups, Inert line := by
  intro line hmem
  rcases of_mem_paragraphs hmem with rfl | ⟨group, hgroup, hmem⟩
  · exact inert_of_free rfl
  · exact h group hgroup line hmem

/-- Whether no triple quote of a text would end a docstring. -/
def Unquoted (text : String) : Prop :=
  behindQuotes? .plain text.toList = none

instance : DecidablePred Unquoted := fun _ => inferInstanceAs (Decidable (_ = none))

/-- Where something but a mark follows, a text has only to be unquoted. -/
theorem inert_append_append_iff {before after : String} (hbefore : Inert before)
    (hafter : Text.Free isMark after) (hne : after ≠ "") (text : String) :
    Inert (before ++ text ++ after) ↔ Unquoted text := by
  have hne' : after.toList ≠ [] := mt String.toList_eq_nil_iff.1 hne
  rw [Inert, String.toList_append, String.toList_append, readOn_append, readOn_append, hbefore,
    Option.bind_some, Unquoted, behindQuotes?_eq_none_iff]
  cases Reading.plain.readOn text.toList with
  | none => simp
  | some r => simp [readOn_of_free hne' hafter r]

/-! ### Docstrings at their level -/

/-- A docstring at a level of indentation. -/
structure Docstring where
  level : Nat
  summary : String
  details : List String
  deriving DecidableEq, Repr

namespace Docstring

/-- The lines of a docstring. -/
def lines (d : Docstring) : List String :=
  indentBy d.level (docstring d.summary d.details)

/-- What stands between the quotes of a docstring. -/
def content (d : Docstring) : String :=
  if d.details.isEmpty then d.summary
  else joinLines ([d.summary, ""] ++ indentBy d.level d.details ++ [padding d.level])

end Docstring

/-! ### Layout -/

theorem indentBy_zero (lines : List String) : indentBy 0 lines = lines := by
  have hline (line : String) : (if line.isEmpty then "" else padding 0 ++ line) = line := by
    split
    next hempty => exact (String.isEmpty_iff.1 hempty).symm
    next => exact String.empty_append
  rw [indentBy]
  simp only [hline, List.map_id']

theorem indent_indentBy (level : Nat) (lines : List String) :
    indent (indentBy level lines) = indentBy (level + 1) lines := by
  have hpadding : padding 1 ++ padding level = padding (level + 1) := by
    rw [padding, padding, padding, ← String.ofList_append, List.replicate_append_replicate,
      ← Nat.mul_add, Nat.add_comm]
  rw [indent, indentBy, indentBy, indentBy, List.map_map]
  refine List.map_congr_left fun line _ => ?_
  by_cases hempty : line = ""
  · simp [hempty]
  · simp [hempty, ← hpadding, String.append_assoc]

theorem joinLines_append_cons (start first : String) (lines : List String) :
    joinLines ((start ++ first) :: lines) = start ++ joinLines (first :: lines) := by
  unfold joinLines
  cases lines with
  | nil => simp
  | cons line lines => simp only [String.intercalate_cons_cons, String.append_assoc]

theorem joinLines_append {lines lines' : List String} (h : lines ≠ []) (h' : lines' ≠ []) :
    joinLines (lines ++ lines') = joinLines lines ++ "\n" ++ joinLines lines' :=
  String.intercalate_append_of_ne_nil h h'

theorem joinLines_append_last (lines : List String) (last stop : String) :
    joinLines (lines ++ [last ++ stop]) = joinLines (lines ++ [last]) ++ stop := by
  by_cases hempty : lines = []
  · simp [hempty, joinLines]
  · rw [joinLines_append hempty (by simp), joinLines_append hempty (by simp)]
    simp [joinLines, String.append_assoc]

theorem free_padding (level : Nat) : Text.Free isMark (padding level) := by
  refine Text.free_ofList ?_
  rw [List.any_replicate]
  split <;> decide

namespace Docstring

theorem joinLines_lines (d : Docstring) :
    joinLines d.lines = padding d.level ++ tripleQuote ++ d.content ++ tripleQuote := by
  have hquote (text : String) : tripleQuote ++ text ≠ "" := by
    simp [tripleQuote]
  unfold lines content docstring
  split
  next =>
    have hshape : tripleQuote ++ d.summary ++ tripleQuote =
        tripleQuote ++ (d.summary ++ tripleQuote) := String.append_assoc
    rw [hshape, indentBy_cons (hquote _)]
    simp [indentBy, joinLines, String.append_assoc]
  next =>
    -- The quotes at both ends are on lines with other text: padding in front, the summary behind.
    have hlines : indentBy d.level ([tripleQuote ++ d.summary, ""] ++ d.details ++ [tripleQuote]) =
        (padding d.level ++ tripleQuote ++ d.summary) ::
          ("" :: indentBy d.level d.details ++ [padding d.level ++ tripleQuote]) := by
      have hclosing : tripleQuote ≠ "" := by decide
      simp [indentBy, hquote, hclosing, String.append_assoc]
    rw [hlines, joinLines_append_cons, ← List.cons_append, joinLines_append_last]
    simp only [List.cons_append, List.nil_append, String.append_assoc]

/-- A docstring ends with its closing quotes exactly if its content is inert. -/
theorem behindQuotes?_content_iff (content after : String) :
    behindQuotes? .plain (content ++ tripleQuote ++ after).toList = some after.toList ↔
      Inert content := by
  have hquotes : tripleQuote.toList = ['"', '"', '"'] := rfl
  rw [String.append_assoc, String.toList_append, String.toList_append, hquotes, Inert]
  cases hread : Reading.plain.readOn content.toList with
  | none =>
      -- The docstring ends within its content, so the closing quotes are behind it.
      obtain ⟨rest, hrest⟩ := behindQuotes?_of_readOn_eq_none hread
      rw [hrest]
      simp only [reduceCtorEq, iff_false]
      intro heq
      have hlength := congrArg List.length (Option.some.inj heq)
      simp at hlength
      omega
  | some r =>
      rw [behindQuotes?_of_readOn_eq_some hread]
      cases r with
      | plain => simp [behindQuotes?, next, onQuote]
      | quote => simp [behindQuotes?, next, onQuote]
      | quotes =>
          -- The first of the closing quotes is the third in a row.
          have hclosed : behindQuotes? .quotes (['"', '"', '"'] ++ after.toList) =
              some (['"', '"'] ++ after.toList) := rfl
          rw [hclosed]
          simp only [Option.some.injEq, reduceCtorEq, iff_false]
          intro heq
          have hlength := congrArg List.length heq
          simp only [List.cons_append, List.nil_append, List.length_cons] at hlength
          omega
      | escape =>
          -- The first quote is escaped, and what follows cannot be behind itself.
          have hopen : behindQuotes? .escape (['"', '"', '"'] ++ after.toList) =
              behindQuotes? .quotes after.toList := rfl
          rw [hopen]
          simp only [Option.some.injEq, reduceCtorEq, iff_false]
          intro heq
          exact Nat.lt_irrefl _ (length_behindQuotes?_lt heq)

theorem inert_content {d : Docstring} (hsummary : Inert d.summary)
    (hdetails : ∀ line ∈ d.details, Inert line) : Inert d.content := by
  have hpadding : Inert (padding d.level) := inert_of_free (free_padding d.level)
  unfold content
  split
  · exact hsummary
  · refine Inert.intercalate (by decide) fun line hline => ?_
    simp only [List.mem_append, List.mem_cons, List.not_mem_nil, or_false] at hline
    rcases hline with ((rfl | rfl) | hline) | rfl
    · exact hsummary
    · exact inert_of_free rfl
    · obtain ⟨detail, hdetail, rfl⟩ := List.mem_map.1 hline
      split
      · exact inert_of_free rfl
      · exact hpadding.append (hdetails detail hdetail)
    · exact hpadding

/-- At the end of the only line of details a text has to be unquoted. -/
theorem inert_content_singleton_iff {summary label : String} (hsummary : Inert summary)
    (hlabel : Inert label) (hne : label ≠ "") (level : Nat) (text : String) :
    Inert (Docstring.mk level summary [label ++ text]).content ↔ Unquoted text := by
  have hcontent : (Docstring.mk level summary [label ++ text]).content =
      summary ++ "\n" ++ "\n" ++ padding level ++ label ++ text ++ ("\n" ++ padding level) := by
    unfold content
    rw [if_neg (by simp), indentBy_cons (by simp [hne])]
    simp [joinLines, indentBy, String.append_assoc, -String.reduceAppend]
  have hpadding := free_padding level
  have hbreak : Text.Free isMark "\n" := by decide
  have hbefore : Inert (summary ++ "\n" ++ "\n" ++ padding level ++ label) :=
    (((hsummary.append (inert_of_free hbreak)).append (inert_of_free hbreak)).append
      (inert_of_free hpadding)).append hlabel
  rw [hcontent, inert_append_append_iff hbefore (hbreak.append hpadding) (by simp)]

end Docstring

end Groundplan.Source
