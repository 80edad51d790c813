import Groundplan.Proofs.Containment
import Groundplan.Proofs.Presentation
import Groundplan.Proofs.WireNames

/-!
# The records of events and their constructors

The record of an event has an id, a time, the id of the aggregate if the event names one, and the
payload whose names are free. Its constructor takes the last two and hands them on by name. The
fields, the parameters and the arguments are three lists in the source, with the same condition on
the aggregate in each of them. They are written out here as the lines of the class. The arguments are
also read from its last line, whatever the types are. Where the types have no syntax in them, all
three are read from the text of the class, behind its docstring, and are found to agree.

A payload property that takes the name of a field of the record's own is left out, with one warning
about it and none about the others.
-/

namespace Groundplan

namespace Source

/-! ### Reading a class -/

/-- What is behind the first docstring of a text. -/
def behindDocstring? (text : String) : Option String :=
  ((TypeExpr.dropOpening? tripleQuote.toList (text.toList.dropWhile (· ≠ '"'))).bind
    (Reading.behindQuotes? .plain)).map String.ofList

/-- Reads a parameter: its name, and its hint if it has one. -/
def parameterOf (item : String) : String × Option String :=
  (upTo ':' item, after? (upTo ':' item ++ ": ") item)

/-- Reads an argument by keyword: its name and its value. -/
def argument? (item : String) : Option (String × String) :=
  (after? (upTo '=' item ++ "=") item).map fun value => (upTo '=' item, value)

/-- The last line of a text. -/
def lastLine (text : String) : String :=
  String.ofList (text.toList.reverse.takeWhile (· ≠ '\n')).reverse

/-- Reads the arguments that the last line of a class hands on. -/
def readArguments? (text : String) : Option (List (String × String)) :=
  (between? "        return cls(" ')' (lastLine text)).map fun call =>
    (items call).filterMap argument?

/-- What the text of a record says: the names of its fields, and the parameters and the arguments of
the method that creates it. -/
structure RecordText where
  fields : List String
  parameters : List (String × Option String)
  arguments : List (String × String)
  deriving DecidableEq, Repr

/-- Reads the text of a record that has a docstring, fields and a class method below them. -/
def readRecord? (text : String) : Option RecordText := do
  let lines ← (behindDocstring? text).map linesOf
  let method := lines.dropWhile (· ≠ "    @classmethod")
  let signature ← method.findSome? (between? "    def new(" ')')
  let call ← method.findSome? (between? "        return cls(" ')')
  return {
    fields := (lines.takeWhile (· ≠ "    @classmethod")).filterMap declared?
    parameters := (items signature).map parameterOf
    arguments := (items call).filterMap argument? }

/-- A docstring in front of which no quote stands is read to its end. -/
theorem behindDocstring?_eq {before content : String} (hbefore : '"' ∉ before.toList)
    (hcontent : Inert content) (after : String) :
    behindDocstring? (before ++ tripleQuote ++ content ++ tripleQuote ++ after) = some after := by
  have hdrop : ((before ++ tripleQuote ++ content ++ tripleQuote ++ after).toList.dropWhile
      (· ≠ '"')) = tripleQuote.toList ++ (content ++ tripleQuote ++ after).toList := by
    have hfree : ∀ c ∈ before.toList, decide (c ≠ '"') = true := by
      intro c hc
      exact decide_eq_true fun heq => hbefore (heq ▸ hc)
    simp only [String.append_assoc]
    rw [String.toList_append, List.dropWhile_append_of_pos hfree, String.toList_append]
    rfl
  rw [behindDocstring?, hdrop, dropOpening?_append, Option.bind_some,
    (Docstring.behindQuotes?_content_iff content after).2 hcontent, Option.map_some,
    String.ofList_toList]

/-- The text of a block that starts with a docstring. -/
theorem block_docstring (first summary : String) (details : List String) {rest : List String}
    (hrest : rest ≠ []) :
    block first (docstring summary details ++ rest) =
      first ++ "\n" ++ padding 1 ++ tripleQuote ++ Docstring.content ⟨1, summary, details⟩ ++
        tripleQuote ++ ("\n" ++ joinLines (indent rest)) := by
  have hlines := Docstring.joinLines_lines ⟨1, summary, details⟩
  have hindent : indent (docstring summary details) = Docstring.lines ⟨1, summary, details⟩ := rfl
  have hne : Docstring.lines ⟨1, summary, details⟩ ≠ [] := by
    unfold Docstring.lines indentBy docstring
    split <;> simp
  have hbelow : indent rest ≠ [] := by simpa [indent, indentBy] using hrest
  rw [block, indent_append, hindent, ← List.singleton_append, joinLines_append (by simp) (by simp
    [hbelow]), joinLines_append hne hbelow, hlines]
  simp [joinLines, String.append_assoc]

theorem lastLine_append (before : String) {line : String} (h : OneLine line) :
    lastLine (before ++ "\n" ++ line) = line := by
  have hline : ∀ c ∈ line.toList.reverse, decide (c ≠ '\n') = true := by
    intro c hc
    exact decide_eq_true fun heq => h (heq ▸ List.mem_reverse.1 hc)
  have hchars : (before ++ "\n" ++ line).toList.reverse =
      line.toList.reverse ++ '\n' :: before.toList.reverse := by
    simp
  rw [lastLine, hchars, List.takeWhile_append_of_pos hline, List.takeWhile_cons_of_neg (by simp),
    List.append_nil, List.reverse_reverse, String.ofList_toList]

theorem linesOf_break {lines : List String} (hne : lines ≠ []) (h : ∀ line ∈ lines, OneLine line) :
    linesOf ("\n" ++ joinLines lines) = "" :: lines := by
  have hjoined : "\n" ++ joinLines lines = joinLines ("" :: lines) := by
    rw [joinLines, joinLines, String.intercalate_cons_of_ne_nil hne]
    simp
  rw [hjoined, linesOf_cons (by decide) hne, linesOf_joinLines hne h]

/-! ### Declared names -/

theorem declared?_padding (line : String) : declared? (padding 1 ++ line) = declared? line := by
  have hchars : (padding 1 ++ line).toList = ' ' :: ' ' :: ' ' :: ' ' :: line.toList := by
    simp [padding_one]
  rw [declared?, hchars, tokens?_space, tokens?_space, tokens?_space, tokens?_space, declared?]

theorem declared?_empty : declared? "" = none := by
  rw [declared?, String.toList_empty, tokens?_nil]
  rfl

/-- Indentation does not hide what lines declare. -/
theorem filterMap_declared?_indent (lines : List String) :
    (indent lines).filterMap declared? = lines.filterMap declared? := by
  rw [indent, indentBy, List.filterMap_map]
  refine List.filterMap_congr fun line _ => ?_
  by_cases hempty : line = ""
  · simp [hempty]
  · simp [hempty, declared?_padding]

theorem declared?_comment (comment : String) : declared? ("# " ++ comment) = none := by
  have hchars : ("# " ++ comment).toList = '#' :: (" " ++ comment).toList := by simp
  rw [declared?, hchars, tokens?, if_neg (by decide), if_pos rfl]
  rfl

/-- A word before a colon is declared, if what is behind the colon can be read. -/
theorem declared?_append {name rest : String} (hname : IsWord name)
    (hrest : Text.Free isDelimiter rest) : declared? (name ++ ": " ++ rest) = some name := by
  have hmark : isPlainMark ':' = true := by decide
  have hscans : Scans (name ++ ": " ++ rest).toList
      ([.word name] ++ .mark ':' :: lexed rest) := by
    have hbehind : Scans (':' :: ' ' :: rest.toList) (.mark ':' :: lexed rest) :=
      (scans_lexed hrest).space.mark hmark
    have hall := hname.scans.append hbehind (apart_cons (by decide) _)
    simpa [String.append_assoc] using hall
  rw [declared?, hscans.tokens?_eq]
  rfl

theorem head?_of_isWord {text rest : String} (h : IsWord text) {c : Char}
    (hc : isWordChar c = false) : (text ++ rest).toList.head? ≠ some c := by
  obtain ⟨hne, hall⟩ := h
  obtain ⟨d, ds, hds⟩ := List.exists_cons_of_ne_nil hne
  rw [String.toList_append, hds, List.cons_append, List.head?_cons]
  rintro heq
  have hd : isWordChar d = true := List.all_eq_true.1 hall d (by simp [hds])
  rw [Option.some.inj heq, hc] at hd
  cases hd

/-! ### Parameters and arguments -/

theorem upTo_append {name rest : String} {stop : Char} (hname : stop ∉ name.toList)
    (hrest : rest.toList.head? = some stop) : upTo stop (name ++ rest) = name := by
  have hread : between? "" stop (name ++ rest) = some name :=
    between?_eq rest (by simp) hrest hname
  have hempty : after? "" (name ++ rest) = some (name ++ rest) := by
    simpa using after?_append "" (name ++ rest)
  rw [between?, hempty, Option.map_some] at hread
  exact Option.some.inj hread

theorem argument?_line {name : String} (hname : Name.IsPlain name) (value : String) :
    argument? (name ++ "=" ++ value) = some (name, value) := by
  have hread : upTo '=' (name ++ "=" ++ value) = name := by
    rw [String.append_assoc]
    exact upTo_append (stop_not_mem hname (by decide)) (by simp)
  rw [argument?, hread, after?_append, Option.map_some]

theorem argument?_empty : argument? "" = none := by
  decide

/-- The characters that a type must not have if it is to be read from a list of parameters. -/
def isListSyntax (c : Char) : Bool :=
  isSyntax c || c = ',' || c = ')'

theorem of_free_isListSyntax {text : String} (h : Text.Free isListSyntax text) :
    Text.Free isSyntax text ∧ ',' ∉ text.toList ∧ ')' ∉ text.toList := by
  refine ⟨Text.free_iff.2 fun c hc => ?_, fun hmem => ?_, fun hmem => ?_⟩
  · have hlist := Text.free_iff.1 h c hc
    simp only [isListSyntax, Bool.or_eq_false_iff] at hlist
    exact hlist.1.1
  · exact absurd (Text.free_iff.1 h ',' hmem) (by decide)
  · exact absurd (Text.free_iff.1 h ')' hmem) (by decide)

/-- Whether a declaration can stand in a list of parameters: a name, and a hint that has no syntax
of lists in it. -/
def Declaration.IsListed (d : Declaration) : Prop :=
  d.initial = .none ∧ IsWord d.name ∧ Name.IsPlain d.name ∧ Text.Free isListSyntax d.hint

namespace Declaration

variable {ds : List Declaration}

theorem line_of_initial_eq_none {d : Declaration} (h : d.initial = .none) :
    d.line = d.name ++ ": " ++ d.hint := by
  rw [line, h, Initial.render, String.append_empty]

theorem line_of_isListed {d : Declaration} (h : d.IsListed) :
    d.line = d.name ++ ": " ++ d.hint :=
  line_of_initial_eq_none h.1

theorem parameterOf_line {d : Declaration} (h : d.IsListed) :
    parameterOf d.line = (d.name, some d.hint) := by
  have hread : upTo ':' d.line = d.name := by
    rw [line_of_isListed h, String.append_assoc]
    exact upTo_append (stop_not_mem h.2.2.1 (by decide)) (by simp)
  rw [parameterOf, hread, line_of_isListed h, after?_append]

/-- A listed declaration is its name, a colon and its hint, so it has no characters but theirs. -/
theorem not_mem_line {d : Declaration} (h : d.IsListed) {c : Char}
    (hname : Name.isNameChar c = false) (hmark : c ∉ ": ".toList) (hhint : c ∉ d.hint.toList) :
    c ∉ d.line.toList := by
  rw [line_of_isListed h, String.toList_append, String.toList_append, List.mem_append,
    List.mem_append]
  rintro ((hmem | hmem) | hmem)
  · exact stop_not_mem h.2.2.1 hname hmem
  · exact hmark hmem
  · exact hhint hmem

/-- The text between the brackets of a function. -/
def signature (ds : List Declaration) : String :=
  ", ".intercalate ("cls" :: ds.map line)

/-- The text between the brackets of a call that hands on all parameters by name. -/
def call (ds : List Declaration) : String :=
  ", ".intercalate (ds.map fun d => d.name ++ "=" ++ d.name)

theorem stop_not_mem_signature (h : ∀ d ∈ ds, d.IsListed) : ')' ∉ (signature ds).toList := by
  intro hmem
  rcases Text.of_mem_toList_intercalate hmem with hmem | ⟨text, htext, hmem⟩
  · exact absurd hmem (by decide)
  · rcases List.mem_cons.1 htext with rfl | htext
    · exact absurd hmem (by decide)
    · obtain ⟨d, hd, rfl⟩ := List.mem_map.1 htext
      have hlisted := h d hd
      exact not_mem_line hlisted (by decide) (by decide)
        (of_free_isListSyntax hlisted.2.2.2).2.2 hmem

theorem oneLine_signature (h : ∀ d ∈ ds, d.IsListed) : OneLine (signature ds) := by
  refine .intercalate (by decide) fun text htext => ?_
  rcases List.mem_cons.1 htext with rfl | htext
  · decide
  · obtain ⟨d, hd, rfl⟩ := List.mem_map.1 htext
    have hlisted := h d hd
    refine not_mem_line hlisted (by decide) (by decide) fun hmem => ?_
    exact absurd (Text.free_iff.1 hlisted.2.2.2 '\n' hmem) (by decide)

/-- The parameters are read from between the brackets of a function. -/
theorem map_parameterOf_signature (h : ∀ d ∈ ds, d.IsListed) :
    (items (signature ds)).map parameterOf =
      ("cls", none) :: ds.map fun d => (d.name, some d.hint) := by
  have hitems : items (signature ds) = "cls" :: ds.map line := by
    refine items_intercalate (by simp) fun text htext => ?_
    rcases List.mem_cons.1 htext with rfl | htext
    · exact ⟨by decide, by decide⟩
    · obtain ⟨d, hd, rfl⟩ := List.mem_map.1 htext
      have hlisted := h d hd
      refine ⟨not_mem_line hlisted (by decide) (by decide)
        (of_free_isListSyntax hlisted.2.2.2).2.1, ?_⟩
      rw [line_of_isListed hlisted, String.append_assoc]
      exact head?_of_isWord hlisted.2.1 (by decide)
  have hcls : parameterOf "cls" = ("cls", none) := by decide
  rw [hitems, List.map_cons, hcls, List.map_map]
  exact congrArg _ (List.map_congr_left fun d hd => parameterOf_line (h d hd))

theorem not_mem_argument {name : String} (h : Name.IsPlain name) {c : Char}
    (hname : Name.isNameChar c = false) (hmark : c ≠ '=') :
    c ∉ (name ++ "=" ++ name).toList := by
  have hfree := stop_not_mem h hname
  simp [hfree, hmark]

theorem stop_not_mem_call (h : ∀ d ∈ ds, Name.IsPlain d.name) {c : Char}
    (hname : Name.isNameChar c = false) (hmark : c ∉ ", =".toList) : c ∉ (call ds).toList := by
  intro hmem
  rcases Text.of_mem_toList_intercalate hmem with hmem | ⟨text, htext, hmem⟩
  · exact hmark (List.mem_append_left ['='] hmem)
  · obtain ⟨d, hd, rfl⟩ := List.mem_map.1 htext
    have hequals : c ≠ '=' := fun heq => hmark (heq ▸ by decide)
    exact not_mem_argument (h d hd) hname hequals hmem

/-- The arguments are read from between the brackets of a call. -/
theorem filterMap_argument?_call (h : ∀ d ∈ ds, IsWord d.name ∧ Name.IsPlain d.name) :
    (items (call ds)).filterMap argument? = ds.map fun d => (d.name, d.name) := by
  cases hds : ds with
  | nil =>
      have hempty : items (call []) = [""] := by decide
      rw [hempty, List.filterMap_cons_none argument?_empty]
      rfl
  | cons first others =>
      rw [← hds]
      have hitems : items (call ds) = ds.map fun d => d.name ++ "=" ++ d.name := by
        refine items_intercalate (by simp [hds]) fun text htext => ?_
        obtain ⟨d, hd, rfl⟩ := List.mem_map.1 htext
        obtain ⟨hword, hplain⟩ := h d hd
        refine ⟨not_mem_argument hplain (by decide) (by decide), ?_⟩
        rw [String.append_assoc]
        exact head?_of_isWord hword (by decide)
      rw [hitems]
      exact filterMap_map_eq_map fun d hd => argument?_line (h d hd).2 d.name

/-- Whether a declaration is read from its lines as that of its name. -/
def IsRead (d : Declaration) : Prop :=
  IsWord d.name ∧ declared? d.line = some d.name ∧ ∀ line ∈ d.lines, OneLine line

theorem filterMap_declared?_lines {d : Declaration} (h : d.IsRead) :
    d.lines.filterMap declared? = [d.name] := by
  unfold lines
  split
  · rw [List.filterMap_cons_none (declared?_comment _), List.filterMap_cons_some h.2.1]
    rfl
  · rw [List.filterMap_cons_some h.2.1]
    rfl

theorem filterMap_declared?_flatMap (h : ∀ d ∈ ds, d.IsRead) :
    (ds.flatMap lines).filterMap declared? = ds.map name := by
  induction ds with
  | nil => rfl
  | cons d ds ih =>
      rw [List.flatMap_cons, List.filterMap_append, filterMap_declared?_lines (h d (by simp)),
        ih fun d hd => h d (by simp [hd])]
      rfl

/-- No line of a declaration starts like a decorator. -/
theorem head?_of_mem_lines {d : Declaration} (h : IsWord d.name) {line : String}
    (hline : line ∈ d.lines) : line.toList.head? ≠ some '@' := by
  have hself : d.line.toList.head? ≠ some '@' := by
    rw [Declaration.line, String.append_assoc, String.append_assoc]
    exact head?_of_isWord h (by decide)
  unfold lines at hline
  split at hline
  · rcases List.mem_cons.1 hline with rfl | hline
    · simp
    · rwa [List.mem_singleton.1 hline]
  · rwa [List.mem_singleton.1 hline]

end Declaration

end Source

namespace Events

open Source

/-! ### Reading the record of an event -/

/-- The line of a standard field declares its name. -/
theorem StandardField.exists_line_eq (field : StandardField) :
    ∃ rest, field.line = field.name ++ ": " ++ rest ∧ Text.Free isDelimiter rest := by
  cases field with
  | eventId =>
      exact ⟨"UUID = Field(default_factory=uuid4)", by simp [line, name], Text.free_ofList rfl⟩
  | occurredAt =>
      exact ⟨"datetime = Field(default_factory=_utc_now)", by simp [line, name],
        Text.free_ofList rfl⟩
  | aggregateId => exact ⟨"str", by simp [line, name], Text.free_ofList rfl⟩

theorem StandardField.isWord_name (field : StandardField) : IsWord field.name := by
  cases field <;> decide

theorem StandardField.declared?_line (field : StandardField) :
    declared? field.line = some field.name := by
  obtain ⟨rest, hline, hrest⟩ := field.exists_line_eq
  rw [hline]
  exact declared?_append field.isWord_name hrest

theorem StandardField.line_spec (field : StandardField) :
    OneLine field.line ∧ field.line.toList.head? ≠ some '@' := by
  obtain ⟨rest, hline, hrest⟩ := field.exists_line_eq
  have hname : OneLine field.name := by cases field <;> decide
  have hbehind : OneLine rest := fun hmem => absurd (Text.free_iff.1 hrest '\n' hmem) (by decide)
  rw [hline]
  refine ⟨.append (.append hname (by decide)) hbehind, ?_⟩
  rw [String.append_assoc]
  exact head?_of_isWord field.isWord_name (by decide)

namespace EventType

/-- The lines of the fields of a record. -/
def fieldLines (t : EventType) : List String :=
  t.standard.map StandardField.line ++ t.payload.flatMap Declaration.lines

theorem of_mem_fieldLines {t : EventType} (h : ∀ d ∈ t.payload, d.IsRead) {line : String}
    (hline : line ∈ t.fieldLines) : OneLine line ∧ line.toList.head? ≠ some '@' := by
  rcases List.mem_append.1 hline with hline | hline
  · obtain ⟨field, -, rfl⟩ := List.mem_map.1 hline
    exact field.line_spec
  · obtain ⟨d, hd, hline⟩ := List.mem_flatMap.1 hline
    exact ⟨(h d hd).2.2 line hline, Declaration.head?_of_mem_lines (h d hd).1 hline⟩

theorem filterMap_declared?_fieldLines {t : EventType} (h : ∀ d ∈ t.payload, d.IsRead) :
    t.fieldLines.filterMap declared? = t.fieldNames := by
  rw [fieldLines, List.filterMap_append, Declaration.filterMap_declared?_flatMap h, fieldNames,
    filterMap_map_eq_map fun field _ => StandardField.declared?_line field]

/-- The line that opens the constructor. -/
def newLine (t : EventType) : String :=
  "    " ++ ("def new(" ++ (Declaration.signature t.parameters ++ (") -> " ++ (t.name ++ ":"))))

/-- The line of the constructor that makes the record. -/
def returnLine (t : EventType) : String :=
  "    " ++ ("    return cls(" ++ (Declaration.call t.parameters ++ ")"))

/-- The lines of the constructor as they stand in the class. -/
def methodLines (t : EventType) : List String :=
  ["    @classmethod", t.newLine,
    "        \"\"\"Create the event with a fresh id and the current time.\"\"\"", t.returnLine]

theorem indent_constructorLines (t : EventType) : indent t.constructorLines = t.methodLines := by
  have hlines : t.constructorLines = ["@classmethod",
      "def new(" ++ (Declaration.signature t.parameters ++ (") -> " ++ (t.name ++ ":"))),
      "    \"\"\"Create the event with a fresh id and the current time.\"\"\"",
      "    return cls(" ++ (Declaration.call t.parameters ++ ")")] := by
    simp only [constructorLines, Declaration.signature, Declaration.call, String.append_assoc]
  have hdecorator : "    " ++ "@classmethod" = "    @classmethod" := by decide
  have hsummary :
      "    " ++ "    \"\"\"Create the event with a fresh id and the current time.\"\"\"" =
        "        \"\"\"Create the event with a fresh id and the current time.\"\"\"" := by decide
  rw [hlines, indent_cons (by decide), indent_cons (by simp), indent_cons (by decide),
    indent_cons (by simp), padding_one, hdecorator, hsummary]
  rfl

theorem returnLine_eq (t : EventType) :
    t.returnLine = "        return cls(" ++ (Declaration.call t.parameters ++ ")") := by
  have hopening : "        return cls(" = "    " ++ "    return cls(" := by decide
  rw [hopening, String.append_assoc, returnLine]

theorem between?_returnLine {t : EventType} (h : ∀ d ∈ t.parameters, Name.IsPlain d.name) :
    between? "        return cls(" ')' t.returnLine = some (Declaration.call t.parameters) :=
  between?_eq _ t.returnLine_eq (by simp)
    (Declaration.stop_not_mem_call h (by decide) (by decide))

theorem oneLine_returnLine {t : EventType} (h : ∀ d ∈ t.parameters, Name.IsPlain d.name) :
    OneLine t.returnLine :=
  .append (by decide) (.append (by decide) (.append
    (Declaration.stop_not_mem_call h (by decide) (by decide)) (by decide)))

theorem oneLine_methodLines {t : EventType} (hname : Name.IsPlain t.name)
    (h : ∀ d ∈ t.parameters, d.IsListed) : ∀ line ∈ t.methodLines, OneLine line := by
  intro line hline
  simp only [methodLines, List.mem_cons, List.not_mem_nil, or_false] at hline
  rcases hline with rfl | rfl | rfl | rfl
  · decide
  · exact .append (by decide) (.append (by decide) (.append (Declaration.oneLine_signature h)
      (.append (by decide) (.append (oneLine_of_isPlain hname) (by decide)))))
  · exact oneLine_ofList (by decide)
  · exact oneLine_returnLine fun d hd => (h d hd).2.2.1

/-- The last line of a class is that of its constructor that makes the record. -/
theorem exists_block_eq (t : EventType) : ∃ before, t.block = before ++ "\n" ++ t.returnLine := by
  have hindent (lines : List String) :
      indent (lines ++ t.constructorLines) = indent lines ++ t.methodLines.dropLast ++
        [t.returnLine] := by
    rw [indent_append, indent_constructorLines, List.append_assoc]
    rfl
  rw [block, Source.block, hindent, ← List.cons_append,
    joinLines_append (by simp) (by simp), joinLines_singleton]
  exact ⟨_, rfl⟩

/-- The arguments are read from the last line of a class, whatever stands above it. -/
theorem readArguments?_block {t : EventType}
    (h : ∀ d ∈ t.parameters, IsWord d.name ∧ Name.IsPlain d.name) :
    readArguments? t.block = some (t.parameters.map fun d => (d.name, d.name)) := by
  have hplain : ∀ d ∈ t.parameters, Name.IsPlain d.name := fun d hd => (h d hd).2
  obtain ⟨before, hblock⟩ := t.exists_block_eq
  rw [readArguments?, hblock, lastLine_append before (oneLine_returnLine hplain),
    between?_returnLine hplain, Option.map_some, Declaration.filterMap_argument?_call h]

/-- The lines of a record behind its docstring. -/
theorem behindDocstring?_block {t : EventType} (hname : Name.IsPlain t.name)
    (hsummary : Inert t.summary) (hdetails : ∀ line ∈ t.details, Inert line)
    (hpayload : ∀ d ∈ t.payload, d.IsRead) (hparameters : ∀ d ∈ t.parameters, d.IsListed) :
    (behindDocstring? t.block).map linesOf =
      some (["", ""] ++ indent t.fieldLines ++ [""] ++ t.methodLines) := by
  have hbody : docstring t.summary t.details ++ [""] ++ t.standard.map StandardField.line ++
      t.payload.flatMap Declaration.lines ++ [""] ++ t.constructorLines =
      docstring t.summary t.details ++ ([""] ++ t.fieldLines ++ [""] ++ t.constructorLines) := by
    simp only [fieldLines, List.append_assoc]
  have hquote : '"' ∉ ("class " ++ t.name ++ "(DomainModel):" ++ "\n" ++ padding 1).toList := by
    have hfree : '"' ∉ t.name.toList := stop_not_mem hname (by decide)
    simp [hfree, padding]
  have hindent : indent ([""] ++ t.fieldLines ++ [""] ++ t.constructorLines) =
      [""] ++ indent t.fieldLines ++ [""] ++ t.methodLines := by
    have hempty : indent [""] = [""] := by decide
    rw [indent_append, indent_append, indent_append, hempty, indent_constructorLines]
  have hlines : ∀ line ∈ [""] ++ indent t.fieldLines ++ [""] ++ t.methodLines, OneLine line := by
    have hfields := oneLine_indent fun line hline => (of_mem_fieldLines hpayload hline).1
    intro line hline
    simp only [List.mem_append, List.mem_singleton] at hline
    rcases hline with ((rfl | hline) | rfl) | hline
    · decide
    · exact hfields line hline
    · decide
    · exact oneLine_methodLines hname hparameters line hline
  rw [block, hbody, block_docstring _ _ _ (by simp),
    behindDocstring?_eq hquote (Docstring.inert_content hsummary hdetails), Option.map_some,
    hindent, linesOf_break (by simp) hlines]
  rfl

/-- Nothing above the constructor is the line of a decorator. -/
theorem ne_classmethod {t : EventType} (h : ∀ d ∈ t.payload, d.IsRead) :
    ∀ line ∈ ["", ""] ++ indent t.fieldLines ++ [""],
      decide (line ≠ "    @classmethod") = true := by
  intro line hline
  refine decide_eq_true ?_
  simp only [List.mem_append, List.mem_cons, List.not_mem_nil, or_false] at hline
  rcases hline with ((rfl | rfl) | hline) | rfl
  · decide
  · decide
  · obtain ⟨inner, hinner, rfl⟩ := List.mem_map.1 hline
    have hhead := (of_mem_fieldLines h hinner).2
    split
    · decide
    · rintro heq
      have hmark : "    @classmethod" = padding 1 ++ "@classmethod" := by decide
      rw [hmark, String.append_right_inj] at heq
      exact hhead (by rw [heq]; decide)
  · decide

/-- The record of an event is read from its text: its fields, and the parameters of its constructor,
which are handed on by name. -/
theorem readRecord?_block {t : EventType} (hname : Name.IsPlain t.name)
    (hsummary : Inert t.summary) (hdetails : ∀ line ∈ t.details, Inert line)
    (hpayload : ∀ d ∈ t.payload, d.IsRead) (hparameters : ∀ d ∈ t.parameters, d.IsListed) :
    readRecord? t.block = some {
      fields := t.fieldNames
      parameters := ("cls", none) :: t.parameters.map fun d => (d.name, some d.hint)
      arguments := t.parameters.map fun d => (d.name, d.name) } := by
  have hlines := behindDocstring?_block hname hsummary hdetails hpayload hparameters
  have hnames : ∀ d ∈ t.parameters, IsWord d.name ∧ Name.IsPlain d.name :=
    fun d hd => ⟨(hparameters d hd).2.1, (hparameters d hd).2.2.1⟩
  have habove := ne_classmethod hpayload
  have htake : ((["", ""] ++ indent t.fieldLines ++ [""] ++ t.methodLines).takeWhile
      (· ≠ "    @classmethod")) = ["", ""] ++ indent t.fieldLines ++ [""] := by
    rw [List.takeWhile_append_of_pos habove, methodLines, List.takeWhile_cons_of_neg (by simp),
      List.append_nil]
  have hdrop : ((["", ""] ++ indent t.fieldLines ++ [""] ++ t.methodLines).dropWhile
      (· ≠ "    @classmethod")) = t.methodLines := by
    rw [List.dropWhile_append_of_pos habove, methodLines, List.dropWhile_cons_of_neg (by simp)]
  have hfields :
      (["", ""] ++ indent t.fieldLines ++ [""]).filterMap declared? = t.fieldNames := by
    rw [List.filterMap_append, List.filterMap_append, filterMap_declared?_indent,
      filterMap_declared?_fieldLines hpayload]
    simp [declared?_empty]
  have hsignature : t.methodLines.findSome? (between? "    def new(" ')') =
      some (Declaration.signature t.parameters) := by
    have hopening : "    def new(" = "    " ++ "def new(" := by decide
    have hline : t.newLine = "    def new(" ++
        (Declaration.signature t.parameters ++ (") -> " ++ (t.name ++ ":"))) := by
      rw [hopening, String.append_assoc, newLine]
    rw [methodLines, findSome?_between?_cons (by decide), List.findSome?_cons,
      between?_eq _ hline (by simp) (Declaration.stop_not_mem_signature hparameters)]
  have hcall : t.methodLines.findSome? (between? "        return cls(" ')') =
      some (Declaration.call t.parameters) := by
    have hopening : "        return cls(" = "    " ++ "    return cls(" := by decide
    have hnew : begins "        return cls(" t.newLine = false := by
      rw [hopening, newLine, begins_append_append]
      exact begins_eq_false (c := ' ') (by simp) (by simp)
    rw [methodLines, findSome?_between?_cons (by decide), findSome?_between?_cons hnew,
      findSome?_between?_cons (by decide), List.findSome?_cons,
      between?_returnLine fun d hd => (hnames d hd).2]
  rw [readRecord?, hlines]
  simp only [Option.bind_eq_bind, Option.bind_some, htake, hdrop, hfields, hsignature, hcall,
    Declaration.map_parameterOf_signature hparameters,
    Declaration.filterMap_argument?_call hnames]
  rfl

end EventType

/-! ### Names of the record's own -/

/-- Whether an event names an aggregate. -/
def NamesAggregate (e : Event) : Prop :=
  ∃ name, e.aggregate = some name ∧ name ≠ ""

theorem hasAggregate_iff (e : Event) : hasAggregate e = true ↔ NamesAggregate e := by
  simp [hasAggregate, NamesAggregate, Option.any_eq_true]

instance : DecidablePred NamesAggregate := fun e => decidable_of_iff _ (hasAggregate_iff e)

/-- The names that the record of an event has of its own. -/
def ownNames (e : Event) : List String :=
  ["event_id", "occurred_at"] ++ if NamesAggregate e then ["aggregate_id"] else []

/-- Whether a payload property would take a name that the record has of its own. -/
def TakesOwnName (e : Event) (p : Property) : Prop :=
  Name.member p.name = "event_id" ∨ Name.member p.name = "occurred_at" ∨
    Name.member p.name = "aggregate_id" ∧ NamesAggregate e

instance (e : Event) : DecidablePred (TakesOwnName e) :=
  fun _ => inferInstanceAs (Decidable (_ ∨ _ ∨ _ ∧ _))

/-- The payload whose names are free, in the order in which it was declared. -/
def freePayload (e : Event) : List Property :=
  e.payload.filter fun p => ¬ TakesOwnName e p

/-- The payload whose names are taken. -/
def takenPayload (e : Event) : List Property :=
  e.payload.filter fun p => TakesOwnName e p

theorem map_name_standardFields (e : Event) :
    (standardFields e).map StandardField.name = ownNames e := by
  simp only [standardFields, ownNames, ← hasAggregate_iff]
  split <;> rfl

theorem mem_ownNames_iff (e : Event) (p : Property) :
    Name.member p.name ∈ ownNames e ↔ TakesOwnName e p := by
  generalize hname : Name.member p.name = name
  unfold ownNames TakesOwnName
  rw [hname]
  by_cases haggregate : NamesAggregate e <;> simp [haggregate]

theorem clashes_iff (e : Event) (p : Property) : clashes e p = true ↔ TakesOwnName e p := by
  rw [← mem_ownNames_iff, ← map_name_standardFields, List.mem_map, clashes, List.any_eq_true]
  simp only [decide_eq_true_eq]

theorem keptPayload_eq (e : Event) : keptPayload e = freePayload e := by
  refine List.filter_congr fun p _ => ?_
  rw [Bool.eq_iff_iff, Bool.not_eq_true', decide_eq_true_eq, ← clashes_iff, Bool.not_eq_true]

/-- The note about a payload property whose name is taken. -/
def clashNote (e : Event) (p : Property) : Note :=
  ⟨.warning, .events, "Event " ++ e.name ++ ": payload property '" ++ p.name ++
    "' clashes with a standard event field and is skipped"⟩

theorem clashNotes_eq (e : Event) : clashNotes e = (takenPayload e).map (clashNote e) := by
  have htaken : e.payload.filter (clashes e) = takenPayload e := by
    refine List.filter_congr fun p _ => ?_
    rw [Bool.eq_iff_iff, decide_eq_true_eq, clashes_iff]
  rw [clashNotes, htaken]
  rfl

/-! ### Warnings -/

/-- The warnings among notes that come from the rendering of events itself. -/
def ownWarnings (notes : List Note) : List Note :=
  notes.filter fun n => n.level = .warning && n.origin = .events

theorem ownWarnings_append (notes notes' : List Note) :
    ownWarnings (notes ++ notes') = ownWarnings notes ++ ownWarnings notes' :=
  List.filter_append ..

theorem ownWarnings_clashNotes (e : Event) : ownWarnings (clashNotes e) = clashNotes e := by
  refine List.filter_eq_self.2 fun n hn => ?_
  obtain ⟨p, -, rfl⟩ := List.mem_map.1 hn
  rfl

/-- The trail of rendering one event. -/
def eventTrail (s : Scope) (e : Event) : Trail :=
  Trail.done (clashNotes e) ++ Trail.each s.fieldTrail (keptPayload e)

end Events

namespace Trail

theorem notes_append (t u : Trail) :
    (t ++ u).notes = t.notes ++ if t.broken then [] else u.notes := by
  change (append t u).notes = _
  unfold append
  split <;> simp

theorem of_mem_append {t u : Trail} {n : Note} (h : n ∈ (t ++ u).notes) :
    n ∈ t.notes ∨ n ∈ u.notes := by
  rw [notes_append, List.mem_append] at h
  rcases h with h | h
  · exact .inl h
  · split at h
    · cases h
    · exact .inr h

theorem of_mem_each {α : Type} {f : α → Trail} {as : List α} {n : Note}
    (h : n ∈ (each f as).notes) : ∃ a ∈ as, n ∈ (f a).notes := by
  induction as with
  | nil => cases h
  | cons a as ih =>
      rcases of_mem_append h with h | h
      · exact ⟨a, by simp, h⟩
      · obtain ⟨b, hb, hn⟩ := ih h
        exact ⟨b, by simp [hb], hn⟩

/-- Work that is done for all items leaves the notes about all of them. -/
theorem notes_each {α : Type} {f : α → Trail} {as : List α}
    (h : ∀ a ∈ as, (f a).obstacle = none) :
    (each f as).notes = as.flatMap fun a => (f a).notes := by
  induction as with
  | nil => rfl
  | cons a as ih =>
      have hfirst : (f a).broken = false := by rw [broken, h a (by simp)]; rfl
      have hcons : each f (a :: as) = f a ++ each f as := rfl
      rw [hcons, notes_append, hfirst, ih fun b hb => h b (by simp [hb]), List.flatMap_cons]
      rfl

end Trail

/-- What is noted about a field comes from the rendering of fields. -/
theorem Scope.origin_of_mem_fieldTrail {s : Scope} {p : Property} {n : Note}
    (h : n ∈ (s.fieldTrail p).notes) : n.origin = .fields := by
  rcases Trail.of_mem_append h with h | h
  · rcases Trail.of_mem_append h with h | h
    · unfold typeTrail at h
      split at h <;> cases h
    · unfold defaultTrail defaultNotes at h
      grind [Trail.done, Trail.stop]
  · unfold constraintTrail constraintNotes at h
    grind [Trail.done, Trail.stop]

namespace Events

open Source

/-- One warning is given for each payload property whose name is taken, and no other one. -/
theorem ownWarnings_eventTrail (s : Scope) (e : Event) :
    ownWarnings (eventTrail s e).notes = (takenPayload e).map (clashNote e) := by
  have hfields : ownWarnings (Trail.each s.fieldTrail (keptPayload e)).notes = [] := by
    refine List.filter_eq_nil_iff.2 fun n hn => ?_
    obtain ⟨p, -, hp⟩ := Trail.of_mem_each hn
    simp [Scope.origin_of_mem_fieldTrail hp]
  have hnotes : (eventTrail s e).notes =
      clashNotes e ++ (Trail.each s.fieldTrail (keptPayload e)).notes := rfl
  rw [hnotes, ownWarnings_append, hfields, ownWarnings_clashNotes, List.append_nil, clashNotes_eq]

theorem trail_eq (m : Model) :
    trail m = Trail.each (fun entry => eventTrail (Scope.ofModel m) entry.2) m.events.sorted ++
      Trail.done [⟨.debug, .events, "Generated " ++ Text.decimal m.events.size ++ " events"⟩] :=
  rfl

/-- A run through all events that meets no obstacle warns of each property that it leaves out. -/
theorem ownWarnings_trail {m : Model} (h : (trail m).obstacle = none) :
    ownWarnings (trail m).notes =
      m.events.sorted.flatMap fun entry => (takenPayload entry.2).map (clashNote entry.2) := by
  rw [trail_eq, Trail.obstacle_append, Trail.obstacle_done, Option.or_none, Trail.obstacle_each,
    List.findSome?_eq_none_iff] at h
  have hdone : (Trail.each (fun entry : String × Event =>
      eventTrail (Scope.ofModel m) entry.2) m.events.sorted).broken = false := by
    rw [Trail.broken, Trail.obstacle_each, List.findSome?_eq_none_iff.2 h]
    rfl
  have hlast : ownWarnings [⟨.debug, .events,
      "Generated " ++ Text.decimal m.events.size ++ " events"⟩] = [] := rfl
  rw [trail_eq, Trail.notes_append, hdone, Trail.notes_each h, if_neg (by simp), Trail.done,
    ownWarnings_append, hlast, List.append_nil, ownWarnings, List.filter_flatMap]
  exact congrArg (List.flatMap · m.events.sorted)
    (funext fun entry => ownWarnings_eventTrail (Scope.ofModel m) entry.2)

/-! ### Records and constructors -/

/-- What the constructor of an event takes: names with the hints of their types. -/
def inputs (s : Scope) (e : Event) : List (String × String) :=
  (if NamesAggregate e then [("aggregate_id", "str")] else []) ++
    (freePayload e).map fun p => (Name.member p.name, s.hint p)

/-- The lines of the fields of an event's record: those of its own, and the payload whose names are
free. -/
def recordFields (s : Scope) (e : Event) : List String :=
  ["event_id: UUID = Field(default_factory=uuid4)",
      "occurred_at: datetime = Field(default_factory=_utc_now)"] ++
    (if NamesAggregate e then ["aggregate_id: str"] else []) ++
    (freePayload e).flatMap fun p => (s.field p).lines

/-- The lines of the constructor of an event's record: it takes its inputs and hands them on by
name. -/
def constructor (s : Scope) (name : String) (e : Event) : List String :=
  ["@classmethod",
    "def new(" ++ ", ".intercalate ("cls" :: (inputs s e).map fun i => i.1 ++ ": " ++ i.2) ++
      ") -> " ++ Name.pascal name ++ ":",
    "    \"\"\"Create the event with a fresh id and the current time.\"\"\"",
    "    return cls(" ++ ", ".intercalate ((inputs s e).map fun i => i.1 ++ "=" ++ i.1) ++ ")"]

theorem fieldNames_eventType (s : Scope) (name : String) (e : Event) :
    (eventType s name e).fieldNames =
      ownNames e ++ (freePayload e).map fun p => Name.member p.name := by
  unfold eventType EventType.fieldNames
  dsimp only
  rw [map_name_standardFields, s.names_fields, keptPayload_eq]

theorem parameters_eventType (s : Scope) (name : String) (e : Event) :
    (eventType s name e).parameters.map (fun d => (d.name, d.hint)) = inputs s e := by
  have hpayload : ((freePayload e).map s.parameter).map (fun d => (d.name, d.hint)) =
      (freePayload e).map fun p => (Name.member p.name, s.hint p) := by
    simp only [List.map_map, Function.comp_def, Scope.parameter, Declaration.bare]
  have haggregate : (if NamesAggregate e then [Declaration.bare "aggregate_id" "str"] else []).map
      (fun d => (d.name, d.hint)) = if NamesAggregate e then [("aggregate_id", "str")] else [] := by
    split <;> rfl
  unfold eventType parameters inputs
  simp only [keptPayload_eq, hasAggregate_iff]
  rw [List.map_append, hpayload, haggregate]

theorem of_mem_parameters {s : Scope} {name : String} {e : Event} {d : Declaration}
    (h : d ∈ (eventType s name e).parameters) :
    d.initial = .none ∧ IsWord d.name ∧ Name.IsPlain d.name := by
  unfold eventType parameters at h
  rcases List.mem_append.1 h with h | h
  · split at h
    · rw [List.mem_singleton.1 h]
      exact ⟨rfl, by decide, by decide⟩
    · cases h
  · obtain ⟨p, -, rfl⟩ := List.mem_map.1 h
    have hword := isWord_member p.name
    have hplain := Name.isPlain_member p.name
    unfold Scope.parameter
    generalize Name.member p.name = name at *
    exact ⟨rfl, hword, hplain⟩

theorem constructorLines_eventType (s : Scope) (name : String) (e : Event) :
    (eventType s name e).constructorLines = constructor s name e := by
  have hlines : (eventType s name e).parameters.map Declaration.line =
      (inputs s e).map fun i => i.1 ++ ": " ++ i.2 := by
    rw [← parameters_eventType s name, List.map_map]
    exact List.map_congr_left fun d hd =>
      Declaration.line_of_initial_eq_none (of_mem_parameters hd).1
  have harguments : ((eventType s name e).parameters.map fun d => d.name ++ "=" ++ d.name) =
      (inputs s e).map fun i => i.1 ++ "=" ++ i.1 := by
    rw [← parameters_eventType s name, List.map_map]
    rfl
  rw [EventType.constructorLines, hlines, harguments]
  rfl

theorem fieldLines_eventType (s : Scope) (name : String) (e : Event) :
    (eventType s name e).fieldLines = recordFields s e := by
  have hstandard : (standardFields e).map StandardField.line =
      ["event_id: UUID = Field(default_factory=uuid4)",
          "occurred_at: datetime = Field(default_factory=_utc_now)"] ++
        if NamesAggregate e then ["aggregate_id: str"] else [] := by
    simp only [standardFields, ← hasAggregate_iff]
    split <;> rfl
  have hpayload : ((freePayload e).map s.field).flatMap Declaration.lines =
      (freePayload e).flatMap fun p => (s.field p).lines :=
    List.flatMap_map ..
  unfold eventType EventType.fieldLines recordFields
  dsimp only
  rw [hstandard, keptPayload_eq, hpayload]

/-- The record of an event as it is written: its docstring, its fields and its constructor. -/
theorem block_eventType (s : Scope) (name : String) (e : Event) :
    ∃ summary details, (eventType s name e).block =
      Source.block ("class " ++ Name.pascal name ++ "(DomainModel):")
        (docstring summary details ++ [""] ++ recordFields s e ++ [""] ++ constructor s name e) := by
  refine ⟨(eventType s name e).summary, (eventType s name e).details, ?_⟩
  rw [← constructorLines_eventType, ← fieldLines_eventType s name, EventType.fieldLines,
    ← List.append_assoc]
  rfl

/-- Payload with a free name meets neither the record's own fields nor its constructor. -/
theorem member_not_mem_ownNames {e : Event} {p : Property} (hp : p ∈ freePayload e) :
    Name.member p.name ∉ "cls" :: "new" :: ownNames e := by
  have hfree : ¬ TakesOwnName e p := by simpa using (List.mem_filter.1 hp).2
  have hreserved := Name.member_not_mem_reservedMembers p.name
  have hbound : "cls" ∈ Name.reservedMembers ∧ "new" ∈ Name.reservedMembers := by decide
  rw [List.mem_cons, List.mem_cons, mem_ownNames_iff]
  rintro (heq | heq | htaken)
  · exact hreserved (heq ▸ hbound.1)
  · exact hreserved (heq ▸ hbound.2)
  · exact hfree htaken

theorem readArguments?_eventType (s : Scope) (name : String) (e : Event) :
    readArguments? (eventType s name e).block =
      some ((inputs s e).map fun input => (input.1, input.1)) := by
  rw [EventType.readArguments?_block fun d hd => (of_mem_parameters hd).2,
    ← parameters_eventType s name, List.map_map]
  rfl

section Reading

variable {s : Scope} {p : Property}

theorem free_hint (h : Text.Free isListSyntax (s.meaning p.typeText)) :
    Text.Free isListSyntax (s.hint p) := by
  have hframe : ∀ n < 128, TypeExpr.isFrame (Char.ofNat n) = true →
      isListSyntax (Char.ofNat n) = false := by
    decide
  exact (TypeExpr.free_iff_of_core_eq hframe (s.core_hint p)).2 h

theorem isListed_parameter (h : Text.Free isListSyntax (s.meaning p.typeText)) :
    (s.parameter p).IsListed := by
  have hword := isWord_member p.name
  have hplain := Name.isPlain_member p.name
  unfold Scope.parameter
  generalize Name.member p.name = name at *
  exact ⟨rfl, hword, hplain, free_hint h⟩

theorem isRead_field (h : Text.Free isListSyntax (s.meaning p.typeText)) : (s.field p).IsRead := by
  have hsyntax := (of_free_isListSyntax h).1
  have hunbroken : Unbroken (s.meaning p.typeText) := by
    refine Text.free_iff.2 fun c hc => ?_
    have hdelimiter := Text.free_iff.1 (free_isDelimiter hsyntax) c hc
    simp only [isDelimiter, Bool.or_eq_false_iff] at hdelimiter
    exact hdelimiter.2
  have hlines := (s.unbroken_field_iff p).2 hunbroken
  have hname : IsWord (s.field p).name := by
    have hword := isWord_member p.name
    unfold Scope.field
    generalize Name.member p.name = name at *
    exact hword
  exact ⟨hname, (Scope.goesBy_field hsyntax).2.1, fun line hline =>
    oneLine_of_unbroken (hlines line hline)⟩

end Reading

/-- The text of an event's record is read as it was meant if the types of its payload have no syntax
in them. -/
theorem readRecord?_eventType {s : Scope} {e : Event} (name : String)
    (h : ∀ p ∈ freePayload e, Text.Free isListSyntax (s.meaning p.typeText)) :
    readRecord? (eventType s name e).block = some {
      fields := ownNames e ++ (freePayload e).map fun p => Name.member p.name
      parameters := ("cls", none) :: (inputs s e).map fun input => (input.1, some input.2)
      arguments := (inputs s e).map fun input => (input.1, input.1) } := by
  have hname : Name.IsPlain (eventType s name e).name := by
    unfold eventType
    exact Name.isPlain_pascal name
  have hsummary : Inert (eventType s name e).summary := by
    unfold eventType
    dsimp only
    exact inert_described (by decide) _ name
  have hdetails : ∀ line ∈ (eventType s name e).details, Inert line := by
    unfold eventType
    exact Commands.inert_aggregateLines e.aggregate
  have hpayload : ∀ d ∈ (eventType s name e).payload, d.IsRead := by
    unfold eventType
    intro d hd
    obtain ⟨p, hp, rfl⟩ := List.mem_map.1 hd
    exact isRead_field (h p (keptPayload_eq e ▸ hp))
  have hparameters : ∀ d ∈ (eventType s name e).parameters, d.IsListed := by
    unfold eventType parameters
    intro d hd
    rcases List.mem_append.1 hd with hd | hd
    · split at hd
      · rw [List.mem_singleton.1 hd]
        exact ⟨rfl, by decide, by decide, by decide⟩
      · cases hd
    · obtain ⟨p, hp, rfl⟩ := List.mem_map.1 hd
      exact isListed_parameter (h p (keptPayload_eq e ▸ hp))
  have hread := EventType.readRecord?_block hname hsummary hdetails hpayload hparameters
  rw [hread, fieldNames_eventType, ← parameters_eventType s name, List.map_map, List.map_map]
  rfl

/-- An order with a property named like the class in its constructor, and with two whose names are
taken. -/
def orderPlaced : Event :=
  ⟨"OrderPlaced", none, some "Order", [.plain "cls" "String", .plain "eventId" "UUID",
    .plain "aggregate-id" "String", .plain "total" "Decimal"]⟩

end Events

end Groundplan
