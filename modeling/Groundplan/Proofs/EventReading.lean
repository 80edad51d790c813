import Groundplan.Proofs.CodeReading
import Groundplan.Proofs.ServiceParts

/-!
# What the events module declares

The events module has a record for each event, a table from names to records, and an envelope whose
tag is one of the names and whose content is one of the records. The three lists are read from the
lines of code of the whole text here, each by itself; a name is found in all of them or in none.

The text is read as far as it is made of its parts, which asks for types that are contained: any
other type could bring lines of code with it.
-/

namespace Groundplan.Events

open Source

/-- How the line of the table of event types starts. -/
def tableOpening : String := "EVENT_TYPES: Dict[str, Type[DomainModel]] = \x7b"

/-- Reads an entry of the table: a name in quotes and the record that it stands for. -/
def tableItem? (text : String) : Option (String × String) := do
  let name ← between? "\"" '"' text
  let record ← after? ("\"" ++ (name ++ "\": ")) text
  return (name, record)

/-- The entries of the table of event types. -/
def tableEntries (text : String) : List (String × String) :=
  (codeLines? text).toList.flatMap fun lines =>
    (lines.filterMap (between? tableOpening '\x7d')).flatMap fun listed =>
      (items listed).filterMap tableItem?

/-- The names of the classes above the table of event types. -/
def recordNames (text : String) : List String :=
  (codeLines? text).toList.flatMap fun lines =>
    (lines.takeWhile fun line => !begins tableOpening line).filterMap (between? "class " '(')

/-- The items that the envelope lists in brackets behind a given beginning of a line. -/
def envelopeItems (text opening : String) : List String :=
  (codeLines? text).toList.flatMap fun lines =>
    (bodies "class DomainEvent(" lines).flatMap fun body =>
      (body.findSome? (between? opening ']')).toList.flatMap items

/-- The tags that the envelope allows. -/
def tags (text : String) : List String :=
  (envelopeItems text "    type: Literal[").filterMap (between? "\"" '"')

/-- The records that the envelope may hold. -/
def variants (text : String) : List String :=
  envelopeItems text "    data: Union["

/-! ### The table -/

/-- An entry of the table as it is written. -/
def entryText (name : String) : String :=
  "\"" ++ (name ++ "\": ") ++ name

theorem tableItem?_entryText {name : String} (hname : Name.IsPlain name) :
    tableItem? (entryText name) = some (name, name) := by
  have hkey : between? "\"" '"' (entryText name) = some name :=
    between?_eq ("\": " ++ name) (by simp only [entryText, String.append_assoc]) (by simp)
      (stop_not_mem hname (by decide))
  have hrecord : after? ("\"" ++ (name ++ "\": ")) (entryText name) = some name :=
    after?_append _ _
  rw [tableItem?, hkey]
  simp only [Option.bind_eq_bind, Option.bind_some, hrecord]
  rfl

theorem comma_not_mem_entryText {name : String} (hname : Name.IsPlain name) :
    ',' ∉ (entryText name).toList := by
  have hcomma : ',' ∉ name.toList := stop_not_mem hname (by decide)
  simpa [entryText] using hcomma

/-- The table of event types is read as it was written. -/
theorem filterMap_tableItem? {names : List String} (h : ∀ name ∈ names, Name.IsPlain name) :
    (items (String.join (names.map fun name => "    " ++ (entryText name ++ ",")))).filterMap
      tableItem? = names.map fun name => (name, name) := by
  have hblanks (text : String) : items ("    " ++ text) = items text := by
    have hsplit : "    " ++ text = " " ++ (" " ++ (" " ++ (" " ++ text))) := by
      rw [← String.toList_inj]
      simp
    rw [hsplit, items_blank_append, items_blank_append, items_blank_append, items_blank_append]
  induction names with
  | nil => simp [items, tableItem?, between?, after?, TypeExpr.dropOpening?]
  | cons name names ih =>
      obtain ⟨hname, hnames⟩ := List.forall_mem_cons.1 h
      have hquote : (entryText name).toList.head? ≠ some ' ' := by simp [entryText]
      rw [List.map_cons, String.join_cons, String.append_assoc, hblanks, String.append_assoc,
        items_append (comma_not_mem_entryText hname) hquote,
        List.filterMap_cons_some (tableItem?_entryText hname), ih hnames]
      rfl

/-- The code of the table is its entries between the start of its line and a brace. -/
theorem join_registryLines {names : List String} (h : ∀ name ∈ names, Name.IsPlain name) :
    String.join (registryLines names) = tableOpening ++
      (String.join (names.map fun name => "    " ++ (entryText name ++ ",")) ++ "\x7d") := by
  have hentries : (names.map fun name => "    " ++ Text.literal name ++ ": " ++ name ++ ",") =
      names.map fun name => "    " ++ (entryText name ++ ",") := by
    refine List.map_congr_left fun name hname => ?_
    rw [literal_eq_of_isPlain (h name hname), ← String.toList_inj]
    simp [entryText]
  rw [registryLines, hentries, tableOpening, ← String.toList_inj]
  simp

theorem between?_registryLines {names : List String} (h : ∀ name ∈ names, Name.IsPlain name) :
    between? tableOpening '\x7d' (String.join (registryLines names)) =
      some (String.join (names.map fun name => "    " ++ (entryText name ++ ","))) := by
  refine between?_eq "\x7d" (join_registryLines h) (by simp) fun hmem => ?_
  rw [String.toList_join, List.mem_flatMap] at hmem
  obtain ⟨text, htext, hmem⟩ := hmem
  obtain ⟨name, hname, rfl⟩ := List.mem_map.1 htext
  have hbrace : '\x7d' ∉ name.toList := stop_not_mem (h name hname) (by decide)
  simp [entryText, hbrace] at hmem

/-! ### The envelope -/

theorem of_mem_stops {stop : Char} (h : stop ∈ [',', ' ', ']']) :
    Name.isNameChar stop = false ∧ stop ≠ '"' := by
  simp only [List.mem_cons, List.not_mem_nil, or_false] at h
  rcases h with rfl | rfl | rfl <;> decide

/-- The first lines of code of the envelope, below its head: its docstring and the two fields. -/
theorem map_code_envelopePart (names : List String) :
    ∃ rest, (envelopePart names).tail.map Stretch.code = "    \"\"" :: "" ::
      ("    type: Literal[" ++ (", ".intercalate (names.map Text.literal) ++ "]")) ::
      ("    data: Union[" ++ (", ".intercalate names ++ "]")) :: rest := by
  -- Only what stands around the two lists matters here.
  generalize htags : ", ".intercalate (names.map Text.literal) = tags
  generalize hvariants : ", ".intercalate names = variants
  have htype : padding 1 ++ ("type: Literal[" ++ tags ++ "]") =
      "    type: Literal[" ++ (tags ++ "]") := by
    rw [← String.toList_inj]
    simp [padding]
  have hdata : padding 1 ++ ("data: Union[" ++ variants ++ "]") =
      "    data: Union[" ++ (variants ++ "]") := by
    rw [← String.toList_inj]
    simp [padding]
  rw [envelopePart, blockPart, List.tail_cons, htags, hvariants, ← htype, ← hdata]
  exact ⟨_, by simp [Stretch.doc, indentBy, padding]; rfl⟩

/-- A field of the envelope is read below its docstring. -/
theorem items_tags {names : List String} (hne : names ≠ [])
    (h : ∀ name ∈ names, Name.IsPlain name) (rest : List String) :
    (((envelopePart names).tail.map Stretch.code ++ rest).findSome?
      (between? "    type: Literal[" ']')).map items = some (names.map Text.literal) := by
  have hfree : ∀ text ∈ names.map Text.literal, ∀ stop ∈ [',', ' ', ']'], stop ∉ text.toList := by
    intro text hmem stop hstop
    obtain ⟨name, hname, rfl⟩ := List.mem_map.1 hmem
    obtain ⟨hchar, hquote⟩ := of_mem_stops hstop
    rw [literal_eq_of_isPlain (h name hname)]
    simpa [hquote] using stop_not_mem (h name hname) hchar
  have hdoc : begins "    type: Literal[" "    \"\"" = false := by decide
  have hempty : begins "    type: Literal[" "" = false := by decide
  obtain ⟨text, hread, hitems⟩ := items_between? "    type: Literal[" (by simpa using hne) hfree
  obtain ⟨below, hcode⟩ := map_code_envelopePart names
  rw [hcode, List.cons_append, findSome?_between?_cons hdoc, List.cons_append,
    findSome?_between?_cons hempty, List.cons_append, List.findSome?_cons, hread]
  exact congrArg some hitems

theorem items_variants {names : List String} (hne : names ≠ [])
    (h : ∀ name ∈ names, Name.IsPlain name) (rest : List String) :
    (((envelopePart names).tail.map Stretch.code ++ rest).findSome?
      (between? "    data: Union[" ']')).map items = some names := by
  have hfree : ∀ name ∈ names, ∀ stop ∈ [',', ' ', ']'], stop ∉ name.toList := by
    intro name hname stop hstop
    exact stop_not_mem (h name hname) (of_mem_stops hstop).1
  have hdoc : begins "    data: Union[" "    \"\"" = false := by decide
  have hempty : begins "    data: Union[" "" = false := by decide
  have htype (tags : String) :
      begins "    data: Union[" ("    type: Literal[" ++ tags) = false := by
    simp [begins, after?, TypeExpr.dropOpening?]
  obtain ⟨text, hread, hitems⟩ := items_between? "    data: Union[" hne hfree
  obtain ⟨below, hcode⟩ := map_code_envelopePart names
  rw [hcode, List.cons_append, findSome?_between?_cons hdoc, List.cons_append,
    findSome?_between?_cons hempty, List.cons_append, findSome?_between?_cons (htype _),
    List.cons_append, List.findSome?_cons, hread]
  exact congrArg some hitems

/-! ### Definitions -/

theorem EventType.isDefinition_part (t : EventType) :
    IsDefinition ("class " ++ (t.name ++ ("(" ++ "DomainModel):"))) t.part := by
  refine isDefinition_classPart t.name "DomainModel):" fun s hs => ?_
  simp only [List.mem_cons, List.mem_append] at hs
  rcases hs with hs | hs | hs | rfl | hs
  · exact Stretch.isInner_of_mem_lines 0 _ s hs
  · obtain ⟨d, -, hs⟩ := List.mem_flatMap.1 hs
    exact Stretch.isInner_of_mem_commented 0 _ _ s hs
  · exact Stretch.isInner_of_mem_lines 0 _ s hs
  · exact Stretch.isInner_doc (by simp [creationDocstring])
  · exact Stretch.isInner_of_mem_lines 0 _ s hs

theorem isDefinition_envelopePart (names : List String) :
    IsDefinition "class DomainEvent(DomainModel):" (envelopePart names) := by
  refine isDefinition_blockPart fun s hs => ?_
  simp only [List.mem_cons, List.mem_append] at hs
  rcases hs with hs | rfl | hs | rfl | hs
  · exact Stretch.isInner_of_mem_lines 0 _ s hs
  · exact Stretch.isInner_doc (by simp [decodingDocstring])
  · exact Stretch.isInner_of_mem_lines 0 _ s hs
  · exact Stretch.isInner_doc (by simp [wrappingDocstring])
  · exact Stretch.isInner_of_mem_lines 0 _ s hs

theorem isDefinition_utcNow :
    IsDefinition "def _utc_now() -> datetime:" (Stretch.lines 0 utcNow) := by
  refine ⟨_, _, rfl, rfl, ?_⟩
  simp [Stretch.line, isInner, padding]

theorem isDefinition_metadataPart :
    IsDefinition "class EventMetadata(DomainModel):" metadataPart := by
  refine ⟨_, _, rfl, rfl, ?_⟩
  simp [metadataType, metadataDocstring, Stretch.doc, Stretch.lines, Stretch.line, isInner,
    indentBy, padding]

theorem isDefinition_subscriptionPart :
    IsDefinition "class ExternalEventSubscription(NamedTuple):" subscriptionPart := by
  refine ⟨_, _, rfl, rfl, ?_⟩
  simp [subscriptionType, subscriptionDocstring, Stretch.doc, Stretch.lines, Stretch.line, isInner,
    indentBy, padding]

theorem join_subscriptionListLines (subscriptions : List Subscription) :
    ∃ rest, String.join (subscriptionListLines subscriptions) = "EXTERNAL_EVENT_" ++ rest := by
  cases subscriptions with
  | nil =>
      refine ⟨"SUBSCRIPTIONS: Tuple[ExternalEventSubscription, ...] = ()", ?_⟩
      simp [subscriptionListLines]
  | cons subscription subscriptions =>
      refine ⟨"SUBSCRIPTIONS: Tuple[ExternalEventSubscription, ...] = (" ++ String.join
        ((subscription :: subscriptions).flatMap subscriptionLines ++ [")"]), ?_⟩
      rw [subscriptionListLines, List.append_assoc, List.singleton_append, String.join_cons,
        ← String.append_assoc]
      · simp
      · simp

/-! ### The module -/

/-- The names of the event records, in order of event. -/
def eventNames (m : Model) : List String :=
  m.events.sortedNames.map Name.pascal

theorem isPlain_of_mem_eventNames {m : Model} : ∀ name ∈ eventNames m, Name.IsPlain name := by
  intro name hmem
  obtain ⟨event, -, rfl⟩ := List.mem_map.1 hmem
  exact Name.isPlain_pascal event

theorem map_name_types (m : Model) : (types m).map EventType.name = eventNames m := by
  simp only [types, eventNames, Catalog.sortedNames, List.map_map, Function.comp_def, eventType]

/-- The parts above the table of event types. -/
def partsAbove (m : Model) : List (List Stretch) :=
  Stretch.lines 0 utcNow :: (types m).map EventType.part

/-- The parts below the envelope. -/
def partsBelow (m : Model) : List (List Stretch) :=
  [metadataPart, subscriptionPart, [.joined (subscriptionListLines m.subscriptions)]]

variable {m : Model}

/-- The lines of code of the events module where there are events. -/
theorem codeLines?_text (h : ∀ text ∈ shownTypes m, Contained ((Scope.ofModel m).meaning text))
    (hne : eventNames m ≠ []) :
    codeLines? (sourceModule m).text = some (codeOf ((sourceModule m).allParts (partsAbove m) ++
      [.joined (registryLines (eventNames m))] :: envelopePart (eventNames m) ::
        partsBelow m)) := by
  have henvelope : envelopeParts (eventNames m) =
      [[.joined (registryLines (eventNames m))], envelopePart (eventNames m)] := by
    obtain ⟨name, names, hnames⟩ := List.exists_cons_of_ne_nil hne
    rw [hnames]
    rfl
  have hparts : parts m = partsAbove m ++
      [.joined (registryLines (eventNames m))] :: envelopePart (eventNames m) :: partsBelow m := by
    rw [parts, map_name_types, henvelope]
    simp [partsAbove, partsBelow]
  have hcode := (madeOf_parts h).codeLines?_text
  rw [hparts] at hcode
  exact hcode

theorem begins_partsAbove {mark : String} {c : Char} (hmark : mark.toList.head? = some c)
    (hblank : c ≠ ' ') (hfunction : c ≠ 'd')
    (hclass : ∀ name ∈ eventNames m,
      begins mark ("class " ++ (name ++ ("(" ++ "DomainModel):"))) = false) :
    ∀ part ∈ partsAbove m, ∀ s ∈ part, begins mark s.code = false := by
  refine List.forall_mem_cons.2 ⟨?_, fun part hpart => ?_⟩
  · refine isDefinition_utcNow.begins_eq_false hmark hblank (begins_eq_false hmark ?_)
    simpa using hfunction.symm
  · obtain ⟨t, ht, rfl⟩ := List.mem_map.1 hpart
    have hname : t.name ∈ eventNames m := map_name_types m ▸ List.mem_map_of_mem ht
    exact t.isDefinition_part.begins_eq_false hmark hblank (hclass t.name hname)

theorem begins_partsBelow {mark : String} {c : Char} (hmark : mark.toList.head? = some c)
    (hblank : c ≠ ' ') (hmetadata : begins mark "class EventMetadata(DomainModel):" = false)
    (hsubscription : begins mark "class ExternalEventSubscription(NamedTuple):" = false)
    (hlist : ∀ rest, begins mark ("EXTERNAL_EVENT_" ++ rest) = false) :
    ∀ part ∈ partsBelow m, ∀ s ∈ part, begins mark s.code = false := by
  have hlast : begins mark (String.join (subscriptionListLines m.subscriptions)) = false := by
    obtain ⟨rest, hrest⟩ := join_subscriptionListLines m.subscriptions
    rw [hrest]
    exact hlist rest
  refine List.forall_mem_cons.2 ⟨?_, List.forall_mem_cons.2 ⟨?_, List.forall_mem_singleton.2 ?_⟩⟩
  · exact isDefinition_metadataPart.begins_eq_false hmark hblank hmetadata
  · exact isDefinition_subscriptionPart.begins_eq_false hmark hblank hsubscription
  · exact List.forall_mem_singleton.2 hlast

theorem begins_tableOpening_above :
    ∀ part ∈ (sourceModule m).allParts (partsAbove m), ∀ s ∈ part,
      begins tableOpening s.code = false :=
  (sourceModule m).begins_allParts (c := 'E') (by simp [tableOpening]) (by decide) (by decide)
    (begins_partsAbove (c := 'E') (by simp [tableOpening]) (by decide) (by decide)
      fun _ _ => begins_eq_false (c := 'E') (by simp [tableOpening]) (by simp))

theorem filterMap_class_above :
    (codeOf ((sourceModule m).allParts (partsAbove m))).filterMap (between? "class " '(') =
      eventNames m := by
  have hutc :
      ((Stretch.lines 0 utcNow).map Stretch.code).filterMap (between? "class " '(') = [] := by
    rw [isDefinition_utcNow.filterMap_between? (c := 'c') (by simp) (by decide),
      between?_eq_none (begins_eq_false (c := 'c') (by simp) (by simp))]
    rfl
  have htype : ∀ t ∈ types m, (t.part.map Stretch.code).filterMap (between? "class " '(') =
      [t.name] := by
    intro t ht
    have hname : t.name ∈ eventNames m := map_name_types m ▸ List.mem_map_of_mem ht
    have hread : between? "class " '(' ("class " ++ (t.name ++ ("(" ++ "DomainModel):"))) =
        some t.name :=
      between?_eq _ rfl (by simp) (stop_not_mem (isPlain_of_mem_eventNames _ hname) (by decide))
    rw [t.isDefinition_part.filterMap_between? (c := 'c') (by simp) (by decide), hread,
      Option.toList_some]
  rw [filterMap_codeOf (by decide), SourceModule.flatMap_filterMap_allParts (c := 'c') _ (by simp)
    (by decide) (by decide), partsAbove, List.flatMap_cons, hutc, List.nil_append,
    List.flatMap_map, ← map_name_types, List.map_eq_flatMap]
  exact List.flatMap_congr htype

/-- The classes above the table are the event records. -/
theorem recordNames_text (h : ∀ text ∈ shownTypes m, Contained ((Scope.ofModel m).meaning text))
    (hne : eventNames m ≠ []) : recordNames (sourceModule m).text = eventNames m := by
  have habove : ∀ line ∈ codeOf ((sourceModule m).allParts (partsAbove m)) ++ [""],
      (!begins tableOpening line) = true := by
    have hempty : begins tableOpening "" = false := by decide
    intro line hline
    rcases List.mem_append.1 hline with hline | hline
    · rw [begins_codeOf_eq_false hempty begins_tableOpening_above line hline]
      rfl
    · rw [List.mem_singleton.1 hline, hempty]
      rfl
  -- Reading stops at the line of the table, which is the next one at the margin.
  have htable : begins tableOpening (String.join (registryLines (eventNames m))) = true := by
    rw [join_registryLines isPlain_of_mem_eventNames]
    exact begins_append _ _
  obtain ⟨rest, hrest⟩ := List.head?_eq_some_iff.1 (head?_codeOf
    (.joined (registryLines (eventNames m))) [] (envelopePart (eventNames m) :: partsBelow m))
  rw [recordNames, codeLines?_text h hne, Option.toList_some, List.flatMap_singleton,
    codeOf_append (by simp [SourceModule.allParts]) (by simp), List.append_cons,
    List.takeWhile_append_of_pos habove, hrest,
    List.takeWhile_cons_of_neg (by rw [Stretch.joined, htable]; decide),
    List.append_nil, List.filterMap_append, filterMap_class_above,
    List.filterMap_cons_none (by decide)]
  simp

theorem tableEntries_text (h : ∀ text ∈ shownTypes m, Contained ((Scope.ofModel m).meaning text))
    (hne : eventNames m ≠ []) :
    tableEntries (sourceModule m).text = (eventNames m).map fun name => (name, name) := by
  have hmark : tableOpening.toList.head? = some 'E' := by simp [tableOpening]
  have habove : ∀ part ∈ (sourceModule m).allParts (partsAbove m),
      (part.map Stretch.code).filterMap (between? tableOpening '\x7d') = [] := fun part hpart =>
    filterMap_between?_eq_nil (begins_tableOpening_above part hpart) _
  have henvelope : ((envelopePart (eventNames m)).map Stretch.code).filterMap
      (between? tableOpening '\x7d') = [] := by
    rw [(isDefinition_envelopePart _).filterMap_between? hmark (by decide),
      between?_eq_none (begins_eq_false hmark (by simp))]
    rfl
  have hbelow : ∀ part ∈ partsBelow m,
      (part.map Stretch.code).filterMap (between? tableOpening '\x7d') = [] := by
    intro part hpart
    refine filterMap_between?_eq_nil (begins_partsBelow hmark (by decide) ?_ ?_ ?_ part hpart) _
    · exact begins_eq_false hmark (by simp)
    · exact begins_eq_false hmark (by simp)
    · -- Both names start with the same letter; the second one differs.
      simp [tableOpening, begins, after?, TypeExpr.dropOpening?]
  have htable := between?_registryLines (isPlain_of_mem_eventNames (m := m))
  have hlines : (codeOf ((sourceModule m).allParts (partsAbove m) ++
      [.joined (registryLines (eventNames m))] :: envelopePart (eventNames m) ::
        partsBelow m)).filterMap (between? tableOpening '\x7d') =
      [String.join ((eventNames m).map fun name => "    " ++ (entryText name ++ ","))] := by
    rw [filterMap_codeOf (by decide), List.flatMap_append, List.flatMap_eq_nil_iff.2 habove,
      List.flatMap_cons, List.flatMap_cons, henvelope, List.flatMap_eq_nil_iff.2 hbelow,
      List.map_singleton, Stretch.joined, List.filterMap_cons_some htable]
    rfl
  rw [tableEntries, codeLines?_text h hne, Option.toList_some, List.flatMap_singleton, hlines,
    List.flatMap_singleton, filterMap_tableItem? isPlain_of_mem_eventNames]

/-- The envelope is found by its name, provided that no event takes it. -/
theorem bodies_text (hname : "DomainEvent" ∉ eventNames m) :
    ∃ n, bodies "class DomainEvent(" (codeOf ((sourceModule m).allParts (partsAbove m) ++
      [.joined (registryLines (eventNames m))] :: envelopePart (eventNames m) :: partsBelow m)) =
        [(envelopePart (eventNames m)).tail.map Stretch.code ++ List.replicate n ""] := by
  have hmark : "class DomainEvent(".toList.head? = some 'c' := by simp
  have hclass (name base : String) (hplain : Name.IsPlain name) (hne : name ≠ "DomainEvent") :
      begins "class DomainEvent(" ("class " ++ (name ++ ("(" ++ base))) = false :=
    begins_class_eq_false "DomainEvent" (by decide) hplain hne base
  have hevents : ∀ part ∈ partsAbove m, ∀ s ∈ part, begins "class DomainEvent(" s.code = false := by
    refine begins_partsAbove hmark (by decide) (by decide) fun name hmem => ?_
    have hne : name ≠ "DomainEvent" := fun heq => hname (heq ▸ hmem)
    exact hclass name _ (isPlain_of_mem_eventNames name hmem) hne
  have habove : ∀ part ∈ (sourceModule m).allParts (partsAbove m) ++
      [[Stretch.joined (registryLines (eventNames m))]], ∀ s ∈ part,
        begins "class DomainEvent(" s.code = false := by
    intro part hpart
    rcases List.mem_append.1 hpart with hpart | hpart
    · exact (sourceModule m).begins_allParts hmark (by decide) (by decide) hevents part hpart
    · rw [List.mem_singleton.1 hpart]
      refine List.forall_mem_singleton.2 (begins_eq_false hmark ?_)
      rw [Stretch.joined, join_registryLines isPlain_of_mem_eventNames]
      simp [tableOpening]
  have hbelow : ∀ part ∈ partsBelow m, ∀ s ∈ part, begins "class DomainEvent(" s.code = false := by
    refine begins_partsBelow hmark (by decide) ?_ ?_ fun rest => ?_
    · exact hclass "EventMetadata" "DomainModel):" (by decide) (by decide)
    · exact hclass "ExternalEventSubscription" "NamedTuple):" (by decide) (by decide)
    · exact begins_eq_false hmark (by simp)
  have hnext : ∀ part ∈ (partsBelow m).head?,
      ∃ next, IsDefinition next part ∧ isInner next = false := by
    rintro part ⟨⟩
    exact ⟨_, isDefinition_metadataPart, by simp [isInner]⟩
  rw [List.append_cons]
  exact (isDefinition_envelopePart _).bodies_codeOf hmark (by decide) (by decide) habove hbelow
    hnext

theorem envelopeItems_text (h : ∀ text ∈ shownTypes m, Contained ((Scope.ofModel m).meaning text))
    (hne : eventNames m ≠ []) (hname : "DomainEvent" ∉ eventNames m) {opening : String}
    {listed : List String}
    (hlisted : ∀ rest, (((envelopePart (eventNames m)).tail.map Stretch.code ++ rest).findSome?
      (between? opening ']')).map items = some listed) :
    envelopeItems (sourceModule m).text opening = listed := by
  obtain ⟨n, hbodies⟩ := bodies_text hname
  obtain ⟨text, htext, rfl⟩ := Option.map_eq_some_iff.1 (hlisted (List.replicate n ""))
  rw [envelopeItems, codeLines?_text h hne, Option.toList_some, List.flatMap_singleton, hbodies,
    List.flatMap_singleton, htext, Option.toList_some, List.flatMap_singleton]

theorem tags_text (h : ∀ text ∈ shownTypes m, Contained ((Scope.ofModel m).meaning text))
    (hne : eventNames m ≠ []) (hname : "DomainEvent" ∉ eventNames m) :
    tags (sourceModule m).text = eventNames m := by
  have hunquote : ∀ name ∈ eventNames m, between? "\"" '"' (Text.literal name) = some name := by
    intro name hname
    have hplain := isPlain_of_mem_eventNames name hname
    exact between?_eq "\"" (literal_eq_of_isPlain hplain) (by simp)
      (stop_not_mem hplain (by decide))
  rw [tags, envelopeItems_text h hne hname (items_tags hne isPlain_of_mem_eventNames),
    filterMap_map_eq_map hunquote, List.map_id']

theorem variants_text (h : ∀ text ∈ shownTypes m, Contained ((Scope.ofModel m).meaning text))
    (hne : eventNames m ≠ []) (hname : "DomainEvent" ∉ eventNames m) :
    variants (sourceModule m).text = eventNames m :=
  envelopeItems_text h hne hname (items_variants hne isPlain_of_mem_eventNames)

end Groundplan.Events
