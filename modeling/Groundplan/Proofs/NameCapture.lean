import Groundplan.Proofs.ScopeDistinctness

/-!
# Names that definitions can take over

Generated modules import names and use classes of the language, and each definition of a model binds
one more name at the top of a module: a class, or a function that serves a route. Where the new name
is one that the module relies on, what the module meant by it is lost. The checklist reserves names
against this.

The reserved names do not cover all that is relied on. What keeps most of the others safe is their
first letter: no class name starts with a small letter, and every function name does. Five classes
and four functions are left, and for each of them a model passes the checklist that takes it over.

The names are those that definitions are given by their keys. A class or function that a type brings
with it, as one with line breaks in it can, is not looked at here.
-/

namespace Groundplan

/-! ### First letters -/

namespace Name

/-- Whether a text starts with a small letter. -/
def startsSmall (text : String) : Bool :=
  text.toList.head?.any Char.isLower

theorem startsSmall_append {text : String} (h : startsSmall text = true) (rest : String) :
    startsSmall (text ++ rest) = true := by
  unfold startsSmall at h ⊢
  rw [String.toList_append]
  cases hchars : text.toList with
  | nil => simp [hchars] at h
  | cons c cs => simpa [hchars] using h

theorem startsSmall_of_isSmallWord {word : String} (h : IsSmallWord word)
    (hdigit : startsWithDigit word = false) : startsSmall word = true := by
  obtain ⟨c, cs, hchars⟩ := List.exists_cons_of_ne_nil h.1
  have hsmall : isSmall c = true := h.2 c (by simp [hchars])
  have hc : c.isDigit = false := by simpa [startsWithDigit, hchars] using hdigit
  simpa [startsSmall, hchars, isSmall, hc] using hsmall

/-- The first of the led words starts with a small letter: that is what the leading word is for. -/
theorem startsSmall_ledSnake (name : String) : startsSmall (ledSnake "field" name) = true := by
  have hfirst : ∃ first rest, ledWords "field" name = first :: rest ∧
      startsWithDigit first = false := by
    unfold ledWords
    split
    · exact ⟨"field", [], rfl, by decide⟩
    next word words hwords =>
      split
      · exact ⟨"field", word :: words, rfl, by decide⟩
      next hdigit => exact ⟨word, words, rfl, by simpa using hdigit⟩
  obtain ⟨first, rest, hled, hdigit⟩ := hfirst
  obtain ⟨tail, htail⟩ := exists_intercalate_cons "_" first rest
  have hmem : first ∈ ledWords "field" name := by simp [hled]
  have hword : IsSmallWord first := of_mem_ledWords isSmallWord_field hmem
  rw [ledSnake, hled, htail]
  exact startsSmall_append (startsSmall_of_isSmallWord hword hdigit) tail

theorem startsSmall_field (name : String) : startsSmall (field name) = true := by
  rw [field_eq_escaped, escaped]
  split
  · exact startsSmall_append (startsSmall_ledSnake name) "_"
  · exact startsSmall_ledSnake name

theorem isLower_toUpper {c : Char} (h : c.isAlphanum = true) : c.toUpper.isLower = false :=
  of_ascii (fun c => c.toUpper.isLower = false) (by decide) (toNat_lt_of_isAlphanum h)

theorem startsSmall_pascal (name : String) : startsSmall (pascal name) = false := by
  unfold pascal
  cases hwords : words name with
  | nil => rfl
  | cons word rest =>
      have hmem : word ∈ words name := by simp [hwords]
      obtain ⟨hne, halphanum⟩ := of_mem_words hmem
      obtain ⟨c, cs, hchars⟩ := List.exists_cons_of_ne_nil hne
      have hc : c.toUpper.isLower = false := isLower_toUpper (halphanum c (by simp [hchars]))
      simp [startsSmall, capitalWord, hchars, hc, String.join_cons]

end Name

/-! ### Identifiers in annotations -/

namespace Text

theorem firstRun_concat {isSeparator : Char → Bool} {separator : Char}
    (h : isSeparator separator = true) (cs : List Char) :
    firstRun isSeparator (cs ++ [separator]) = firstRun isSeparator cs := by
  induction cs with
  | nil => simp [firstRun, h, consRun]
  | cons c cs ih => rw [List.cons_append, firstRun, firstRun, ih]

theorem runs_concat {isSeparator : Char → Bool} {separator : Char}
    (h : isSeparator separator = true) (cs : List Char) :
    runs isSeparator (cs ++ [separator]) = runs isSeparator cs := by
  rw [runs, runs, firstRun_concat h]

end Text

namespace Source

/-- Whether a character can be part of an identifier. -/
def isIdentifierChar (c : Char) : Bool :=
  c.isAlphanum || c = '_'

/-- The identifiers in a piece of source. -/
def identifiers (text : String) : List String :=
  (Text.runs (fun c => !isIdentifierChar c) text.toList).map String.ofList

/-- The only identifier in a class name is the name. -/
theorem identifiers_pascal {name word : String} (h : word ∈ identifiers (Name.pascal name)) :
    word = Name.pascal name := by
  by_cases hempty : (Name.pascal name).toList = []
  · rw [identifiers, hempty] at h
    cases h
  · have hfree : ∀ c ∈ (Name.pascal name).toList, (!isIdentifierChar c) = false := by
      intro c hc
      simp [isIdentifierChar, Name.isAlphanum_pascal name c hc]
    rw [identifiers, Text.runs_of_free hfree hempty] at h
    simpa using h

theorem identifiers_brackets {word : String} (hne : word.toList ≠ [])
    (h : word.toList.all isIdentifierChar = true) (inner : String) :
    identifiers (word ++ "[" ++ inner ++ "]") = word :: identifiers inner := by
  rw [List.all_eq_true] at h
  have hchars : (word ++ "[" ++ inner ++ "]").toList =
      word.toList ++ '[' :: (inner.toList ++ [']']) := by simp
  rw [identifiers, hchars, Text.runs_append_separator (fun c hc => by simp [h c hc]) hne (by decide),
    Text.runs_concat (by decide), List.map_cons, String.ofList_toList]
  rfl

end Source

namespace TypeExpr

open Source (identifiers)

/-- The identifiers in the types of bound parameters. -/
def boundWords : List String :=
  "list" :: "Optional" :: primitives.map Prod.snd

theorem identifiers_list (inner : String) :
    identifiers ("list[" ++ inner ++ "]") = "list" :: identifiers inner := by
  have hopening : "list[" = "list" ++ "[" := by decide
  rw [hopening, Source.identifiers_brackets (by decide) (by decide)]

theorem identifiers_optional (inner : String) :
    identifiers ("Optional[" ++ inner ++ "]") = "Optional" :: identifiers inner := by
  have hopening : "Optional[" = "Optional" ++ "[" := by decide
  rw [hopening, Source.identifiers_brackets (by decide) (by decide)]

/-- A primitive inside option and list wrappers is written with the bound words alone. -/
theorem identifiers_targetWith (named : String → String) {expr : TypeExpr}
    (h : expr.isPrimitive = true) : ∀ word ∈ identifiers (expr.targetWith named),
      word ∈ boundWords := by
  induction expr with
  | leaf name =>
      obtain ⟨target, htarget⟩ := Option.isSome_iff_exists.1 h
      have hmem : target ∈ primitives.map Prod.snd := by
        obtain ⟨before, after, hsplit, -⟩ := List.lookup_eq_some_iff.1 htarget
        rw [hsplit]
        simp
      have hself : ∀ target ∈ primitives.map Prod.snd, identifiers target = [target] := by decide
      rw [targetWith, htarget, Option.getD_some, hself target hmem]
      intro word hword
      rw [List.mem_singleton.1 hword]
      exact List.mem_cons_of_mem _ (List.mem_cons_of_mem _ hmem)
  | wrapped text wrapper inner ih =>
      have hlist : "list" ∈ boundWords := by decide
      have hoptional : "Optional" ∈ boundWords := by decide
      cases wrapper with
      | list =>
          rw [targetWith, Wrapper.around, identifiers_list]
          exact List.forall_mem_cons.2 ⟨hlist, ih h⟩
      | vec =>
          rw [targetWith, Wrapper.around, identifiers_list]
          exact List.forall_mem_cons.2 ⟨hlist, ih h⟩
      | option =>
          rw [targetWith, Wrapper.around, identifiers_optional]
          exact List.forall_mem_cons.2 ⟨hoptional, ih h⟩
      | paged => cases h

theorem parse_list_string :
    parse "List<String>" = .wrapped "List<String>" .list (.leaf "String") := by
  have hinside : unwrap? (Text.stripChars "List<String>".toList) =
      some (.list, ⟨"String".toList, by decide⟩) := by decide +kernel
  have hinner : ofChars "String".toList = .leaf "String" :=
    parse_primitive "String" (by decide)
  rw [parse, ofChars]
  simp only [hinside, hinner]
  decide +kernel

end TypeExpr

/-- The hint of a bound parameter is written with the bound words alone. -/
theorem Scope.identifiers_hint (s : Scope) {p : Property} (h : Routes.isBound p = true) :
    ∀ word ∈ Source.identifiers (s.hint p), word ∈ TypeExpr.boundWords := by
  have htarget : ∀ word ∈ Source.identifiers (s.target p.typeText), word ∈ TypeExpr.boundWords :=
    TypeExpr.identifiers_targetWith _ h
  unfold hint
  split
  · exact htarget
  · unfold TypeExpr.optional
    split
    · exact htarget
    · rw [TypeExpr.identifiers_optional]
      exact List.forall_mem_cons.2 ⟨by decide, htarget⟩

/-! ### What modules bind -/

namespace Model

/-- The classes that the definitions of a model become. -/
def emittedClasses (m : Model) : List String :=
  (Entities.types m).map Entities.EntityType.name ++
    (Events.types m).map Events.EventType.name ++
    (Commands.types m).map Commands.CommandType.name

/-- The functions that serve the routes of a model. -/
def emittedFunctions (m : Model) : List String :=
  (Routes.commandRoutes m).map Routes.CommandRoute.name ++
    (Routes.queryRoutes m).map Routes.QueryRoute.name

/-- The classes of the entities module are those of the value objects and the aggregates. -/
theorem mem_entityClasses {m : Model} {name : String} :
    name ∈ (Entities.types m).map Entities.EntityType.name ↔
      name ∈ (m.valueObjects.names ++ m.aggregates.names).map Name.pascal := by
  have hvalue := Entities.name_valueType (Scope.ofModel m)
  simp only [List.mem_map, Entities.mem_types, Catalog.names, List.mem_append]
  constructor
  · rintro ⟨t, ⟨entry, hentry, rfl⟩ | ⟨entry, hentry, rfl⟩, rfl⟩
    · exact ⟨entry.1, .inl ⟨entry, hentry, rfl⟩, (hvalue entry).symm⟩
    · exact ⟨entry.1, .inr ⟨entry, hentry, rfl⟩, rfl⟩
  · rintro ⟨_, ⟨entry, hentry, rfl⟩ | ⟨entry, hentry, rfl⟩, rfl⟩
    · exact ⟨_, .inl ⟨entry, hentry, rfl⟩, hvalue entry⟩
    · exact ⟨_, .inr ⟨entry, hentry, rfl⟩, rfl⟩

theorem mem_emittedClasses {m : Model} {name : String} :
    name ∈ m.emittedClasses ↔ name ∈ m.typeNames := by
  have hevents : (Events.types m).map Events.EventType.name =
      m.events.sortedNames.map Name.pascal := by
    simp [Events.types, Events.eventType, Catalog.sortedNames, Function.comp_def]
  have hcommands : (Commands.types m).map Commands.CommandType.name =
      m.commands.sortedNames.map Name.pascal := by
    simp [Commands.types, Commands.commandType, Catalog.sortedNames, Function.comp_def]
  simp only [emittedClasses, typeNames, List.map_append, List.mem_append, mem_entityClasses,
    hevents, hcommands, (m.events.sortedNames_perm.map Name.pascal).mem_iff,
    (m.commands.sortedNames_perm.map Name.pascal).mem_iff]

theorem mem_emittedFunctions {m : Model} {name : String} :
    name ∈ m.emittedFunctions ↔ name ∈ m.handlerNames := by
  have hcommands : (Routes.commandRoutes m).map Routes.CommandRoute.name =
      m.commands.sortedNames.map Name.field := by
    simp [Routes.commandRoutes, Routes.commandRoute, Name.routeHandler, Catalog.sortedNames,
      Function.comp_def]
  have hqueries : (Routes.queryRoutes m).map Routes.QueryRoute.name =
      m.queries.sortedNames.map Name.field := by
    simp [Routes.queryRoutes, Routes.queryRoute, Name.routeHandler, Catalog.sortedNames,
      Function.comp_def]
  simp only [emittedFunctions, handlerNames, List.map_append, List.mem_append, hcommands, hqueries,
    (m.commands.sortedNames_perm.map Name.field).mem_iff,
    (m.queries.sortedNames_perm.map Name.field).mem_iff]

end Model

/-! ### What modules rely on -/

/-- The names that the generated modules import. -/
def importedNames : List String :=
  (Entities.imports ++ Commands.imports ++ Events.imports ++ Routes.imports).flatten.flatMap
    Source.Import.names

/-- The classes of the language that the fixed text of the generated modules uses. -/
def languageClasses : List String :=
  ["Exception", "classmethod", "dict", "int", "list", "property", "str", "super", "type"]

/-- The names that functions of the routes module must leave as they are. -/
def routeNames : List String :=
  ["status", "date", "datetime", "time", "str", "int", "bool", "list", "create_router", "router"]

/-- The identifiers in the annotations of the parameters of routes. -/
def Routes.annotationNames (m : Model) : List String :=
  ((commandRoutes m).flatMap fun r => Source.identifiers r.commandName) ++
    (queryRoutes m).flatMap fun r => r.parameters.flatMap fun p => Source.identifiers p.hint

/-- An annotation is the class of a command or a type that can be bound. -/
theorem Routes.of_mem_annotationNames {m : Model} {word : String} (h : word ∈ annotationNames m) :
    Name.startsSmall word = false ∨ word ∈ TypeExpr.boundWords := by
  rcases List.mem_append.1 h with h | h
  · left
    obtain ⟨r, hr, hword⟩ := List.mem_flatMap.1 h
    obtain ⟨⟨name, c⟩, -, rfl⟩ := List.mem_map.1 hr
    change word ∈ Source.identifiers (Name.pascal name) at hword
    rw [Source.identifiers_pascal hword]
    exact Name.startsSmall_pascal name
  · right
    obtain ⟨r, hr, hword⟩ := List.mem_flatMap.1 h
    obtain ⟨⟨name, q⟩, -, rfl⟩ := List.mem_map.1 hr
    obtain ⟨d, hd, hword⟩ := List.mem_flatMap.1 hword
    obtain ⟨p, hp, rfl⟩ := List.mem_map.1 hd
    exact (Scope.ofModel m).identifiers_hint (List.mem_filter.1 hp).2 word hword

theorem Routes.mem_annotationNames {m : Model} {entry : String × Query}
    (hentry : entry ∈ m.queries.entries) {p : Property} (hp : p ∈ entry.2.parameters)
    (hbound : isBound p = true) {word : String}
    (hword : word ∈ Source.identifiers ((Scope.ofModel m).hint p)) : word ∈ annotationNames m := by
  have hroute : queryRoute (Scope.ofModel m) entry.1 entry.2 ∈ queryRoutes m :=
    List.mem_map.2 ⟨entry, m.queries.sorted_perm.mem_iff.2 hentry, rfl⟩
  have hparameter : parameter (Scope.ofModel m) p ∈
      (queryRoute (Scope.ofModel m) entry.1 entry.2).parameters :=
    List.mem_map_of_mem (List.mem_filter.2 ⟨hp, hbound⟩)
  refine List.mem_append_right _ (List.mem_flatMap.2 ⟨_, hroute, ?_⟩)
  exact List.mem_flatMap.2 ⟨_, hparameter, hword⟩

/-! ### What can be taken over -/

/-- The classes that a definition can take over. -/
def capturedClasses : List String :=
  ["UUID", "ABC", "APIRouter", "JSONResponse", "Exception"]

/-- The names that a function of the routes module can take over. -/
def capturedFunctions : List String :=
  ["str", "int", "bool", "list"]

theorem uncovered_classes : ∀ name ∈ importedNames ++ languageClasses,
    name ∉ reservedTypeNames → Name.startsSmall name = false → name ∈ capturedClasses := by
  decide

theorem uncovered_functions : ∀ name ∈ routeNames ++ TypeExpr.boundWords,
    name ∉ reservedHandlerNames → Name.startsSmall name = true → name ∈ capturedFunctions := by
  decide

namespace Model

/-- Parameters whose annotations refer to all functions that can be taken over. -/
def boundParameters : List Property :=
  [.plain "ids" "List<String>", .plain "size" "Integer", .plain "open" "Boolean"]

/-- A model that takes over all that can be taken over. -/
def capturing : Model where
  version := "1.0"
  context := ⟨"Ledger", "acme.ledger", none⟩
  aggregates := .empty
  valueObjects := ⟨["u_u_i_d", "a_b_c", "a_p_i_router", "j_s_o_n_response", "exception"].map
    fun name => (name, ⟨name, none, .record []⟩), by decide⟩
  events := .empty
  commands := .empty
  queries := ⟨capturedFunctions.map fun name => (name, ⟨name, none, boundParameters, none⟩),
    by decide⟩
  subscriptions := []
  aliases := .empty

theorem violation?_capturing : capturing.violation? = none := by
  rw [violation?_eq_none_iff]
  intro rule
  cases rule <;> decide +kernel

theorem capturing_classes : ∀ name ∈ capturedClasses,
    name ∈ capturing.emittedClasses ∧ name ∈ importedNames ++ languageClasses := by
  simp only [mem_emittedClasses]
  decide +kernel

/-- What is read of a plain property is its type expression. -/
theorem annotation_of_parse (s : Scope) {typeText : String} {expr : TypeExpr}
    (h : TypeExpr.parse typeText = expr) (hbound : expr.isPrimitive = true) (target : String)
    (htarget : expr.target s.aliases.entries = target) {name : String}
    (hname : name ∈ Source.identifiers target) (parameter : String) :
    Routes.isBound (.plain parameter typeText) = true ∧
      name ∈ Source.identifiers (s.hint (.plain parameter typeText)) := by
  subst h htarget
  exact ⟨hbound, hname⟩

theorem boundParameters_annotated (s : Scope) : ∀ name ∈ capturedFunctions,
    ∃ p ∈ boundParameters, Routes.isBound p = true ∧ name ∈ Source.identifiers (s.hint p) := by
  have hinteger := TypeExpr.parse_primitive "Integer" (by decide)
  have hboolean := TypeExpr.parse_primitive "Boolean" (by decide)
  intro name hname
  simp only [capturedFunctions, List.mem_cons, List.not_mem_nil, or_false] at hname
  rcases hname with rfl | rfl | rfl | rfl
  · exact ⟨.plain "ids" "List<String>", by simp [boundParameters],
      annotation_of_parse s TypeExpr.parse_list_string rfl "list[str]" rfl (by decide) "ids"⟩
  · exact ⟨.plain "size" "Integer", by simp [boundParameters],
      annotation_of_parse s hinteger rfl "int" rfl (by decide) "size"⟩
  · exact ⟨.plain "open" "Boolean", by simp [boundParameters],
      annotation_of_parse s hboolean rfl "bool" rfl (by decide) "open"⟩
  · exact ⟨.plain "ids" "List<String>", by simp [boundParameters],
      annotation_of_parse s TypeExpr.parse_list_string rfl "list[str]" rfl (by decide) "ids"⟩

theorem capturing_functions : ∀ name ∈ capturedFunctions,
    name ∈ capturing.emittedFunctions ∧ name ∈ Routes.annotationNames capturing := by
  have hfunctions : ∀ name ∈ capturedFunctions, name ∈ capturing.handlerNames := by decide +kernel
  intro name hname
  have hquery : (name, (⟨name, none, boundParameters, none⟩ : Query)) ∈
      capturing.queries.entries := List.mem_map_of_mem hname
  obtain ⟨p, hp, hbound, hword⟩ := boundParameters_annotated (Scope.ofModel capturing) name hname
  exact ⟨mem_emittedFunctions.2 (hfunctions name hname),
    Routes.mem_annotationNames hquery hp hbound hword⟩

/-- The relied-on names that definitions of accepted models take over: a class of the model takes
over an imported name or a class of the language, or the function of a route takes over a name that
the routes module or an annotation in it refers to. -/
theorem captured_iff (name : String) :
    ((∃ m : Model, m.violation? = none ∧ name ∈ m.emittedClasses ∧
        name ∈ importedNames ++ languageClasses) ↔ name ∈ capturedClasses) ∧
      ((∃ m : Model, m.violation? = none ∧ name ∈ m.emittedFunctions ∧
        name ∈ routeNames ++ Routes.annotationNames m) ↔ name ∈ capturedFunctions) := by
  refine ⟨⟨?_, fun hname => ?_⟩, ⟨?_, fun hname => ?_⟩⟩
  · rintro ⟨m, haccepted, hclass, hrelied⟩
    rw [mem_emittedClasses] at hclass
    have hfree : name ∉ reservedTypeNames :=
      ((m.violation?_eq_none_iff.1 haccepted) .typeNames).2 hclass
    obtain ⟨original, -, rfl⟩ := List.mem_map.1 hclass
    exact uncovered_classes _ hrelied hfree (Name.startsSmall_pascal original)
  · exact ⟨capturing, violation?_capturing, capturing_classes name hname⟩
  · rintro ⟨m, haccepted, hfunction, hrelied⟩
    rw [mem_emittedFunctions] at hfunction
    have hfree : name ∉ reservedHandlerNames :=
      ((m.violation?_eq_none_iff.1 haccepted) .routeHandlers).2 hfunction
    obtain ⟨original, -, rfl⟩ := List.mem_map.1 hfunction
    have hsmall : Name.startsSmall (Name.field original) = true := Name.startsSmall_field original
    refine uncovered_functions _ (List.mem_append.2 ?_) hfree hsmall
    rcases List.mem_append.1 hrelied with hfixed | hannotation
    · exact .inl hfixed
    · -- The class of a command starts with a large letter, so no function takes it over.
      rcases Routes.of_mem_annotationNames hannotation with hlarge | hbound
      · rw [hsmall] at hlarge
        cases hlarge
      · exact .inr hbound
  · obtain ⟨hfunction, hannotation⟩ := capturing_functions name hname
    exact ⟨capturing, violation?_capturing, hfunction, List.mem_append_right _ hannotation⟩

/-- The checklist accepts a model although its classes and functions take over names that the
modules import, use or refer to in annotations. -/
theorem capturing_accepted_with_captures :
    capturing.violation? = none ∧
      (∀ name ∈ ["UUID", "ABC", "APIRouter", "JSONResponse", "Exception"],
        name ∈ capturing.emittedClasses ∧ name ∈ importedNames ++ languageClasses) ∧
      ∀ name ∈ ["str", "int", "bool", "list"],
        name ∈ capturing.emittedFunctions ∧ name ∈ Routes.annotationNames capturing :=
  ⟨violation?_capturing, capturing_classes, capturing_functions⟩

end Model

end Groundplan
