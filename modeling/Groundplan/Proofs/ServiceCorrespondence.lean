import Groundplan.Project.Readme
import Groundplan.Proofs.ChecklistRules
import Groundplan.Proofs.Containment
import Groundplan.Proofs.EventReading
import Groundplan.Proofs.RouteReading

/-!
# A service and its model

What a service offers corresponds one to one to what its model defines: a route, a function and a
line of the readme for each command and query, a handler method for each command, a record, a tag
and a table entry for each event. The lists are read from the texts of the generated modules.

A type is written as it stands, so it can bring code with it. The correspondence is therefore stated
for models whose types do not; a type that defines a function once more is given at the end.

The checklist compares type names and field names only. Distinct paths and method names follow from
distinct field names, because a field name can be computed from the path and from the method name.
The converse fails: `2nd` and `field_2nd` have one field name but two paths, so the checklist is
stricter about routes than their paths would ask for.
-/

namespace Groundplan

/-! ### Names in order -/

/-- All names of a catalog, each once, in strictly ascending order. -/
structure Catalog.InOrder {α : Type} (c : Catalog α) (names : List String) : Prop where
  perm : names.Perm c.names
  ascending : names.Pairwise fun a b => Text.before a b = true

theorem Catalog.inOrder_sortedNames {α : Type} (c : Catalog α) : c.InOrder c.sortedNames :=
  ⟨c.sortedNames_perm, c.pairwise_sortedNames⟩

/-! ### Distinct spellings -/

namespace Name

theorem field_eq_of_routePath_eq {name name' : String} (h : routePath name = routePath name') :
    field name = field name' := by
  have hkebab : kebab name = kebab name' := by
    simpa [routePath, ← String.toList_inj] using h
  exact field_eq_of_snake_eq (snake_eq_of_kebab_eq hkebab)

theorem field_eq_of_handlerMethod_eq {name name' : String}
    (h : handlerMethod name = handlerMethod name') : field name = field name' := by
  have hsnake : snake name = snake name' := by
    simpa [handlerMethod, ← String.toList_inj] using h
  exact field_eq_of_snake_eq hsnake

end Name

namespace Model

variable {m : Model}

/-- In an accepted model, every spelling from which the field name can be computed tells the
commands and queries apart. -/
theorem nodup_spellings (h : m.violation? = none) {spell : String → String}
    (hspell : ∀ name name', spell name = spell name' → Name.field name = Name.field name') :
    ((m.commands.sortedNames ++ m.queries.sortedNames).map spell).Nodup := by
  have hmeets := (m.violation?_eq_none_iff.1 h) .routeHandlers
  have hperm : ((m.commands.sortedNames ++ m.queries.sortedNames).map Name.field).Perm
      m.handlerNames :=
    (m.commands.sortedNames_perm.append m.queries.sortedNames_perm).map Name.field
  -- Distinct field names force distinct spellings, name by name.
  have hfields := List.pairwise_map.1 (hperm.nodup_iff.2 hmeets.1)
  exact List.pairwise_map.2 (hfields.imp fun {name name'} hne heq => hne (hspell name name' heq))

theorem eventNames_subset : Events.eventNames m ⊆ m.typeNames := by
  intro spelled hmem
  obtain ⟨name, hname, rfl⟩ := List.mem_map.1 hmem
  refine List.mem_map_of_mem ?_
  simp [m.events.sortedNames_perm.mem_iff.1 hname]

theorem nodup_eventNames (h : m.violation? = none) : (Events.eventNames m).Nodup := by
  have hmeets := (m.violation?_eq_none_iff.1 h) .typeNames
  have hperm : (Events.eventNames m).Perm (m.events.names.map Name.pascal) :=
    m.events.sortedNames_perm.map Name.pascal
  have htypes : m.typeNames.Nodup := hmeets.1
  rw [typeNames, List.map_append, List.map_append] at htypes
  exact hperm.nodup_iff.2 htypes.of_append_left.of_append_right

/-- The names of the event records and the command records are not reserved. -/
theorem not_mem_reservedTypeNames (h : m.violation? = none) {name : String}
    (hname : name ∈ m.typeNames) : name ∉ reservedTypeNames :=
  ((m.violation?_eq_none_iff.1 h) .typeNames).2 hname

end Model

/-! ### Correspondence -/

/-- The source of a service offers what the given names call for, and nothing else. The names are
those of the commands, queries and events of its model. -/
structure Project.Corresponds (m : Model) (s : Settings) (commands queries events : List String) :
    Prop where
  /-- The lists below are read from lines of code, so each text has to have them. -/
  readable : (Source.codeLines? (Routes.sourceModule m).text).isSome ∧
    (Source.codeLines? (Commands.sourceModule m).text).isSome ∧
    (Source.codeLines? (Events.sourceModule m).text).isSome
  /-- One POST route for each command, then one GET route for each query. -/
  routes : Routes.registrations (Routes.sourceModule m).text =
    (commands.map fun name => ⟨"POST", Name.routePath name, Name.routeHandler name⟩) ++
      queries.map fun name => ⟨"GET", Name.routePath name, Name.routeHandler name⟩
  paths : ((Routes.registrations (Routes.sourceModule m).text).map Routes.Registration.path).Nodup
  /-- The functions are those that routes are registered for, in the same order. -/
  functions : Routes.functionNames (Routes.sourceModule m).text =
    (Routes.registrations (Routes.sourceModule m).text).map Routes.Registration.handler
  once : ∀ r ∈ Routes.registrations (Routes.sourceModule m).text,
    (Routes.functionNames (Routes.sourceModule m).text).count r.handler = 1
  /-- One abstract method for each command. -/
  methods : Commands.abstractMethods (Commands.sourceModule m).text =
    commands.map Name.handlerMethod
  distinctMethods : (Commands.abstractMethods (Commands.sourceModule m).text).Nodup
  /-- The readme lists the routes under the path of the service, each with its title. -/
  endpoints : Project.readme m s = Source.fileText (Project.introduction m s ++
    Project.orNone (List.zipWith (fun r title =>
        "- `" ++ r.method ++ " " ++ s.apiPath ++ r.path ++ "`: " ++ title)
      (Routes.registrations (Routes.sourceModule m).text)
      ((commands ++ queries).map Name.pascal)) ++
    Project.structureLines m s ++ Project.orNone (m.subscriptions.map Project.subscriptionLine))
  /-- The event records, and the three lists of them. -/
  records : events ≠ [] → Events.recordNames (Events.sourceModule m).text = events.map Name.pascal
  distinctRecords : (events.map Name.pascal).Nodup
  entries : events ≠ [] → Events.tableEntries (Events.sourceModule m).text =
    (events.map Name.pascal).map fun name => (name, name)
  tags : events ≠ [] → Events.tags (Events.sourceModule m).text = events.map Name.pascal
  variants : events ≠ [] → Events.variants (Events.sourceModule m).text = events.map Name.pascal

namespace Model

variable {m : Model}

/-! #### Routes and functions -/

theorem map_registered_table (m : Model) :
    (Routes.table m).map Routes.Route.registered =
      (m.commands.sortedNames.map fun name =>
          ⟨"POST", Name.routePath name, Name.routeHandler name⟩) ++
        m.queries.sortedNames.map fun name =>
          ⟨"GET", Name.routePath name, Name.routeHandler name⟩ := by
  simp only [Routes.table, List.map_append, List.map_map, Function.comp_def,
    Routes.Route.registered, Routes.method_route, Routes.path_route, Routes.handler_route,
    Routes.Method.name]

theorem nodup_paths (h : m.violation? = none) :
    (((Routes.table m).map Routes.Route.registered).map Routes.Registration.path).Nodup := by
  have hpaths : ((Routes.table m).map Routes.Route.registered).map Routes.Registration.path =
      (m.commands.sortedNames ++ m.queries.sortedNames).map Name.routePath := by
    rw [map_registered_table, List.map_append, List.map_append, List.map_map, List.map_map]
    rfl
  rw [hpaths]
  exact nodup_spellings h fun _ _ => Name.field_eq_of_routePath_eq

/-- Every route of the table has a function of its own. -/
theorem count_handlers (h : m.violation? = none) :
    ∀ r ∈ (Routes.table m).map Routes.Route.registered,
      ((Routes.table m).map Routes.Route.handler).count r.handler = 1 := by
  have hhandlers : (Routes.table m).map Routes.Route.handler =
      (m.commands.sortedNames ++ m.queries.sortedNames).map Name.routeHandler := by
    simp only [Routes.table, List.map_append, List.map_map, Function.comp_def, Routes.handler_route]
  have hnodup : ((Routes.table m).map Routes.Route.handler).Nodup := by
    rw [hhandlers]
    exact nodup_spellings h fun _ _ heq => heq
  intro r hr
  obtain ⟨route, hroute, rfl⟩ := List.mem_map.1 hr
  exact List.count_eq_one_of_mem hnodup (List.mem_map_of_mem hroute)

/-! #### Handler methods -/

theorem pascal_ne_commandHandler (h : m.violation? = none) :
    ∀ name ∈ m.commands.sortedNames, Name.pascal name ≠ "CommandHandler" := by
  intro name hname heq
  have hmem : Name.pascal name ∈ m.typeNames := by
    refine List.mem_map_of_mem ?_
    simp [m.commands.sortedNames_perm.mem_iff.1 hname]
  exact not_mem_reservedTypeNames h hmem (heq ▸ by decide)

theorem nodup_handlerMethods (h : m.violation? = none) :
    (m.commands.sortedNames.map Name.handlerMethod).Nodup := by
  have hnodup := nodup_spellings h fun _ _ => Name.field_eq_of_handlerMethod_eq
  rw [List.map_append] at hnodup
  exact hnodup.of_append_left

/-! #### The readme -/

theorem endpointLines (m : Model) (apiPath : String) :
    (Routes.table m).map (Project.endpointLine apiPath) =
      List.zipWith (fun r title =>
          "- `" ++ r.method ++ " " ++ apiPath ++ r.path ++ "`: " ++ title)
        ((Routes.table m).map Routes.Route.registered)
        ((m.commands.sortedNames ++ m.queries.sortedNames).map Name.pascal) := by
  have htitles : (m.commands.sortedNames ++ m.queries.sortedNames).map Name.pascal =
      (Routes.table m).map Routes.Route.title := by
    simp only [Routes.table, List.map_append, List.map_map, Function.comp_def, Routes.title_route]
  rw [htitles, List.zipWith_map, List.zipWith_self]
  rfl

/-- The service of an accepted model corresponds to it: its routes, functions, handler methods,
readme and events are those of the commands, queries and events, each once and in order of name.
This is read from the texts of the modules, so no type may bring code of its own: the answers of
queries have no triple quotes, and the types of payloads stay in their lines. -/
theorem service_corresponds (h : m.violation? = none) (s : Settings)
    (hanswers : ∀ entry ∈ m.queries.entries, ∀ returns ∈ entry.2.returns,
      Source.Unquoted ((Scope.ofModel m).meaning returns.typeText))
    (hcommands : ∀ text ∈ Commands.shownTypes m,
      Source.Contained ((Scope.ofModel m).meaning text))
    (hevents : ∀ text ∈ Events.shownTypes m, Source.Contained ((Scope.ofModel m).meaning text)) :
    ∃ commands queries events, m.commands.InOrder commands ∧ m.queries.InOrder queries ∧
      m.events.InOrder events ∧ Project.Corresponds m s commands queries events := by
  have hinert := (Routes.inert_queryRoutes_iff m).2 hanswers
  have hroutes := Routes.registrations_text hinert
  have hmethods := Commands.abstractMethods_text hcommands (pascal_ne_commandHandler h)
  -- No event record is taken for the envelope, because the name of the envelope is reserved.
  have hevent : "DomainEvent" ∉ Events.eventNames m := fun hmem =>
    not_mem_reservedTypeNames h (eventNames_subset hmem) (by decide)
  have hnonempty (hne : m.events.sortedNames ≠ []) : Events.eventNames m ≠ [] := by
    simpa [Events.eventNames] using hne
  refine ⟨m.commands.sortedNames, m.queries.sortedNames, m.events.sortedNames,
    m.commands.inOrder_sortedNames, m.queries.inOrder_sortedNames, m.events.inOrder_sortedNames, ?_⟩
  exact
    { readable := ⟨Option.isSome_of_eq_some (Routes.madeOf_parts hinert).codeLines?_text,
        Option.isSome_of_eq_some (Commands.madeOf_parts hcommands).codeLines?_text,
        Option.isSome_of_eq_some (Events.madeOf_parts hevents).codeLines?_text⟩
      routes := by rw [hroutes, map_registered_table]
      paths := by
        rw [hroutes]
        exact nodup_paths h
      functions := by
        rw [hroutes, Routes.functionNames_text hinert, List.map_map]
        rfl
      once := by
        rw [hroutes, Routes.functionNames_text hinert]
        exact count_handlers h
      methods := hmethods
      distinctMethods := by
        rw [hmethods]
        exact nodup_handlerMethods h
      endpoints := by
        rw [hroutes, ← endpointLines]
        rfl
      records := fun hne => Events.recordNames_text hevents (hnonempty hne)
      distinctRecords := nodup_eventNames h
      entries := fun hne => Events.tableEntries_text hevents (hnonempty hne)
      tags := fun hne => Events.tags_text hevents (hnonempty hne) hevent
      variants := fun hne => Events.variants_text hevents (hnonempty hne) hevent }

/-- A model with two commands in one order and their sorted order another, a query whose name is a
reserved word, and an event. -/
def shipping : Model where
  version := "1.0"
  context := ⟨"Shipping", "acme.shipping", none⟩
  aggregates := .empty
  valueObjects := .empty
  events := ⟨[("ParcelShipped", ⟨"ParcelShipped", none, none, [.plain "parcel" "Parcel"]⟩)],
    by decide⟩
  commands := ⟨[("ShipParcel", ⟨"ShipParcel", none, none, [.plain "parcel" "Parcel"],
    ["ParcelShipped"], [], []⟩), ("2nd attempt", ⟨"2nd attempt", none, none, [], [], [], []⟩)],
    by decide⟩
  queries := ⟨[("from", ⟨"from", none, [], some ⟨"Parcel", false⟩⟩)], by decide⟩
  subscriptions := []
  aliases := .empty

theorem shipping_corresponds :
    shipping.violation? = none ∧ ∃ commands queries events,
      shipping.commands.InOrder commands ∧ shipping.queries.InOrder queries ∧
      shipping.events.InOrder events ∧
      Project.Corresponds shipping Settings.usual commands queries events := by
  have haccepted : shipping.violation? = none := by
    rw [violation?_eq_none_iff]
    intro rule
    cases rule <;> decide
  have hmeaning : (Scope.ofModel shipping).meaning "Parcel" = "Parcel" := by
    rw [Scope.meaning, TypeExpr.parse_of_not_mem (by decide)]
    decide
  have hcommands : ∀ text ∈ Commands.shownTypes shipping, text = "Parcel" := by
    intro text htext
    obtain ⟨entry, hentry, htext⟩ := List.mem_flatMap.1 htext
    rw [shipping.commands.sorted_perm.mem_iff] at hentry
    rcases List.mem_cons.1 hentry with rfl | hentry
    · exact List.mem_singleton.1 htext
    · rw [List.mem_singleton.1 hentry] at htext
      cases htext
  have hevents : ∀ text ∈ Events.shownTypes shipping, text = "Parcel" := by
    intro text htext
    obtain ⟨entry, hentry, htext⟩ := List.mem_flatMap.1 htext
    rw [shipping.events.sorted_perm.mem_iff] at hentry
    rw [List.mem_singleton.1 hentry] at htext
    exact List.mem_singleton.1 htext
  refine ⟨haccepted, service_corresponds haccepted Settings.usual ?_ ?_ ?_⟩
  · intro entry hentry returns hreturns
    rw [List.mem_singleton.1 hentry] at hreturns
    rw [← Option.some.inj hreturns, hmeaning]
    decide
  · intro text htext
    rw [hcommands text htext, hmeaning]
    decide
  · intro text htext
    rw [hevents text htext, hmeaning]
    decide

/-! #### A type that brings a function with it -/

section

open Source

/-- A type that ends the docstring it is shown in and starts a function. -/
def overlayType : String := "\"\"\"\nasync def ship():\n    \"\"\""

/-- A model whose query answers with that type. -/
def overlaid : Model where
  version := "1.0"
  context := ⟨"Depot", "acme.depot", none⟩
  aggregates := .empty
  valueObjects := .empty
  events := .empty
  commands := ⟨[("Ship", ⟨"Ship", none, none, [], [], [], []⟩)], by decide⟩
  queries := ⟨[("Find", ⟨"Find", none, [], some ⟨overlayType, false⟩⟩)], by decide⟩
  subscriptions := []
  aliases := .empty

/-- What the function for the query comes to: two functions, each with a docstring. -/
def overlaidPart : List Stretch := [
  .line "async def find():",
  ⟨["    \"\"\"Run Find.", "", "    Returns: \"\"\""], "    \"\"", ["Run Find.\n\n    Returns: "]⟩,
  .line "async def ship():",
  ⟨["    \"\"\"", "    \"\"\""], "    \"\"", ["\n    "]⟩] ++
  Stretch.lines 1 ["return ApiResponse(data=\x7b\"message\": \"Query result\"\x7d)"]

theorem isPart_overlaidPart : IsPart overlaidPart := by
  have hanswer : ∀ text ∈ ["return ApiResponse(data=\x7b\"message\": \"Query result\"\x7d)"],
      Run [] [text] text := runs_cons rfl runs_nil
  have hfound : (Stretch.mk ["    \"\"\"Run Find.", "", "    Returns: \"\"\""] "    \"\""
      ["Run Find.\n\n    Returns: "]).Sound := ⟨by decide, _, rfl, rfl, rfl⟩
  have hstarted : (Stretch.mk ["    \"\"\"", "    \"\"\""] "    \"\"" ["\n    "]).Sound :=
    ⟨by decide, _, rfl, rfl, rfl⟩
  refine IsPart.prepend (isPart_lines hanswer rfl (by simp) 1) ?_
  exact List.forall_mem_cons.2 ⟨Stretch.sound_fixed rfl, List.forall_mem_cons.2 ⟨hfound,
    List.forall_mem_cons.2 ⟨Stretch.sound_fixed rfl, List.forall_mem_singleton.2 hstarted⟩⟩⟩

theorem queryRoutes_overlaid : Routes.queryRoutes overlaid =
    [⟨"find", [], "Run Find.", ["Returns: " ++ overlayType], []⟩] := by
  have hsorted : overlaid.queries.sorted =
      [("Find", ⟨"Find", none, [], some ⟨overlayType, false⟩⟩)] := List.mergeSort_singleton _
  have hroute : Routes.queryRoute (Scope.ofModel overlaid) "Find"
      ⟨"Find", none, [], some ⟨overlayType, false⟩⟩ =
        ⟨"find", [], "Run Find.", ["Returns: " ++ overlayType], []⟩ := by
    decide +kernel
  rw [Routes.queryRoutes, hsorted, List.map_singleton]
  exact congrArg (fun r => [r]) hroute

theorem partText_overlaidPart : partText overlaidPart =
    (Routes.QueryRoute.mk "find" [] "Run Find." ["Returns: " ++ overlayType] []).block := by
  decide +kernel

/-- The parts of the routes module of that model. -/
def overlaidParts : List (List Stretch) :=
  [Routes.answerPart] ++ (Routes.commandRoutes overlaid).map Routes.CommandRoute.part ++
    [overlaidPart] ++ [Routes.routerPart (Routes.table overlaid)]

theorem map_partText_overlaidParts :
    overlaidParts.map partText = (Routes.sourceModule overlaid).blocks := by
  have hquery : partText (Routes.QueryRoute.mk "find" [] "Run Find." ["Returns: " ++ overlayType]
      []).part = partText overlaidPart :=
    (Routes.QueryRoute.partText_part (by simp)).trans partText_overlaidPart.symm
  rw [← Routes.map_partText_parts, Routes.parts, queryRoutes_overlaid, overlaidParts]
  simp only [List.map_append, List.map_singleton, hquery]

theorem madeOf_overlaidParts : (Routes.sourceModule overlaid).MadeOf
    ((Routes.sourceModule overlaid).allParts overlaidParts) := by
  have hparts : ∀ part ∈ overlaidParts, IsPart part := by
    intro part hpart
    simp only [overlaidParts, List.mem_append, List.mem_singleton, List.mem_map] at hpart
    rcases hpart with ((rfl | ⟨r, hr, rfl⟩) | rfl) | rfl
    · exact Routes.isPart_answers
    · exact Routes.isPart_commandRoute hr
    · exact isPart_overlaidPart
    · exact Routes.isPart_routerPart overlaid
  exact SourceModule.madeOf_allParts (Routes.inert_title overlaid) Routes.isPart_imports
    map_partText_overlaidParts hparts

/-- The checklist accepts a model in which the type of an answer defines the function of a command
once more. -/
theorem overlaid_accepted_with_second_function :
    overlaid.violation? = none ∧
      Routes.functionNames (Routes.sourceModule overlaid).text = ["ship", "find", "ship"] := by
  refine ⟨?_, ?_⟩
  · rw [violation?_eq_none_iff]
    intro rule
    cases rule <;> decide
  · have hsorted : overlaid.commands.sorted = [("Ship", ⟨"Ship", none, none, [], [], [], []⟩)] :=
      List.mergeSort_singleton _
    have hname : Name.routeHandler "Ship" = "ship" := by decide
    have hoverlaid : Routes.partFunctions overlaidPart = ["find", "ship"] := by decide
    rw [Routes.functionNames_of_madeOf madeOf_overlaidParts, overlaidParts, List.flatMap_append,
      List.flatMap_append, List.flatMap_append, Routes.flatMap_partFunctions_commandRoutes, hsorted,
      List.map_singleton, hname, List.flatMap_singleton, List.flatMap_singleton,
      List.flatMap_singleton, Routes.partFunctions_answerPart, hoverlaid,
      Routes.partFunctions_routerPart]
    rfl

end

end Model

end Groundplan
