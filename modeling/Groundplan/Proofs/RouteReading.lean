import Groundplan.Proofs.CodeReading
import Groundplan.Proofs.ServiceParts

/-!
# What the routes module and the handler contract declare

The routes module registers routes and defines the functions that serve them; the contract of the
command handler has an abstract method for each command. Both are read here from the lines of code
of the whole text of the module, and compared with what the model calls for.

The text of a module is read as far as it is made of its parts. For the routes module this means
that the docstrings of queries are inert, for the commands module that the types of payloads are
contained: any other type could bring lines of code with it.
-/

namespace Groundplan

open Source

/-! ### Routes -/

namespace Routes

/-- A registration of a route as source gives it. -/
structure Registration where
  method : String
  path : String
  handler : String
  deriving DecidableEq, Repr

/-- What a route is registered as. -/
def Route.registered (r : Route) : Registration :=
  ⟨r.method.name, r.path, r.handler⟩

/-- Reads a registration from its line of code. -/
def registration? (line : String) : Option Registration := do
  let opening := "    router.add_api_route(        \""
  let path ← between? opening '"' line
  let handler ← between? (opening ++ path ++ "\",        ") ',' line
  let method ← between? (opening ++ path ++ "\",        " ++ handler ++ ",        methods=[\"") '"'
    line
  return ⟨method, path, handler⟩

/-- The registrations in the function that makes the router. -/
def registrations (text : String) : List Registration :=
  (codeLines? text).toList.flatMap fun lines =>
    (bodies "def create_router(" lines).flatMap fun body => body.filterMap registration?

/-- The names of the functions that serve routes. -/
def functionNames (text : String) : List String :=
  (codeLines? text).toList.flatMap fun lines => lines.filterMap (between? "async def " '(')

/-- A registration is read from the line of code that makes it. -/
theorem registration?_eq {r : Route} (hpath : Name.IsPlain r.path)
    (hhandler : Name.IsPlain r.handler) :
    registration? (String.join (indent r.registration)) = some r.registered := by
  have hmethod : Name.IsPlain r.method.name := by cases r.method <;> decide
  -- The lines are joined within the bracket, so that their indentation stands in the line of code.
  have hline : ∃ rest, String.join (indent r.registration) =
      "    router.add_api_route(        \"" ++ (r.path ++ ("\",        " ++ (r.handler ++
        (",        methods=[\"" ++ (r.method.name ++ ("\"" ++ rest)))))) := by
    refine ⟨String.join (("]," ++ "") :: indent (r.registration.drop 4)), ?_⟩
    unfold Route.registration
    rw [← String.toList_inj, literal_eq_of_isPlain hpath, literal_eq_of_isPlain hmethod]
    simp [indent, indentBy, padding]
  obtain ⟨rest, hline⟩ := hline
  have hreadPath : between? "    router.add_api_route(        \"" '"'
      (String.join (indent r.registration)) = some r.path :=
    between?_eq _ hline (by simp) (stop_not_mem hpath (by decide))
  have hreadHandler : between? ("    router.add_api_route(        \"" ++ r.path ++ "\",        ")
      ',' (String.join (indent r.registration)) = some r.handler := by
    refine between?_eq (",        methods=[\"" ++ (r.method.name ++ ("\"" ++ rest)))
      (hline.trans ?_) (by simp) (stop_not_mem hhandler (by decide))
    simp only [String.append_assoc]
  have hreadMethod : between? ("    router.add_api_route(        \"" ++ r.path ++
      "\",        " ++ r.handler ++ ",        methods=[\"") '"'
      (String.join (indent r.registration)) = some r.method.name := by
    refine between?_eq ("\"" ++ rest) (hline.trans ?_) (by simp) (stop_not_mem hmethod (by decide))
    simp only [String.append_assoc]
  simp only [registration?, hreadPath, hreadHandler, hreadMethod, Option.bind_eq_bind,
    Option.bind_some]
  rfl

theorem registration?_eq_none {line : String}
    (h : begins "    router.add_api_route(        \"" line = false) :
    registration? line = none := by
  rw [registration?, between?_eq_none h]
  rfl

/-- The lines of the function that makes the router give the routes that it is given. -/
theorem filterMap_registration? {routes : List Route}
    (h : ∀ r ∈ routes, Name.IsPlain r.path ∧ Name.IsPlain r.handler) :
    ((routerPart routes).tail.map Stretch.code).filterMap registration? =
      routes.map Route.registered := by
  have hdoc : registration? (Stretch.doc ⟨1, routerDocstring.summary, []⟩).code = none :=
    registration?_eq_none (by simp [Stretch.doc, padding, begins, after?, TypeExpr.dropOpening?])
  have hcreate : registration? "    router = APIRouter()" = none :=
    registration?_eq_none (by simp [begins, after?, TypeExpr.dropOpening?])
  have hreturn : registration? "    return router" = none :=
    registration?_eq_none (by simp [begins, after?, TypeExpr.dropOpening?])
  have hlines : (routes.map fun r => String.join (indent r.registration)).filterMap registration? =
      routes.map Route.registered :=
    filterMap_map_eq_map fun r hr => registration?_eq (h r hr).1 (h r hr).2
  have hcode : (routerPart routes).tail.map Stretch.code =
      (Stretch.doc ⟨1, routerDocstring.summary, []⟩).code :: "    router = APIRouter()" ::
        ((routes.map fun r => String.join (indent r.registration)) ++ ["    return router"]) := by
    simp [routerPart, blockPart, Stretch.line, Stretch.joined, indentBy, padding]
  rw [hcode, List.filterMap_cons_none hdoc, List.filterMap_cons_none hcreate,
    List.filterMap_append, hlines, List.filterMap_cons_none hreturn]
  simp

theorem isInner_join {first : String} (h : first.toList.head? = some ' ') (lines : List String) :
    isInner (String.join (first :: lines)) = true := by
  obtain ⟨cs, hcs⟩ := List.head?_eq_some_iff.1 h
  simp [isInner, hcs]

theorem isDefinition_routerPart (routes : List Route) :
    IsDefinition "def create_router() -> APIRouter:" (routerPart routes) := by
  have hregistration (r : Route) : indent r.registration =
      "    router.add_api_route(" :: indent r.registration.tail := by
    simp only [Route.registration, List.cons_append, List.tail_cons]
    rw [indent_cons (by simp), padding_one]
    simp
  refine isDefinition_blockPart fun s hs => ?_
  rcases List.mem_append.1 hs with hs | hs
  · exact Stretch.isInner_of_mem_lines 0 _ s hs
  rcases List.mem_append.1 hs with hs | hs
  · obtain ⟨r, -, rfl⟩ := List.mem_map.1 hs
    rw [hregistration, Stretch.joined]
    dsimp only
    exact isInner_join (by simp) _
  · exact Stretch.isInner_of_mem_lines 0 _ s hs

theorem CommandRoute.isDefinition_part (r : CommandRoute) :
    ∃ rest, IsDefinition ("async def " ++ (r.name ++ ("(" ++ rest))) r.part := by
  have hhead : "async def " ++ r.name ++ "(payload: " ++ r.commandName ++ "):" =
      "async def " ++ (r.name ++ ("(" ++ ("payload: " ++ r.commandName ++ "):"))) := by
    rw [← String.toList_inj]
    simp
  refine ⟨"payload: " ++ r.commandName ++ "):", ?_⟩
  rw [← hhead]
  refine isDefinition_blockPart fun s hs => ?_
  simp only [List.mem_cons, List.mem_append] at hs
  rcases hs with hs | rfl | hs | hs | hs
  · exact Stretch.isInner_of_mem_lines 0 _ s hs
  · exact isInner_join (by simp) _
  · exact Stretch.isInner_of_mem_lines 0 _ s hs
  · exact Stretch.isInner_of_mem_remarks 0 _ s hs
  · exact Stretch.isInner_of_mem_lines 0 _ s hs

theorem QueryRoute.isDefinition_part (r : QueryRoute) :
    ∃ rest, IsDefinition ("async def " ++ (r.name ++ ("(" ++ rest))) r.part := by
  have hsignature : ∃ rest,
      String.join r.signature = "async def " ++ (r.name ++ ("(" ++ rest)) := by
    unfold signature
    split
    · exact ⟨"):", by simp [String.append_assoc]⟩
    · rw [List.append_assoc, List.singleton_append, String.join_cons]
      exact ⟨_, by simp only [String.append_assoc]; rfl⟩
  obtain ⟨rest, hrest⟩ := hsignature
  refine ⟨rest, ?_⟩
  rw [← hrest]
  refine isDefinition_blockPart fun s hs => ?_
  rcases List.mem_append.1 hs with hs | hs
  · exact Stretch.isInner_of_mem_remarks 0 _ s hs
  · exact Stretch.isInner_of_mem_lines 0 _ s hs

/-- The answer types are classes. -/
theorem begins_answerPart {mark : String} {c : Char} (hmark : mark.toList.head? = some c)
    (hblank : c ≠ ' ') (hclass : c ≠ 'c') : ∀ s ∈ answerPart, begins mark s.code = false := by
  have hlines : ∀ line ∈ answerPart.map Stretch.code,
      isInner line = true ∨ line.toList.head? = some 'c' := by
    simp [answerPart, answerTypes, Stretch.doc, isInner, errorBodyDocstring,
      successDocstring, indentBy, padding]
  intro s hs
  rcases hlines s.code (List.mem_map_of_mem hs) with hinner | hhead
  · exact begins_eq_false_of_isInner hmark hblank hinner
  · exact begins_eq_false hmark (by simpa [hhead] using hclass.symm)

theorem begins_function {name mark : String} {c : Char} (hmark : mark.toList.head? = some c)
    (hblank : c ≠ ' ') (hfunction : c ≠ 'a') {part : List Stretch}
    (h : ∃ rest, IsDefinition ("async def " ++ (name ++ ("(" ++ rest))) part) :
    ∀ s ∈ part, begins mark s.code = false := by
  obtain ⟨rest, hpart⟩ := h
  exact hpart.begins_eq_false hmark hblank
    (begins_eq_false hmark (by simpa using hfunction.symm))

/-- The names of the functions in a part. -/
def partFunctions (part : List Stretch) : List String :=
  (part.map Stretch.code).filterMap (between? "async def " '(')

/-- The functions of a module are those of its parts. -/
theorem functionNames_of_madeOf {m : SourceModule} {parts : List (List Stretch)}
    (h : m.MadeOf (m.allParts parts)) : functionNames m.text = parts.flatMap partFunctions := by
  have hempty : between? "async def " '(' "" = none := by decide
  rw [functionNames, h.codeLines?_text, Option.toList_some, List.flatMap_singleton]
  exact (filterMap_codeOf hempty _).trans
    (m.flatMap_filterMap_allParts (c := 'a') (by simp) (by decide) (by decide) _ _)

theorem partFunctions_answerPart : partFunctions answerPart = [] :=
  filterMap_between?_eq_nil (begins_answerPart (c := 'a') (by simp) (by decide) (by decide)) _

theorem partFunctions_routerPart (routes : List Route) :
    partFunctions (routerPart routes) = [] := by
  rw [partFunctions, (isDefinition_routerPart routes).filterMap_between? (c := 'a') (by simp)
    (by decide), between?_eq_none (begins_eq_false (c := 'a') (by simp) (by simp))]
  rfl

theorem partFunctions_eq {name : String} (hname : Name.IsPlain name) {part : List Stretch}
    (h : ∃ rest, IsDefinition ("async def " ++ (name ++ ("(" ++ rest))) part) :
    partFunctions part = [name] := by
  obtain ⟨rest, hpart⟩ := h
  have hread : between? "async def " '(' ("async def " ++ (name ++ ("(" ++ rest))) = some name :=
    between?_eq _ rfl (by simp) (stop_not_mem hname (by decide))
  rw [partFunctions, hpart.filterMap_between? (c := 'a') (by simp) (by decide), hread,
    Option.toList_some]

theorem flatMap_partFunctions_commandRoutes (m : Model) :
    ((commandRoutes m).map CommandRoute.part).flatMap partFunctions =
      m.commands.sorted.map fun entry => Name.routeHandler entry.1 := by
  have hcommand (entry : String × Command) :
      partFunctions (commandRoute entry.1 entry.2).part = [Name.routeHandler entry.1] := by
    have hpart := (commandRoute entry.1 entry.2).isDefinition_part
    rw [name_commandRoute] at hpart
    exact partFunctions_eq (Name.isPlain_routeHandler entry.1) hpart
  rw [commandRoutes, List.map_map, List.flatMap_map, List.map_eq_flatMap]
  exact congrArg m.commands.sorted.flatMap (funext hcommand)

theorem flatMap_partFunctions_queryRoutes (m : Model) :
    ((queryRoutes m).map QueryRoute.part).flatMap partFunctions =
      m.queries.sorted.map fun entry => Name.routeHandler entry.1 := by
  have hquery (entry : String × Query) :
      partFunctions (queryRoute (Scope.ofModel m) entry.1 entry.2).part =
        [Name.routeHandler entry.1] := by
    have hpart := (queryRoute (Scope.ofModel m) entry.1 entry.2).isDefinition_part
    rw [name_queryRoute] at hpart
    exact partFunctions_eq (Name.isPlain_routeHandler entry.1) hpart
  rw [queryRoutes, List.map_map, List.flatMap_map, List.map_eq_flatMap]
  exact congrArg m.queries.sorted.flatMap (funext hquery)

variable {m : Model}

/-- The routes module registers the routes of the table and nothing else. -/
theorem registrations_text (h : ∀ r ∈ queryRoutes m, Inert r.docstring.content) :
    registrations (sourceModule m).text = (table m).map Route.registered := by
  have hroute (method : Method) (name : String) :
      Name.IsPlain (route method name).path ∧ Name.IsPlain (route method name).handler := by
    rw [path_route, handler_route]
    exact ⟨Name.isPlain_routePath name, Name.isPlain_routeHandler name⟩
  have hplain : ∀ r ∈ table m, Name.IsPlain r.path ∧ Name.IsPlain r.handler := by
    intro r hmem
    rw [table, List.mem_append, List.mem_map, List.mem_map] at hmem
    rcases hmem with ⟨name, -, rfl⟩ | ⟨name, -, rfl⟩
    · exact hroute .post name
    · exact hroute .get name
  -- The router is the last part; the functions above it start with another keyword.
  let above := [answerPart] ++ (commandRoutes m).map CommandRoute.part ++
    (queryRoutes m).map QueryRoute.part
  have habove : ∀ part ∈ above, ∀ s ∈ part, begins "def create_router(" s.code = false := by
    intro part hpart
    simp only [above, List.mem_append, List.mem_singleton, List.mem_map] at hpart
    rcases hpart with (rfl | ⟨r, -, rfl⟩) | ⟨r, -, rfl⟩
    · exact begins_answerPart (c := 'd') (by simp) (by decide) (by decide)
    · exact begins_function (c := 'd') (by simp) (by decide) (by decide) r.isDefinition_part
    · exact begins_function (c := 'd') (by simp) (by decide) (by decide) r.isDefinition_part
  have hrouter : ∃ n, bodies "def create_router("
      (codeOf ((sourceModule m).allParts above ++ [routerPart (table m)])) =
        [(routerPart (table m)).tail.map Stretch.code ++ List.replicate n ""] :=
    (isDefinition_routerPart (table m)).bodies_codeOf (c := 'd') (by simp) (by decide) (by decide)
      ((sourceModule m).begins_allParts (c := 'd') (by simp) (by decide) (by decide) habove)
      (by simp) (by simp)
  obtain ⟨n, hbodies⟩ := hrouter
  have hempty : (List.replicate n "").filterMap registration? = [] := by
    refine List.filterMap_eq_nil_iff.2 fun line hline => ?_
    rw [List.eq_of_mem_replicate hline]
    exact registration?_eq_none (begins_eq_false (c := ' ') (by simp) (by simp))
  have hcode : codeLines? (sourceModule m).text =
      some (codeOf ((sourceModule m).allParts above ++ [routerPart (table m)])) :=
    (madeOf_parts h).codeLines?_text
  rw [registrations, hcode, Option.toList_some, List.flatMap_singleton, hbodies,
    List.flatMap_singleton, List.filterMap_append, filterMap_registration? hplain, hempty,
    List.append_nil]

/-- The functions of the routes module are those that the table names, in its order. -/
theorem functionNames_text (h : ∀ r ∈ queryRoutes m, Inert r.docstring.content) :
    functionNames (sourceModule m).text = (table m).map Route.handler := by
  have htable : (table m).map Route.handler =
      (m.commands.sorted.map fun entry => Name.routeHandler entry.1) ++
        m.queries.sorted.map fun entry => Name.routeHandler entry.1 := by
    simp only [table, Catalog.sortedNames, List.map_append, List.map_map, Function.comp_def,
      handler_route]
  rw [functionNames_of_madeOf (madeOf_parts h), parts, List.flatMap_append, List.flatMap_append,
    List.flatMap_append, List.flatMap_singleton, partFunctions_answerPart,
    flatMap_partFunctions_commandRoutes, flatMap_partFunctions_queryRoutes, List.flatMap_singleton,
    partFunctions_routerPart, htable, List.nil_append, List.append_nil]

end Routes

/-! ### The handler contract -/

namespace Commands

/-- Reads the name of the method below an abstract mark. -/
def methodName? (lines : List String) : Option String :=
  lines.head?.bind (between? "    async def " '(')

/-- The names of the abstract methods of the handler contract. -/
def abstractMethods (text : String) : List String :=
  (codeLines? text).toList.flatMap fun lines =>
    (bodies "class CommandHandler(" lines).flatMap (readBelow "    @abstractmethod" methodName?)

/-- The lines of one method give its name and no other. -/
theorem readBelow_method {h : HandlerMethod} (hname : Name.IsPlain h.name) (rest : List String) :
    readBelow "    @abstractmethod" methodName? (h.stretches.map Stretch.code ++ rest) =
      h.name :: readBelow "    @abstractmethod" methodName? rest := by
  let signature := "    async def " ++ (h.name ++ ("(" ++ ("self, command: " ++ h.commandName ++
    ") -> List[DomainEvent]:")))
  have hsignature : padding 1 ++ ("async def " ++ h.name ++ "(self, command: " ++ h.commandName ++
      ") -> List[DomainEvent]:") = signature := by
    rw [← String.toList_inj]
    simp [signature, padding]
  have hcode : h.stretches.map Stretch.code =
      "" :: "    @abstractmethod" :: signature :: ["        \"\"", "        ..."] := by
    rw [← hsignature]
    simp [HandlerMethod.stretches, HandlerMethod.docstring, Stretch.doc, indentBy, padding]
  have hread (rest : List String) : methodName? (signature :: rest) = some h.name := by
    rw [methodName?, List.head?_cons, Option.bind_some]
    exact between?_eq _ rfl (by simp) (stop_not_mem hname (by decide))
  have hempty : begins "    @abstractmethod" "" = false := by decide
  have hmark : begins "    @abstractmethod" "    @abstractmethod" = true := by decide
  -- No line below the mark is marked again, so that the next name is that of the next method.
  have hbelow : ∀ line ∈ signature :: ["        \"\"", "        ..."],
      begins "    @abstractmethod" line = false := by
    simp [signature, begins, after?, TypeExpr.dropOpening?]
  rw [hcode, List.cons_append, readBelow, if_neg (by simp [hempty]), List.cons_append, readBelow,
    if_pos hmark, List.cons_append, hread, ← List.cons_append, readBelow_append _ hbelow]
  rfl

theorem readBelow_methods {methods : List HandlerMethod}
    (h : ∀ method ∈ methods, Name.IsPlain method.name) (rest : List String) :
    readBelow "    @abstractmethod" methodName?
        ((methods.flatMap HandlerMethod.stretches).map Stretch.code ++ rest) =
      methods.map HandlerMethod.name ++ readBelow "    @abstractmethod" methodName? rest := by
  induction methods with
  | nil => rfl
  | cons method methods ih =>
      obtain ⟨hmethod, hmethods⟩ := List.forall_mem_cons.1 h
      rw [List.flatMap_cons, List.map_append, List.append_assoc, readBelow_method hmethod,
        ih hmethods]
      rfl

theorem isDefinition_contractPart (m : Model) :
    IsDefinition "class CommandHandler(ABC):" (contractPart m) := by
  refine isDefinition_blockPart fun s hs => ?_
  obtain ⟨method, -, hs⟩ := List.mem_flatMap.1 hs
  rcases List.mem_append.1 hs with hs | hs
  · exact Stretch.isInner_of_mem_lines 0 _ s hs
  rcases List.mem_cons.1 hs with rfl | hs
  · exact Stretch.isInner_doc (by simp [HandlerMethod.docstring])
  · exact Stretch.isInner_of_mem_lines 1 _ s hs

theorem CommandType.isDefinition_part (t : CommandType) :
    IsDefinition ("class " ++ (t.name ++ ("(" ++ "DomainModel):"))) t.part := by
  refine isDefinition_classPart t.name "DomainModel):" fun s hs => ?_
  simp only [List.mem_cons, List.mem_append] at hs
  rcases hs with hs | hs | rfl | hs | hs
  · refine Stretch.isInner_of_mem_spaced (fun s hs => ?_) s hs
    obtain ⟨d, -, hs⟩ := List.mem_flatMap.1 hs
    exact Stretch.isInner_of_mem_commented 0 _ _ s hs
  · exact Stretch.isInner_of_mem_lines 0 _ s hs
  · exact Stretch.isInner_doc (by simp [validateDocstring])
  · exact Stretch.isInner_of_mem_remarks 1 _ s hs
  · exact Stretch.isInner_of_mem_lines 1 _ s hs

/-- The error types are classes of other names than the contract. -/
theorem begins_errorPart :
    ∀ s ∈ errorPart, begins "class CommandHandler(" s.code = false := by
  have htypes : ∀ line ∈ errorTypes, begins "class CommandHandler(" line = false := by
    repeat refine List.forall_mem_cons.2 ⟨begins_ofList rfl, ?_⟩
    exact List.forall_mem_nil _
  have hlines {texts : List String} (hsub : texts ⊆ errorTypes) :
      ∀ s ∈ Stretch.lines 0 texts, begins "class CommandHandler(" s.code = false :=
    fun s hs => htypes _ (hsub (Stretch.code_mem_of_mem_lines hs))
  have hdoc (summary : String) :
      begins "class CommandHandler(" (Stretch.doc ⟨1, summary, []⟩).code = false :=
    begins_eq_false_of_isInner (c := 'c') (by simp) (by decide) (Stretch.isInner_doc (by simp))
  intro s hs
  simp only [errorPart, List.mem_append, List.mem_cons] at hs
  rcases hs with hs | rfl | hs | rfl | hs
  · exact hlines (List.take_subset _ _) s hs
  · exact hdoc _
  · exact hlines (List.Subset.trans (List.take_subset _ _) (List.drop_subset _ _)) s hs
  · exact hdoc _
  · exact hlines (List.drop_subset _ _) s hs

theorem begins_commandTypes {m : Model}
    (h : ∀ name ∈ m.commands.sortedNames, Name.pascal name ≠ "CommandHandler") :
    ∀ t ∈ types m, ∀ s ∈ t.part, begins "class CommandHandler(" s.code = false := by
  intro t ht
  obtain ⟨entry, hentry, rfl⟩ := List.mem_map.1 ht
  have hother := h entry.1 (List.mem_map_of_mem hentry)
  have hname : (commandType (Scope.ofModel m) entry.1 entry.2).name = Name.pascal entry.1 := by
    simp only [commandType]
  have hdefinition := (commandType (Scope.ofModel m) entry.1 entry.2).isDefinition_part
  rw [hname] at hdefinition
  refine hdefinition.begins_eq_false (c := 'c') (by simp) (by decide) ?_
  exact begins_class_eq_false "CommandHandler" (by decide) (Name.isPlain_pascal entry.1) hother _

/-- The lines of the contract give its methods, with some empty lines below them or none. -/
theorem readBelow_contractPart (m : Model) (n : Nat) :
    readBelow "    @abstractmethod" methodName?
        ((contractPart m).tail.map Stretch.code ++ List.replicate n "") =
      m.commands.sortedNames.map Name.handlerMethod := by
  have hplain : ∀ method ∈ handlerMethods m, Name.IsPlain method.name := by
    intro method hmem
    obtain ⟨entry, -, rfl⟩ := List.mem_map.1 hmem
    exact Name.isPlain_handlerMethod entry.1
  have hmethods : (handlerMethods m).map HandlerMethod.name =
      m.commands.sortedNames.map Name.handlerMethod := by
    rw [handlerMethods, Catalog.sortedNames, List.map_map, List.map_map]
    rfl
  have hdoc :
      begins "    @abstractmethod" (Stretch.doc ⟨1, contractSummary m, []⟩).code = false := by
    simp [Stretch.doc, padding, begins, after?, TypeExpr.dropOpening?]
  have hempty : readBelow "    @abstractmethod" methodName? (List.replicate n "") = [] := by
    refine readBelow_eq_nil _ fun line hline => ?_
    rw [List.eq_of_mem_replicate hline]
    decide
  rw [contractPart, blockPart, List.tail_cons, List.map_cons, List.cons_append, readBelow,
    if_neg (by simp [hdoc]), readBelow_methods hplain, hempty, List.append_nil, hmethods]

/-- The handler contract has one abstract method for each command, in order of name, provided that
no command takes the name of the contract. -/
theorem abstractMethods_text {m : Model}
    (h : ∀ text ∈ shownTypes m, Contained ((Scope.ofModel m).meaning text))
    (hnames : ∀ name ∈ m.commands.sortedNames, Name.pascal name ≠ "CommandHandler") :
    abstractMethods (sourceModule m).text = m.commands.sortedNames.map Name.handlerMethod := by
  let above := errorPart :: (types m).map CommandType.part
  have habove : ∀ part ∈ above, ∀ s ∈ part, begins "class CommandHandler(" s.code = false := by
    intro part hpart
    rcases List.mem_cons.1 hpart with rfl | hpart
    · exact begins_errorPart
    · obtain ⟨t, ht, rfl⟩ := List.mem_map.1 hpart
      exact begins_commandTypes hnames t ht
  have hcontract : ∃ n, bodies "class CommandHandler("
      (codeOf ((sourceModule m).allParts above ++ [contractPart m])) =
        [(contractPart m).tail.map Stretch.code ++ List.replicate n ""] :=
    (isDefinition_contractPart m).bodies_codeOf (c := 'c') (by simp) (by decide) (by decide)
      ((sourceModule m).begins_allParts (c := 'c') (by simp) (by decide) (by decide) habove)
      (by simp) (by simp)
  obtain ⟨n, hbodies⟩ := hcontract
  have hcode : codeLines? (sourceModule m).text =
      some (codeOf ((sourceModule m).allParts above ++ [contractPart m])) :=
    (madeOf_parts h).codeLines?_text
  rw [abstractMethods, hcode, Option.toList_some, List.flatMap_singleton, hbodies,
    List.flatMap_singleton, readBelow_contractPart]

end Commands

end Groundplan
