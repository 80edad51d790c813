import Groundplan.Render.Commands

/-!
# Routes

Each command is served by a POST route and each query by a GET route. A route has a path and a
function that serves it. The parameters of a query are bound from the query string as far as their
types are primitive; the others are named in a comment.
-/

namespace Groundplan.Routes

open Source

/-! ### The route table -/

/-- How a route is called. -/
inductive Method where
  | post
  | get
  deriving DecidableEq, Repr

def Method.name : Method → String
  | .post => "POST"
  | .get => "GET"

/-- A route: how it is called, its path, the function that serves it and what it does. -/
structure Route where
  method : Method
  path : String
  handler : String
  title : String
  deriving DecidableEq, Repr

def route (method : Method) (name : String) : Route where
  method := method
  path := Name.routePath name
  handler := Name.routeHandler name
  title := Name.pascal name

/-- Every route: those of the commands, then those of the queries, each in order of name. -/
def table (m : Model) : List Route :=
  m.commands.sortedNames.map (route .post) ++ m.queries.sortedNames.map (route .get)

/-! ### Serving functions -/

/-- The function that serves a command. -/
structure CommandRoute where
  name : String
  commandName : String
  summary : String
  details : List String
  deriving DecidableEq, Repr

/-- The function that serves a query. -/
structure QueryRoute where
  name : String
  parameters : List Declaration
  summary : String
  details : List String
  remarks : List String
  deriving DecidableEq, Repr

def commandRoute (name : String) (c : Command) : CommandRoute where
  name := Name.routeHandler name
  commandName := Name.pascal name
  summary := Text.docLineOr c.description ("Execute " ++ Name.pascal name ++ ".")
  details := Commands.producesLines c.produces

/-- Whether a parameter is bound from the query string. -/
def isBound (p : Property) : Bool :=
  (TypeExpr.parse p.typeText).isPrimitive

/-- A parameter that is bound from the query string. -/
def parameter (s : Scope) (p : Property) : Declaration where
  comment := none
  name := Name.field p.name
  hint := s.hint p
  initial := .call "Query"
    (.positional (.constant (if p.required then .ellipsis else .none)) ::
      Scope.labels (Name.field p.name) p)

/-- The docstring lines that say what a query answers with. -/
def returnsLines (s : Scope) : Option Returns → List String
  | none => []
  | some r =>
    let target := s.target r.typeText
    ["Returns: " ++ if r.nullable then TypeExpr.optional target else target]

def unboundRemark (p : Property) : String :=
  "# Parameter " ++ Text.commentLine p.name ++ " is not bound from the query string"

def queryRoute (s : Scope) (name : String) (q : Query) : QueryRoute where
  name := Name.routeHandler name
  parameters := (q.parameters.filter isBound).map (parameter s)
  summary := Text.docLineOr q.description ("Run " ++ Name.pascal name ++ ".")
  details := returnsLines s q.returns
  remarks := (q.parameters.filter fun p => !isBound p).map unboundRemark

/-- The functions that serve commands, in order of name. -/
def commandRoutes (m : Model) : List CommandRoute :=
  m.commands.sorted.map fun (name, c) => commandRoute name c

/-- The functions that serve queries, in order of name. -/
def queryRoutes (m : Model) : List QueryRoute :=
  m.queries.sorted.map fun (name, q) => queryRoute (Scope.ofModel m) name q

/-! ### Source -/

def CommandRoute.block (r : CommandRoute) : String :=
  Source.block ("async def " ++ r.name ++ "(payload: " ++ r.commandName ++ "):")
    (docstring r.summary r.details ++ [
      "try:",
      "    payload.validate()",
      "except CommandError as exc:",
      "    return JSONResponse(",
      "        status_code=status.HTTP_400_BAD_REQUEST,",
      "        content=ApiError(code=\"VALIDATION_ERROR\", message=exc.message).model_dump(),",
      "    )",
      "",
      "# Load the aggregate from the repository",
      "# Execute the command through the CommandHandler",
      "# Append the produced events to the event store",
      "# Publish the produced events",
      "return ApiResponse(data=\x7b\"message\": \"Command executed successfully\"\x7d)"])

/-- The lines up to the body of a function that serves a query. -/
def QueryRoute.signature (r : QueryRoute) : List String :=
  match r.parameters with
  | [] => ["async def " ++ r.name ++ "():"]
  | parameters =>
    ["async def " ++ r.name ++ "("] ++ parameters.map (fun p => "    " ++ p.line ++ ",") ++ ["):"]

def QueryRoute.block (r : QueryRoute) : String :=
  joinLines (r.signature ++ indent (docstring r.summary r.details ++ r.remarks ++
    ["return ApiResponse(data=\x7b\"message\": \"Query result\"\x7d)"]))

/-- The lines that register a route. -/
def Route.registration (r : Route) : List String := [
  "router.add_api_route(",
  "    " ++ Text.literal r.path ++ ",",
  "    " ++ r.handler ++ ",",
  "    methods=[" ++ Text.literal r.method.name ++ "],",
  "    response_model=ApiResponse,"] ++
  (match r.method with
    | .post => ["    responses=\x7b400: \x7b\"model\": ApiError\x7d\x7d,"]
    | .get => []) ++
  [")"]

/-- The source of the function that registers every route. -/
def router (routes : List Route) : String :=
  Source.block "def create_router() -> APIRouter:"
    (docstring "Router with one POST route per command and one GET route per query." [] ++
      ["router = APIRouter()"] ++ routes.flatMap Route.registration ++ ["return router"])

def imports : List (List Import) := [
  [.only "__future__" ["annotations"]],
  [.only "datetime" ["date", "datetime", "time"],
    .only "decimal" ["Decimal"],
    .only "typing" ["Any", "List", "Optional"],
    .only "uuid" ["UUID"]],
  [.only "fastapi" ["APIRouter", "Query", "status"],
    .only "fastapi.responses" ["JSONResponse"],
    .only "pydantic" ["BaseModel"]],
  [.everything "..domain.commands",
    .only "..domain.commands" ["CommandError"]]]

/-- The types that routes answer with. -/
def answerTypes : List String := [
  "class ApiError(BaseModel):",
  "    \"\"\"Error body returned by every failing route.\"\"\"",
  "",
  "    code: str",
  "    message: str",
  "",
  "",
  "class ApiResponse(BaseModel):",
  "    \"\"\"Success envelope returned by every route.\"\"\"",
  "",
  "    data: Any = None"]

def sourceModule (m : Model) : SourceModule where
  title := "HTTP routes for the " ++ Text.docLine m.context.name ++ " bounded context."
  imports := imports
  blocks := [joinLines answerTypes] ++ (commandRoutes m).map CommandRoute.block ++
    (queryRoutes m).map QueryRoute.block ++ [router (table m)]

def unboundNote (name : String) (p : Property) : Note :=
  ⟨.debug, .routes, "Query " ++ name ++ ": parameter " ++ p.name ++ " (" ++ p.typeText ++
    ") is not exposed as a query parameter"⟩

def parameterTrail (s : Scope) (name : String) (p : Property) : Trail :=
  if TypeExpr.depthLimit < (TypeExpr.parse p.typeText).listDepth then .stop .deepType
  else if isBound p then s.typeTrail p.typeText
  else .done [unboundNote name p]

def queryTrail (s : Scope) (name : String) (q : Query) : Trail :=
  Trail.each (fun (r : Returns) => s.typeTrail r.typeText) q.returns.toList ++
    Trail.each (parameterTrail s name) q.parameters

def trail (m : Model) : Trail :=
  Trail.each (fun (name, q) => queryTrail (Scope.ofModel m) name q) m.queries.sorted ++
    Trail.done [⟨.debug, .routes, "Generated " ++ Text.decimal m.commands.size ++
      " command routes and " ++ Text.decimal m.queries.size ++ " query routes"⟩]

end Groundplan.Routes
