import Groundplan.Project.Identity
import Groundplan.Render.Routes

/-!
# The readme of a project

The readme says how to run the service, lists its endpoints in the order of the route table and
the events of other contexts that it listens to.
-/

namespace Groundplan.Project

open Routes (Route)

def endpointLine (apiPath : String) (r : Route) : String :=
  "- `" ++ r.method.name ++ " " ++ apiPath ++ r.path ++ "`: " ++ r.title

def subscriptionLine (s : Subscription) : String :=
  "- `" ++ s.context ++ "." ++ s.event ++ "` handled by `" ++ s.handler ++ "`" ++
    match s.description with
    | none | some "" => ""
    | some description => ": " ++ Text.flatten description

/-- Lines, or a remark that there are none. -/
def orNone : List String → List String
  | [] => ["None declared."]
  | lines => lines

/-- The lines of the readme up to the endpoints. -/
def introduction (m : Model) (s : Settings) : List String := [
  "# " ++ m.context.name,
  "",
  description m,
  "",
  "Generated by StormForge from the `" ++ m.context.name ++ "` domain model (IR version " ++
    m.version ++ ").",
  "",
  "## Getting started",
  "",
  "```bash",
  "pip install -e \".[dev]\"",
  "python -m " ++ packageName m s ++ ".main",
  "```",
  "",
  "The service listens on port " ++ Text.decimalInt s.servicePort ++ ".",
  "",
  "## API documentation",
  "",
  "- Swagger UI: http://localhost:" ++ Text.decimalInt s.servicePort ++ "/swagger-ui",
  "- OpenAPI document: http://localhost:" ++ Text.decimalInt s.servicePort ++
    "/api-docs/openapi.json",
  "",
  "## Endpoints",
  ""]

/-- The lines of the readme on the project's structure. -/
def structureLines (m : Model) (s : Settings) : List String := [
  "",
  "## Project layout",
  "",
  "```",
  "pyproject.toml",
  "src/                      # the `" ++ packageName m s ++ "` package",
  "  main.py                 # FastAPI application and entry point",
  "  domain/",
  "    entities.py           # aggregates and value objects",
  "    commands.py           # commands, CommandError, CommandHandler",
  "    events.py             # events, DomainEvent envelope, EventMetadata",
  "  api/",
  "    routes.py             # one POST route per command, one GET route per query",
  "  infrastructure/",
  "    event_store.py        # EventStore and InMemoryEventStore",
  "  repository/             # Repository and InMemoryRepository",
  "tests/",
  "```",
  "",
  "## Architecture",
  "",
  "- Commands are validated at the HTTP boundary and executed by a",
  "  `CommandHandler` implementation, which returns the events they produce.",
  "- Events are appended to the `EventStore` with an optimistic version check",
  "  per aggregate.",
  "- Aggregates are loaded and saved through a `Repository`.",
  "- Route handlers, command handlers and aggregate invariants are stubs to be",
  "  filled in.",
  "",
  "## External event subscriptions",
  ""]

def readme (m : Model) (s : Settings) : String :=
  Source.fileText (introduction m s ++
    orNone ((Routes.table m).map (endpointLine s.apiPath)) ++ structureLines m s ++
    orNone (m.subscriptions.map subscriptionLine))

end Groundplan.Project
