import Groundplan.Project.Identity
import Groundplan.Source.Layout

/-!
# Package files

The root of the package carries the description and version of the project. The package of each
layer names what it exports.
-/

namespace Groundplan.Project

def packageRoot (m : Model) : String :=
  Source.fileText [
    "\"\"\"" ++ Text.docLine (description m),
    "",
    "Generated by StormForge from the domain model.",
    "\"\"\"",
    "",
    "__version__ = \"" ++ projectVersion ++ "\""]

/-- The file of a layer: what it is, where its names come from and which it exports. -/
def layer (summary importLine : String) (names : List String) : String :=
  Source.fileText (Source.docstring summary [] ++ [
    "",
    importLine,
    "",
    "__all__ = [" ++ ", ".intercalate (names.map Text.literal) ++ "]"])

def domainLayer (m : Model) : String :=
  layer ("Domain layer of the " ++ Text.docLine m.context.name ++ " bounded context.")
    "from . import commands, entities, events" ["commands", "entities", "events"]

def apiLayer : String :=
  layer "HTTP API layer." "from .routes import ApiError, ApiResponse, create_router"
    ["ApiError", "ApiResponse", "create_router"]

def infrastructureLayer : String :=
  layer "Infrastructure adapters."
    "from .event_store import ConcurrencyError, EventStore, InMemoryEventStore"
    ["ConcurrencyError", "EventStore", "InMemoryEventStore"]

end Groundplan.Project
