import Groundplan.Project.Manifest
import Groundplan.Project.Packages
import Groundplan.Project.Readme
import Groundplan.Project.Service
import Groundplan.Project.Stores
import Groundplan.Render.Entities
import Groundplan.Render.Events

/-!
# Projects

A project is rendered as a whole before anything is written: a text for each of its files, by path
below the output directory. The set of paths is the same for every model.
-/

namespace Groundplan

structure Project where
  package : String
  files : List (String × String)
  deriving DecidableEq, Repr

namespace Project

def directories : List String :=
  ["src", "src/domain", "src/api", "src/infrastructure", "src/repository", "tests"]

/-- The files of a project: the path of each, and how its text is rendered. -/
def renderers : List (String × (Model → Settings → String)) := [
  ("pyproject.toml", manifest),
  ("src/__init__.py", fun m _ => packageRoot m),
  ("src/main.py", service),
  ("src/domain/__init__.py", fun m _ => domainLayer m),
  ("src/domain/entities.py", fun m _ => (Entities.sourceModule m).text),
  ("src/domain/commands.py", fun m _ => (Commands.sourceModule m).text),
  ("src/domain/events.py", fun m _ => (Events.sourceModule m).text),
  ("src/api/__init__.py", fun _ _ => apiLayer),
  ("src/api/routes.py", fun m _ => (Routes.sourceModule m).text),
  ("src/infrastructure/__init__.py", fun _ _ => infrastructureLayer),
  ("src/infrastructure/event_store.py", fun _ _ => eventStore),
  ("src/repository/__init__.py", fun _ _ => repository),
  ("README.md", readme)]

def render (m : Model) (s : Settings) : Project where
  package := packageName m s
  files := renderers.map fun (path, text) => (path, text m s)

/-- The files of a project in order of path. -/
def sortedFiles (p : Project) : List (String × String) :=
  p.files.mergeSort fun a b => !(b.1 < a.1)

def paths (p : Project) : List String :=
  p.sortedFiles.map Prod.fst

def renderTrail (m : Model) (s : Settings) : Trail :=
  Entities.trail m ++ Commands.trail m ++ Events.trail m ++ Routes.trail m ++
    Trail.done [⟨.info, .assembly, "Rendered " ++ Text.decimal (render m s).files.length ++
      " files for package " ++ (render m s).package⟩]

end Project

end Groundplan
