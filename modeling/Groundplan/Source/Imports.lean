/-!
# Imports of generated source

A module imports names from others, in groups with an empty line between them. Where it imports
every name, the line carries a remark for tools that would object to it.
-/

namespace Groundplan.Source

/-- An import from one module: some of its names, or all of them. -/
inductive Import where
  | only (source : String) (names : List String)
  | everything (source : String)
  deriving DecidableEq, Repr

namespace Import

def line : Import → String
  | .only source names => "from " ++ source ++ " import " ++ ", ".intercalate names
  | .everything source => "from " ++ source ++ " import *  # noqa: F401,F403"

/-- The names that an import binds by writing them. -/
def names : Import → List String
  | .only _ names => names
  | .everything _ => []

end Import

/-- Groups of imports as lines. -/
def importLines (groups : List (List Import)) : List String :=
  [""].intercalate (groups.map fun group => group.map Import.line)

end Groundplan.Source
