import Groundplan.Source.Imports
import Groundplan.Source.Layout

/-!
# Generated modules

A module opens with a docstring that says what it holds and that it is generated. Its imports and
its blocks follow.
-/

namespace Groundplan.Source

/-- A generated module. -/
structure SourceModule where
  title : String
  imports : List (List Import)
  blocks : List String

namespace SourceModule

/-- The docstring of a module. -/
def header (m : SourceModule) : List String := [
  tripleQuote ++ m.title,
  "",
  "Generated by StormForge from the domain model. Regeneration",
  "overwrites this file.",
  tripleQuote]

def text (m : SourceModule) : String :=
  joinBlocks (joinLines m.header :: joinLines (importLines m.imports) :: m.blocks)

end SourceModule

end Groundplan.Source
