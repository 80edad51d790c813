/-!
# Lines of generated source

Source is laid out as lines. Indentation pads every line but the empty ones; a docstring is one
line, or a summary, an empty line and a body; the blocks of a module are two empty lines apart.
-/

namespace Groundplan.Source

/-- The padding of a level of indentation. -/
def padding (level : Nat) : String :=
  String.ofList (List.replicate (4 * level) ' ')

/-- Lines moved to the right by some levels; empty lines stay empty. -/
def indentBy (level : Nat) (lines : List String) : List String :=
  lines.map fun line => if line.isEmpty then "" else padding level ++ line

/-- Lines moved to the right by one level. -/
def indent (lines : List String) : List String :=
  indentBy 1 lines

/-- The three quotes around a docstring. -/
def tripleQuote : String := "\"\"\""

/-- A docstring: its summary, and a body below it if there is one. -/
def docstring (summary : String) (body : List String) : List String :=
  if body.isEmpty then [tripleQuote ++ summary ++ tripleQuote]
  else [tripleQuote ++ summary, ""] ++ body ++ [tripleQuote]

def joinLines (lines : List String) : String :=
  "\n".intercalate lines

/-- Lines as the text of a file, which ends with a line feed. -/
def fileText (lines : List String) : String :=
  joinLines lines ++ "\n"

/-- Lines below an empty line, if there are any. -/
def spaced : List String → List String
  | [] => []
  | lines => "" :: lines

/-- Groups of lines with an empty line between neighbours; empty groups are left out. -/
def paragraphs (groups : List (List String)) : List String :=
  [""].intercalate (groups.filter fun group => !group.isEmpty)

/-- A first line with an indented body below it, as one text. -/
def block (first : String) (body : List String) : String :=
  joinLines (first :: indent body)

def trimNewlines (text : String) : String :=
  String.ofList (text.toList.reverse.dropWhile (· = '\n')).reverse

/-- Blocks with two empty lines between neighbours and a line feed at the end; empty blocks are
left out. -/
def joinBlocks (blocks : List String) : String :=
  "\n\n\n".intercalate ((blocks.filter fun block => !block.isEmpty).map trimNewlines) ++ "\n"

end Groundplan.Source
