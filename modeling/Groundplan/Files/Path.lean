/-!
# Paths

A path is an anchor, which is empty for a relative path, and names. Empty names and single dots do
not count; a double dot is kept, since what it means depends on the files. The path without an
anchor and names is written as a single dot.
-/

namespace Groundplan

structure Path where
  anchor : String
  parts : List String
  deriving DecidableEq, Repr

namespace Path

/-- The pieces of a text between slashes. -/
def pieces : List Char → List (List Char)
  | [] => [[]]
  | c :: cs =>
    match pieces cs with
    | [] => [[c]]
    | piece :: more => if c = '/' then [] :: piece :: more else (c :: piece) :: more

/-- The names in a text: its pieces without the empty ones and single dots. -/
def names (text : String) : List String :=
  ((pieces text.toList).map String.ofList).filter fun name => name ≠ "" && name ≠ "."

/-- The anchor of a text: two slashes at its start are kept, one or more than two count as one. -/
def anchorOf : List Char → String
  | '/' :: '/' :: '/' :: _ => "/"
  | '/' :: '/' :: _ => "//"
  | '/' :: _ => "/"
  | _ => ""

def ofString (text : String) : Path :=
  ⟨anchorOf text.toList, names text⟩

def text (p : Path) : String :=
  if p.anchor.isEmpty && p.parts.isEmpty then "."
  else p.anchor ++ "/".intercalate p.parts

/-- The path without its names: the working directory, or the top of all directories. -/
def base (p : Path) : Path :=
  { p with parts := [] }

def child (p : Path) (name : String) : Path :=
  { p with parts := p.parts ++ [name] }

/-- A path further down, by a relative text. -/
def join (p : Path) (relative : String) : Path :=
  { p with parts := p.parts ++ names relative }

def parent (p : Path) : Path :=
  { p with parts := p.parts.dropLast }

/-- The beginnings of a path, from its base to the whole. -/
def beginnings (p : Path) : List Path :=
  (List.range (p.parts.length + 1)).map fun n => { p with parts := p.parts.take n }

/-- The location above one. Above the working directory there are double dots only, and nothing is
above the top. -/
def above (location : Path) : Path :=
  match location.parts.getLast? with
  | none | some ".." => if location.anchor.isEmpty then location.child ".." else location
  | some _ => location.parent

/-- The location that a path leads to where every name in it is a directory. -/
def location (p : Path) : Path :=
  p.parts.foldl (fun here name => if name = ".." then here.above else here.child name) p.base

end Path

end Groundplan
