/-!
# Notes

A run leaves notes about what it did and what looked wrong without being an error. A note has a
level, the part of the program it comes from and a message.

A piece of work can meet an obstacle: a number with too many digits to be written, or a type or a
value that is nested too deep. It breaks off there. Its *trail* holds the notes up to that point.
-/

namespace Groundplan

/-- How much a note matters. -/
inductive Level where
  | debug
  | info
  | warning
  deriving DecidableEq, Repr

/-- The part of the program that a note comes from. -/
inductive Origin where
  | reading
  | definitions
  | checklist
  | parsing
  | fields
  | entities
  | commands
  | events
  | routes
  | assembly
  deriving DecidableEq, Repr

structure Note where
  level : Level
  origin : Origin
  message : String
  deriving DecidableEq, Repr

namespace Level

def name : Level → String
  | .debug => "DEBUG"
  | .info => "INFO"
  | .warning => "WARNING"

/-- The name of a level, five characters wide at least. -/
def column : Level → String
  | .info => "INFO "
  | level => level.name

end Level

/-- The name under which a part of the program writes notes. -/
def Origin.name : Origin → String
  | .reading => "stormforge.ir.loader"
  | .definitions => "stormforge.ir.types"
  | .checklist => "stormforge.ir.validator"
  | .parsing => "stormforge.ir.parser"
  | .fields => "stormforge.generators.fields"
  | .entities => "stormforge.generators.entities"
  | .commands => "stormforge.generators.commands"
  | .events => "stormforge.generators.events"
  | .routes => "stormforge.generators.api"
  | .assembly => "stormforge.project.assembler"

namespace Note

/-- A note as a line of a log. -/
def line (n : Note) : String :=
  n.level.name ++ " " ++ n.origin.name ++ ": " ++ n.message

/-- A note as a line on the terminal. -/
def terminalLine (n : Note) : String :=
  n.level.column ++ " [" ++ n.origin.name ++ "] " ++ n.message

/-- The notes that are shown: all of them, or the warnings only. -/
def shown (verbose : Bool) (notes : List Note) : List Note :=
  notes.filter fun n => verbose || n.level = .warning

end Note

/-- What a piece of work can break off at. -/
inductive Obstacle where
  | unwritableNumber
  | deepType
  | deepValue
  deriving DecidableEq, Repr

/-- The notes that a piece of work leaves, and what it broke off at after them. -/
structure Trail where
  notes : List Note
  obstacle : Option Obstacle
  deriving DecidableEq, Repr

namespace Trail

/-- The trail of work that was done. -/
def done (notes : List Note) : Trail :=
  ⟨notes, none⟩

/-- The trail of work that breaks off at once. -/
def stop (obstacle : Obstacle) : Trail :=
  ⟨[], some obstacle⟩

def broken (t : Trail) : Bool :=
  t.obstacle.isSome

/-- The trail of one piece of work after another, unless the first broke off. -/
def append (first second : Trail) : Trail :=
  if first.broken then first else ⟨first.notes ++ second.notes, second.obstacle⟩

instance : Append Trail := ⟨append⟩

/-- The trail of the same work for each item of a list. -/
def each {α : Type} (f : α → Trail) : List α → Trail
  | [] => done []
  | a :: as => f a ++ each f as

end Trail

end Groundplan
