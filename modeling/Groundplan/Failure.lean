import Groundplan.Decode.Checked
import Groundplan.Files.Read
import Groundplan.Model.Checklist
import Groundplan.Note
import Groundplan.Yaml.Fault

/-!
# Failures

Reading a model and writing a project can fail in several ways. Three are foreseen: a file cannot be
read or written, a document has not the form of a model, or a model violates a rule. The others are
rare: a part of the document cannot be built, a value object names its type by a collection, a
number has too many digits to be written, a type or a value is nested too deep, a text has
surrogates and cannot be encoded, a path is too long to be asked for or has a null character. A
failure ends the run.
-/

namespace Groundplan

/-- Why a document has not the form of a model. -/
inductive Malformation where
  | yaml
  | root
  | undecoded (faults : List DecodeFault)

def Malformation.message : Malformation → String
  | .yaml => "invalid YAML (...)"
  | .root => "document must contain a mapping at the root level"
  | .undecoded faults => DecodeFault.describe faults

/-- What cannot be done with a file. -/
inductive FileFault where
  | missing
  | unreadable (fault : ReadFault)
  | directory (refusal : Refusal)
  | unwritable (refusal : Refusal)
  deriving DecidableEq

def FileFault.message : FileFault → String
  | .missing => "IR document not found"
  | .unreadable fault => "Failed to read IR document (" ++ fault.message ++ ")"
  | .directory refusal => "Failed to create directory (" ++ refusal.message ++ ")"
  | .unwritable refusal => "Failed to write file (" ++ refusal.message ++ ")"

/-- Why a run ends. -/
inductive Failure where
  | document (source : Option String) (cause : Malformation)
  | violation (v : Violation)
  | file (path : Path) (fault : FileFault)
  | scalar (fault : Yaml.ScalarFault)
  | collectionType (kind : String)
  | unwritableNumber
  | deepType
  | deepValue
  | unencodable (fault : Text.EncodeFault)
  | unaskable (refusal : Refusal)
  | nullCharacter

namespace Failure

def message : Failure → String
  | .document source cause =>
    match source with
    | none | some "" => "Failed to parse IR document: " ++ cause.message
    | some name => "Failed to parse IR document " ++ name ++ ": " ++ cause.message
  | .violation v => v.message
  | .file path fault => fault.message ++ ": " ++ path.text
  | .scalar fault => fault.message
  | .collectionType kind => "unhashable type: '" ++ kind ++ "'"
  | .unwritableNumber => Text.unwritableMessage
  | .deepType => "maximum recursion depth exceeded while calling a Python object"
  | .deepValue => Value.deepMessage
  | .unencodable fault => fault.message
  | .unaskable refusal => refusal.message
  | .nullCharacter => "embedded null byte"

/-- Whether a failure is one that the command line reports in its own words. -/
def isReported : Failure → Bool
  | .document _ _ => true
  | .violation _ => true
  | .file _ _ => true
  | _ => false

end Failure

/-- Why nothing can be asked about a path, if nothing can. -/
def Failure.ofPath? (p : Path) : Option Failure :=
  match FileName.fault? p.text with
  | some fault => some (.unencodable fault)
  | none => if FileName.hasNull p.text then some .nullCharacter else none

/-- The failure of work that breaks off at an obstacle. -/
def Failure.ofObstacle : Obstacle → Failure
  | .unwritableNumber => .unwritableNumber
  | .deepType => .deepType
  | .deepValue => .deepValue

/-- What a piece of work comes to, unless it breaks off. -/
def Trail.result {α : Type} (t : Trail) (a : α) : Except Failure α :=
  match t.obstacle with
  | none => .ok a
  | some obstacle => .error (.ofObstacle obstacle)

end Groundplan
