import Groundplan.Files.Disk
import Groundplan.Text.Utf8

/-!
# Text files

A text file is read as UTF-8, and every line break in it counts as one line feed. A text that
cannot be encoded leaves an empty file.
-/

namespace Groundplan

/-- Why a text cannot be read from a file. -/
inductive ReadFault where
  | refused (refusal : Refusal)
  | undecodable (fault : Text.Utf8Fault)
  deriving DecidableEq

def ReadFault.message : ReadFault → String
  | .refused refusal => refusal.message
  | .undecodable fault => fault.message

def Disk.readText (disk : Disk) (p : Path) : Except ReadFault String := do
  let content ← (disk.read p).mapError .refused
  let cs ← (Text.decodeUtf8 content).mapError .undecodable
  return String.ofList (Text.carry (Text.normalizeBreaks cs))

/-- Why a text cannot be written to a file. -/
inductive WriteFault where
  | refused (refusal : Refusal)
  | unencodable (fault : Text.EncodeFault)
  deriving DecidableEq

def Disk.writeText (disk : Disk) (p : Path) (text : String) : Disk × Option WriteFault :=
  let (content, fault) := match Text.encodeUtf8 text with
    | .ok content => (content, none)
    | .error fault => ([], some (WriteFault.unencodable fault))
  match disk.write p content with
  | .ok disk => (disk, fault)
  | .error refusal => (disk, some (.refused refusal))

end Groundplan
