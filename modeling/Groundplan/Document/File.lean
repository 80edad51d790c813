import Groundplan.Document
import Groundplan.Files.Read

/-!
# Document files

A document is read from a file of a disk. What is no file is reported as missing.
-/

namespace Groundplan.Document

def readFile (disk : Disk) (p : Path) : Except Failure String :=
  if let some refusal := disk.unaskable? p then .error (.unaskable refusal)
  else if disk.isFile p then (disk.readText p).mapError fun fault => .file p (.unreadable fault)
  else .error (.file p .missing)

/-- The model that a document file describes. The path is named in failures as it is given. -/
def parseFile (disk : Disk) (path : String) : Except Failure Model := do
  parse (some path) (← readFile disk (.ofString path))

/-- The notes that parsing a document file leaves. -/
def fileNotes (disk : Disk) (path : String) : List Note :=
  match readFile disk (.ofString path) with
  | .error _ => []
  | .ok text =>
    ⟨.debug, .reading, "Read " ++ Text.decimal (Text.size text) ++ " characters from " ++
      (Path.ofString path).text⟩ :: notes text

end Groundplan.Document
