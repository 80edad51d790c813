import Groundplan.CommandLine.Run

/-!
# The program

The program looks at the places on the real disk that a command line can touch, carries the command
line out on what it saw, and then makes the changes that came of it.
-/

namespace Groundplan.CommandLine

/-- The paths that an invocation can touch. -/
def Invocation.paths : Invocation → List Path
  | .generate input output config _ _ _ =>
    input :: config.toList ++ Project.directoriesUnder output ++
      Project.renderers.map fun (path, _) => output.join path
  | .validate input _ => [input]

def Invocation.config? : Invocation → Option Path
  | .generate _ _ config _ _ _ => config
  | .validate _ _ => none

/-- What is at a location of the real disk. -/
def look (location : Path) : IO (Option Entry) := do
  try
    let real ← IO.FS.realPath location.text
    if ← real.isDir then return some .directory
    else return some (.file (← IO.FS.readBinFile real).toList)
  catch _ => return none

/-- What is at the given paths of the real disk and above them. -/
def snapshot (paths : List Path) : IO Disk := do
  let mut disk : Disk := []
  for path in paths do
    for beginning in path.beginnings do
      let location := beginning.location
      if let some entry ← look location then disk := disk.put location entry
  return disk

/-- Makes the changes that lead from one disk to another. -/
def commit (old new : Disk) : IO Unit := do
  for (location, entry) in new do
    if old.get? location ≠ some entry then
      match entry with
      | .directory => IO.FS.createDirAll location.text
      | .file content => IO.FS.writeBinFile location.text ⟨content.toArray⟩

/-- The variables that a settings file refers to. -/
def environment (disk : Disk) (config : Option Path) : IO Environment := do
  let text := (config.bind fun p => (disk.readText p).toOption).getD ""
  let values ← (Text.variableNames text).mapM fun name => do return (name, ← IO.getEnv name)
  return fun name => (values.lookup name).join

def usage : String := "\n".intercalate [
  "Usage: groundplan generate -i DOCUMENT -o DIRECTORY [-c SETTINGS]",
  "           [--package-name NAME] [--port NUMBER] [-v]",
  "       groundplan validate -i DOCUMENT [-v]"]

def Escape.message : Escape → String
  | .failure f => f.message
  | .settings f => f.message

/-- The bytes of a text that can be encoded. -/
def encoded (text : String) : ByteArray :=
  ⟨((Text.encodeUtf8 text).toOption.getD []).toArray⟩

/-- Carries out a command line on the real disk. -/
def perform (arguments : List String) : IO UInt32 := do
  match Invocation.parse? arguments with
  | none =>
    IO.eprintln usage
    return 2
  | some invocation =>
    let disk ← snapshot invocation.paths
    let result := invocation.run disk (← environment disk invocation.config?)
    commit disk result.disk
    (← IO.getStdout).write (encoded result.output)
    (← IO.getStderr).write (encoded result.log)
    result.warnings.forM fun warning => IO.eprintln warning
    if let .escaped cause := result.ending then IO.eprintln cause.message
    return result.exitCode.toUInt32

end Groundplan.CommandLine

def main (arguments : List String) : IO UInt32 :=
  Groundplan.CommandLine.perform arguments
