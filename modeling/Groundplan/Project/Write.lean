import Groundplan.Failure
import Groundplan.Project.Basic

/-!
# Writing projects

The directories of a project are made first, the output directory before all others; then the
files are written in order of path. Writing stops at the first refusal, and what was done until
then stays.
-/

namespace Groundplan.Project

/-- What came of writing a project. -/
structure Writing where
  disk : Disk
  written : List Path
  failure : Option Failure

/-- Makes directories one after the other, up to the first refusal. -/
def makeAll (disk : Disk) : List Path → Disk × Option Failure
  | [] => (disk, none)
  | p :: ps =>
    match disk.makeDirectories p with
    | (disk, none) => makeAll disk ps
    | (disk, some refusal) => (disk, some (.file p (.directory refusal)))

/-- Writes one file, below directories that are made as far as they are missing. -/
def writeFile (disk : Disk) (p : Path) (text : String) : Disk × Option WriteFault :=
  match disk.makeDirectories p.parent with
  | (disk, some refusal) => (disk, some (.refused refusal))
  | (disk, none) => disk.writeText p text

/-- What a fault in writing a file means for a project. -/
def failureOf (p : Path) : WriteFault → Failure
  | .refused refusal => .file p (.unwritable refusal)
  | .unencodable fault => .unencodable fault

/-- Writes files one after the other, up to the first refusal. -/
def writeAll (disk : Disk) : List (Path × String) → Writing
  | [] => ⟨disk, [], none⟩
  | (p, text) :: files =>
    match writeFile disk p text with
    | (disk, some fault) => ⟨disk, [], some (failureOf p fault)⟩
    | (disk, none) =>
      let rest := writeAll disk files
      { rest with written := p :: rest.written }

def directoriesUnder (root : Path) : List Path :=
  root :: directories.map root.join

/-- The files of a project under an output directory, in order of path. -/
def filesUnder (root : Path) (p : Project) : List (Path × String) :=
  p.sortedFiles.map fun (path, text) => (root.join path, text)

def write (disk : Disk) (root : Path) (p : Project) : Writing :=
  match Failure.ofPath? root with
  | some failure => ⟨disk, [], some failure⟩
  | none =>
    match makeAll disk (directoriesUnder root) with
    | (disk, some failure) => ⟨disk, [], some failure⟩
    | (disk, none) => writeAll disk (p.filesUnder root)

/-- Renders and writes the project of a model. Nothing is written if rendering breaks off. -/
def generate (disk : Disk) (root : Path) (m : Model) (s : Settings) : Writing :=
  match (renderTrail m s).result (render m s) with
  | .ok p => p.write disk root
  | .error failure => ⟨disk, [], some failure⟩

def Writing.notes (root : Path) (w : Writing) : List Note :=
  w.written.map (fun p => ⟨.debug, .assembly, "Wrote " ++ p.text⟩) ++
    match w.failure with
    | some _ => []
    | none => [⟨.info, .assembly,
        "Wrote " ++ Text.decimal w.written.length ++ " files to " ++ root.text⟩]

/-- The notes that rendering and writing the project of a model leaves. -/
def generateNotes (root : Path) (m : Model) (s : Settings) (w : Writing) : List Note :=
  (renderTrail m s).notes ++ w.notes root

end Groundplan.Project
