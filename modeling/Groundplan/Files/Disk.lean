import Groundplan.Files.Name
import Groundplan.Files.Path
import Groundplan.Text.Display

/-!
# Disks

A disk is a finite tree of directories and files, held as the list of its locations. A location is
a path without double dots, but for some that lead up from the working directory. A path is
followed name by name: every name but the last has to be a directory, and a double dot leads back.
What is asked for and cannot be done is refused with a reason and the path that was asked for.
Links and permissions are not part of a disk.
-/

namespace Groundplan

inductive Entry where
  | directory
  | file (content : List UInt8)
  deriving DecidableEq

/-- The locations of a disk, with what is there. -/
abbrev Disk := List (Path × Entry)

/-- Why something cannot be done. -/
inductive Reason where
  | noEntry
  | taken
  | notDirectory
  | isDirectory
  | nameTooLong
  deriving DecidableEq, Repr

/-- Something that cannot be done with a path. -/
structure Refusal where
  reason : Reason
  path : Path
  deriving DecidableEq, Repr

def Refusal.message (r : Refusal) : String :=
  let cause := match r.reason with
    | .noEntry => "[Errno 2] No such file or directory"
    | .taken => "[Errno 17] File exists"
    | .notDirectory => "[Errno 20] Not a directory"
    | .isDirectory => "[Errno 21] Is a directory"
    | .nameTooLong => "[Errno 36] File name too long"
  cause ++ ": " ++ Text.display r.path.text

namespace Disk

/-- What is at a location. The working directory, those above it and the top are always there. -/
def get? (disk : Disk) (location : Path) : Option Entry :=
  if location.parts.all (· = "..") then some .directory else disk.lookup location

/-- Puts something at a location, in the place of what was there. -/
def put : Disk → Path → Entry → Disk
  | [], location, entry => [(location, entry)]
  | (location', entry') :: disk, location, entry =>
    if location' = location then (location, entry) :: disk
    else (location', entry') :: put disk location entry

def nameLimit : Nat := 255

def pathLimit : Nat := 4095

/-- Follows names from a directory. The last name need not be there. -/
def follow (disk : Disk) (here : Path) : List String → Except Reason Path
  | [] => .ok here
  | name :: names =>
    if name = ".." then disk.follow here.above names
    else if nameLimit < FileName.size name then .error .nameTooLong
    else
      let next := here.child (FileName.stored name)
      match names with
      | [] => .ok next
      | _ =>
        match disk.get? next with
        | none => .error .noEntry
        | some (.file _) => .error .notDirectory
        | some .directory => disk.follow next names

/-- The location that a path leads to. -/
def locate (disk : Disk) (p : Path) : Except Reason Path :=
  if pathLimit < FileName.size p.text then .error .nameTooLong else disk.follow p.base p.parts

def at? (disk : Disk) (p : Path) : Option Entry :=
  match disk.locate p with
  | .ok location => disk.get? location
  | .error _ => none

def has (disk : Disk) (p : Path) : Bool :=
  (disk.at? p).isSome

def isDirectory (disk : Disk) (p : Path) : Bool :=
  disk.at? p = some .directory

def isFile (disk : Disk) (p : Path) : Bool :=
  match disk.at? p with
  | some (.file _) => true
  | _ => false

/-- Why a path of which a question can be asked gets no answer, if it gets none. -/
def unaskable? (disk : Disk) (p : Path) : Option Refusal :=
  match disk.locate p with
  | .error .nameTooLong => if FileName.isAskable p.text then some ⟨.nameTooLong, p⟩ else none
  | _ => none

/-- The content of a file. -/
def read (disk : Disk) (p : Path) : Except Refusal (List UInt8) :=
  match disk.locate p with
  | .error reason => .error ⟨reason, p⟩
  | .ok location =>
    match disk.get? location with
    | some (.file content) => .ok content
    | some .directory => .error ⟨.isDirectory, p⟩
    | none => .error ⟨.noEntry, p⟩

/-- Makes a directory where nothing is. -/
def makeDirectory (disk : Disk) (p : Path) : Except Refusal Disk :=
  match disk.locate p with
  | .error reason => .error ⟨reason, p⟩
  | .ok location =>
    match disk.get? location with
    | some _ => .error ⟨.taken, p⟩
    | none => .ok (disk.put location .directory)

/-- Makes a directory unless there is one. -/
def makeIfAbsent (disk : Disk) (p : Path) : Disk × Option Refusal :=
  match disk.makeDirectory p with
  | .ok disk => (disk, none)
  | .error refusal => (disk, if disk.isDirectory p then none else some refusal)

/-- Makes a directory and those above it, as far as they are missing; `depth` bounds their
number. What was made before a refusal stays. -/
def makeDirectoriesFrom (disk : Disk) : Nat → Path → Disk × Option Refusal
  | 0, p => disk.makeIfAbsent p
  | depth + 1, p =>
    match disk.makeDirectory p with
    | .error ⟨.noEntry, _⟩ =>
      match disk.makeDirectoriesFrom depth p.parent with
      | (disk, none) => disk.makeIfAbsent p
      | refused => refused
    | _ => disk.makeIfAbsent p

/-- Makes a directory and those above it, as far as they are missing. -/
def makeDirectories (disk : Disk) (p : Path) : Disk × Option Refusal :=
  disk.makeDirectoriesFrom p.parts.length p

/-- Writes a file, in the place of one that may be there. -/
def write (disk : Disk) (p : Path) (content : List UInt8) : Except Refusal Disk :=
  match disk.locate p with
  | .error reason => .error ⟨reason, p⟩
  | .ok location =>
    match disk.get? location with
    | some .directory => .error ⟨.isDirectory, p⟩
    | _ => .ok (disk.put location (.file content))

/-- Whether a location is below the working directory. -/
def isBelow (location : Path) : Bool :=
  location.anchor.isEmpty && location.parts.head? ≠ some ".."

/-- Every location below the working directory, directories with a slash at the end, in order of
code points. -/
def listing (disk : Disk) : List String :=
  ((disk.filter fun entry => isBelow entry.1).map fun (location, entry) =>
    match entry with
    | .directory => location.text ++ "/"
    | .file _ => location.text).mergeSort fun a b => !Text.before b a

end Disk

end Groundplan
