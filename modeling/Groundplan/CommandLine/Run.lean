import Groundplan.CommandLine.Arguments
import Groundplan.Document.File
import Groundplan.Project.Write
import Groundplan.Settings.Load

/-!
# Runs of the command line

A run takes a disk to a disk and prints lines. Validating reads a document and changes nothing;
generating also needs settings, which come first, and writes the project at the end, when nothing
else can fail. Failures are printed; a few of them are not foreseen and end the run as they are.
-/

namespace Groundplan.CommandLine

/-- A failure that a run does not print. -/
inductive Escape where
  | failure (f : Failure)
  | settings (f : SettingsFailure)

inductive Ending where
  | success
  | reported
  | escaped (cause : Escape)
  | misuse

structure Run where
  disk : Disk
  lines : List String
  notes : List Note
  warnings : List String
  ending : Ending

namespace Run

def exitCode (r : Run) : Nat :=
  match r.ending with
  | .success => 0
  | .reported => 1
  | .escaped _ => 1
  | .misuse => 2

/-- A text in which a carriage return before a line feed does not count. -/
def joinLineEnds (text : String) : String :=
  String.ofList (Text.joinBreaks text.toList)

def output (r : Run) : String :=
  joinLineEnds (String.join (r.lines.map (· ++ "\n")))

/-- What a run logs. Surrogates are written by their numbers. -/
def log (r : Run) : String :=
  joinLineEnds (Text.replaceSurrogates Text.surrogateEscape
    (String.join (r.notes.map fun n => n.terminalLine ++ "\n")))

/-- A run with the notes that are shown. -/
def showing (verbose : Bool) (r : Run) : Run :=
  { r with notes := Note.shown verbose r.notes }

end Run

/-- The lines that can be printed, up to the first one that cannot be encoded, and why that one
cannot. -/
def printable : List String → List String × Option Text.EncodeFault
  | [] => ([], none)
  | line :: lines =>
    match Text.encodeFault? line with
    | some fault => ([], some fault)
    | none => ((line :: (printable lines).1), (printable lines).2)

/-- A run as it really goes: it ends at a line that cannot be encoded. -/
def Run.printed (r : Run) : Run :=
  match printable r.lines with
  | (_, none) => r
  | (lines, some fault) => { r with lines, ending := .escaped (.failure (.unencodable fault)) }

/-- A run that prints a line before all else. If the line cannot be encoded, nothing else is done;
the warnings came before the line. -/
def announced (disk : Disk) (warnings : List String) (line : String) (rest : Run) : Run :=
  match Text.encodeFault? line with
  | some fault => ⟨disk, [], [], warnings, .escaped (.failure (.unencodable fault))⟩
  | none => { rest with lines := line :: rest.lines }

/-- Whether a failure of the settings is printed. Paths that cannot be asked for, scalars that no
text of theirs could build and overrides of the settings' own name are not foreseen. -/
def isForeseen : SettingsFailure → Bool
  | .unaskable _ => false
  | .ownName => false
  | .scalar .emptyNumber => false
  | .scalar (.boolean _) => false
  | .scalar .timestamp => false
  | .scalar .codePointSize => false
  | .scalar .sixtiesSize => false
  | .scalar .timestampHolder => false
  | .scalar .tooDeep => false
  | _ => true

def failureLine (f : Failure) : String :=
  "❌ " ++ f.message

def summaryLines (showVersion : Bool) (s : Summary) : List String :=
  ["📦 Bounded context: " ++ s.context, "   Namespace: " ++ s.namespaceName] ++
    (if showVersion then ["   IR version: " ++ s.version] else []) ++ [
    "   Aggregates: " ++ Text.decimal s.aggregates,
    "   Value objects: " ++ Text.decimal s.valueObjects,
    "   Commands: " ++ Text.decimal s.commands,
    "   Events: " ++ Text.decimal s.events,
    "   Queries: " ++ Text.decimal s.queries,
    "   External subscriptions: " ++ Text.decimal s.subscriptions]

/-- A run that a failure ends after some lines were printed. -/
def failedRun (disk : Disk) (lines : List String) (notes : List Note) (warnings : List String)
    (f : Failure) : Run :=
  if f.isReported then ⟨disk, lines ++ [failureLine f], notes, warnings, .reported⟩
  else ⟨disk, lines, notes, warnings, .escaped (.failure f)⟩

/-- Validates a document. -/
def validate (disk : Disk) (input : Path) : Run :=
  announced disk [] ("🔍 Validating domain model: " ++ input.text) <|
    let notes := Document.fileNotes disk input.text
    match Document.parseFile disk input.text with
    | .error f => failedRun disk [] notes [] f
    | .ok m =>
      ⟨disk, "✅ Domain model is valid" :: summaryLines true m.summary, notes, [], .success⟩

/-- The settings of a run: those of a file, or the usual ones, with the overrides of the command
line. -/
def settings (disk : Disk) (env : Environment) (config : Option Path)
    (packageName : Option String) (servicePort : Option Int) : Except SettingsFailure Settings := do
  let s ← match config with
    | some p => Settings.load disk env p.text
    | none => .ok Settings.usual
  s.merge [
    (.str "package_name", (packageName.map Value.str).getD .null),
    (.str "service_port", (servicePort.map fun n => Value.scalar (.int n)).getD .null)]

/-- The lines about what to do next. -/
def nextLines (output : Path) (package : String) (servicePort : Int) : List String := [
  "\n💡 Next steps:",
  "  cd " ++ output.text,
  "  pip install -e \".[dev]\"",
  "  python -m " ++ package ++ ".main",
  "  open http://localhost:" ++ Text.decimalInt servicePort ++ "/swagger-ui"]

/-- Generates the project of a model that was read with some notes. Nothing is generated if one of
the lines before cannot be printed. -/
def generateProject (disk : Disk) (output : Path) (s : Settings) (m : Model)
    (notes : List Note) (warnings : List String) : Run :=
  let lines := summaryLines false m.summary ++ ["\n🛠️  Generating service into " ++ output.text]
  if (printable lines).2.isSome then Run.printed ⟨disk, lines, notes, warnings, .success⟩
  else
    let writing := Project.generate disk output m s
    let notes := notes ++ Project.generateNotes output m s writing
    match writing.failure with
    | some f => failedRun writing.disk lines notes warnings f
    | none =>
      ⟨writing.disk,
        lines ++ ["✅ Generated " ++ Text.decimal writing.written.length ++ " files in " ++
          output.text] ++ nextLines output (Project.packageName m s) s.servicePort,
        notes, warnings, .success⟩

/-- Generates the project of a document. -/
def generate (disk : Disk) (env : Environment) (input output : Path) (config : Option Path)
    (packageName : Option String) (servicePort : Option Int) : Run :=
  let warnings := match config with
    | some p => Settings.loadWarnings disk env p.text
    | none => []
  match settings disk env config packageName servicePort with
  | .error f =>
    if isForeseen f then
      ⟨disk, ["❌ Invalid configuration: " ++ f.message], [], warnings, .reported⟩
    else ⟨disk, [], [], warnings, .escaped (.settings f)⟩
  | .ok s =>
    announced disk warnings ("🔍 Reading domain model: " ++ input.text) <|
      let notes := Document.fileNotes disk input.text
      match Document.parseFile disk input.text with
      | .error f => failedRun disk [] notes warnings f
      | .ok m => generateProject disk output s m notes warnings

def Invocation.run (disk : Disk) (env : Environment) : Invocation → Run
  | .generate input output config packageName servicePort verbose =>
    (CommandLine.generate disk env input output config packageName
      servicePort).printed.showing verbose
  | .validate input verbose => (CommandLine.validate disk input).printed.showing verbose

/-- Carries out a command line; misuse changes and prints nothing. -/
def run (disk : Disk) (env : Environment) (arguments : List String) : Run :=
  match Invocation.parse? arguments with
  | some invocation => invocation.run disk env
  | none => ⟨disk, [], [], [], .misuse⟩

end Groundplan.CommandLine
