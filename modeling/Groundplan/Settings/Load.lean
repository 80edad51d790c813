import Groundplan.Files.Read
import Groundplan.Settings.Basic
import Groundplan.Text.Variables
import Groundplan.Yaml.Denote

/-!
# Settings files

A settings file is a document whose root is a mapping. Variables of the environment are replaced in
its text first, and dashes in its keys count as underscores. It has to give its version: an older
one is refused and a newer one is read with a warning. Versions are compared as texts.
-/

namespace Groundplan

namespace Settings

/-- The newest version of settings files that is understood. -/
def currentVersion : String := "1"

/-- The oldest version of settings files that is understood. -/
def oldestVersion : String := "1"

end Settings

/-- Why there are no settings. -/
inductive SettingsFailure where
  | missing (path : String)
  | unreadable (path : String) (refusal : Refusal)
  | undecodable (fault : Text.Utf8Fault)
  | unaskable (refusal : Refusal)
  | unwritableNumber
  | deepValue
  | malformed
  | scalar (fault : Yaml.ScalarFault)
  | root
  | noVersion
  | oldVersion (version : String)
  | ownName
  | invalid (faults : List DecodeFault)
  | invalidFile (path : String) (faults : List DecodeFault)

def SettingsFailure.message : SettingsFailure → String
  | .missing path => "Configuration file not found: " ++ path
  | .unreadable path refusal =>
    "Failed to read configuration from " ++ path ++ ": " ++ refusal.message
  | .undecodable fault => fault.message
  | .unaskable refusal => refusal.message
  | .unwritableNumber => Text.unwritableMessage
  | .deepValue => Value.deepMessage
  | .malformed => "Invalid YAML in configuration file: ..."
  | .scalar fault => fault.message
  | .root => "YAML file must contain a dictionary at the root level"
  | .noVersion => "config_version missing. Add `config_version: \"1\"` to your YAML."
  | .oldVersion version =>
    "Config version " ++ version ++ " is too old. Minimum supported is " ++
      Settings.oldestVersion ++ "."
  | .ownName => "GeneratorConfig.merge_overrides() got multiple values for argument 'self'"
  | .invalid faults => Settings.report faults
  | .invalidFile path faults =>
    "Invalid configuration in " ++ path ++ ": " ++ Settings.report faults

/-- The variables of the environment. -/
abbrev Environment := String → Option String

namespace Settings

/-- Settings from decoded ones, with the faults as a failure. -/
def ofChecked (failure : List DecodeFault → SettingsFailure) :
    Checked Settings → Except SettingsFailure Settings
  | .good s => .ok s
  | .bad faults => .error (failure faults)

def make (e : Entries) : Except SettingsFailure Settings :=
  ofChecked .invalid (decode e)

/-- The name under which settings are known to themselves. -/
def ownName : String := "self"

/-- Settings with some of them replaced. Their own name is not to be overridden. -/
def merge (s : Settings) (overrides : Entries) : Except SettingsFailure Settings :=
  if overrides.has ownName then .error .ownName else ofChecked .invalid (s.override overrides)

/-- A key with underscores for dashes. -/
def underscored (key : String) : String :=
  String.ofList (key.toList.map fun c => if c = '-' then '_' else c)

/-- The entries of a settings file, under keys with underscores; a key may be a number that cannot
be written. -/
def fileEntries? (e : Entries) : Option Entries :=
  e.foldlM
    (fun data (key, value) => key.text?.map fun name => data.put (.str (underscored name)) value) []

/-- The text of a settings file. -/
def readFile (disk : Disk) (path : String) : Except SettingsFailure String :=
  if let some refusal := disk.unaskable? (.ofString path) then .error (.unaskable refusal)
  else if disk.has (.ofString path) then
    match disk.readText (.ofString path) with
    | .ok text => .ok text
    | .error (.refused refusal) => .error (.unreadable path refusal)
    | .error (.undecodable fault) => .error (.undecodable fault)
  else .error (.missing path)

/-- The entries that a text denotes. -/
def parseEntries (text : String) : Except SettingsFailure Entries :=
  match Yaml.load text with
  | .ok value =>
    match value.entries? with
    | some e => (fileEntries? e).elim (.error .unwritableNumber) .ok
    | none => .error .root
  | .error .malformed => .error .malformed
  | .error (.unbuildable fault) => .error (.scalar fault)

/-- The entries of a settings file, with the variables in its text replaced. -/
def loadEntries (disk : Disk) (env : Environment) (path : String) :
    Except SettingsFailure Entries := do
  parseEntries (Text.expand env (← readFile disk path))

/-- The failure of a version that has no text. -/
def versionFailure : Unshowable → SettingsFailure
  | .number => .unwritableNumber
  | .depth => .deepValue

/-- The version that entries give, as a text; the empty text if they give none. -/
def versionText (e : Entries) : Except Unshowable String :=
  match e.get? "config_version" with
  | some value => value.text
  | none => .ok ""

/-- The settings that the entries of a file describe. -/
def ofFile (path : String) (e : Entries) : Except SettingsFailure Settings :=
  match versionText e with
  | .error why => .error (versionFailure why)
  | .ok version =>
    if version.isEmpty then .error .noVersion
    else if version < oldestVersion then .error (.oldVersion version)
    else
      ofChecked (.invalidFile path) (decode (e.put (.str "config_version") (.str version)))

def load (disk : Disk) (env : Environment) (path : String) : Except SettingsFailure Settings := do
  ofFile path (← loadEntries disk env path)

/-- The warning about a version that is newer than the program. -/
def versionWarnings (version : String) : List String :=
  if currentVersion < version then
    ["UserWarning: This generator understands config_version " ++ currentVersion ++
      ", but file is " ++ version ++ ". Attempting best-effort parse."]
  else []

def loadWarnings (disk : Disk) (env : Environment) (path : String) : List String :=
  match loadEntries disk env path with
  | .ok e => versionWarnings ((versionText e).toOption.getD "")
  | .error _ => []

end Settings

end Groundplan
