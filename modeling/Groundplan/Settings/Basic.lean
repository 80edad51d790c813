import Groundplan.Decode.Lenient
import Groundplan.Text.Identifier

/-!
# Settings

Settings shape the generated project but not its domain content. Every setting has a default; they
are decoded from entries like a model, except that unknown keys are faults. The path of the
interface starts with a slash and is kept without slashes at its end, so the single slash becomes
the empty path, which is no legal value to decode again.
-/

namespace Groundplan

/-- The settings of a run. -/
structure Settings where
  version : String
  packageName : Option String
  servicePort : Int
  apiPath : String
  languageRange : String
  deriving DecidableEq, Repr

/-- Narrows a decoded value down, or finds a fault in it. -/
def Checked.narrow {α β : Type} (given : Value) (f : α → Except Cause β) : Checked α → Checked β
  | .good a => Checked.ofExcept given (f a)
  | .bad faults => .bad faults

namespace Settings

/-- The default settings. -/
def usual : Settings := ⟨"1", none, 3000, "/api", ">=3.9"⟩

/-- A name by which a package can be imported, without the blanks around it. -/
def checkPackageName (text : String) : Except Cause String :=
  let name := Text.strip text
  if Text.isIdentifier name then .ok name
  else .error (.refused ("Invalid package name: " ++ Text.display name))

/-- A port that a service can listen on. -/
def checkPort (n : Int) : Except Cause Int :=
  if n < 1 then .error (.atLeast 1) else if 65535 < n then .error (.atMost 65535) else .ok n

def dropSlashes (text : String) : String :=
  String.ofList (text.toList.reverse.dropWhile (· = '/')).reverse

/-- A path that starts with a slash, without slashes at its end. -/
def checkApiPath (text : String) : Except Cause String :=
  if text.toList.head? = some '/' then .ok (dropSlashes text)
  else .error (.refused ("api_prefix must start with '/': " ++ Text.display text))

def keys : List String :=
  ["config_version", "package_name", "service_port", "api_prefix", "python_requires"]

/-- The faults of unknown keys. -/
def checkKeys (e : Entries) : Checked Unit :=
  (fun _ => ()) <$> Checked.each
    (fun (key, value) => ((Checked.fault value .unknownKey : Checked Unit).within key.placePart))
    (e.filter fun entry => !keys.any fun key => entry.1 = .str key)

/-- The first key with surrogates. -/
def unreadableKey? (e : Entries) : Option String :=
  (e.filterMap fun entry => (Value.scalar entry.1).str?).find? Text.hasSurrogate

/-- Decodes settings under keys without surrogates. -/
def decodeFields (e : Entries) : Checked Settings :=
  (fun version packageName servicePort apiPath languageRange _ =>
      ⟨version, packageName, servicePort, apiPath, languageRange⟩)
    <$> e.fieldWith ["config_version"] usual.version Lenient.string
    <*> e.field? ["package_name"] (fun v => (Lenient.string v).narrow v checkPackageName)
    <*> e.fieldWith ["service_port"] usual.servicePort
      (fun v => (Lenient.integer v).narrow v checkPort)
    <*> e.fieldWith ["api_prefix"] usual.apiPath
      (fun v => (Lenient.string v).narrow v checkApiPath)
    <*> e.fieldWith ["python_requires"] usual.languageRange Lenient.string
    <*> checkKeys e

/-- Decodes settings. A key with surrogates is the only fault that is reported. -/
def decode (e : Entries) : Checked Settings :=
  match unreadableKey? e with
  | some key => Checked.fault (.str key) .stringBytes
  | none => decodeFields e

/-- The entries that describe settings. -/
def entries (s : Settings) : Entries := [
  (.str "config_version", .str s.version),
  (.str "package_name", (s.packageName.map Value.str).getD .null),
  (.str "service_port", .scalar (.int s.servicePort)),
  (.str "api_prefix", .str s.apiPath),
  (.str "python_requires", .str s.languageRange)]

/-- Settings with some of them replaced; an override that is null does not count. The whole is
decoded again. -/
def override (s : Settings) (overrides : Entries) : Checked Settings :=
  decode ((overrides.filter fun entry => !entry.2.isNull).foldl
    (fun data (key, value) => data.put key value) s.entries)

/-! ### Reports -/

/-- A part of a place in a report; one with dots stands between backticks. -/
def reportPart (part : String) : String :=
  if part.toList.contains '.' then "`" ++ part ++ "`" else part

/-- The lines of a fault in a report. -/
def faultLines (fault : DecodeFault) : List String :=
  (if fault.place.isEmpty then [] else [".".intercalate (fault.place.map reportPart)]) ++ [
  "  " ++ fault.cause.message ++ " [type=" ++ fault.cause.code ++ ", input_value=" ++
    Text.abridge (fault.given.display?.getD fault.given.unshown) ++ ", input_type=" ++
    fault.given.kindName ++ "]",
  "    For further information visit https://errors.pydantic.dev/2.14/v/" ++ fault.cause.code]

/-- A report of faults, with their number in its first line. -/
def report (faults : List DecodeFault) : String :=
  let noun := if faults.length = 1 then " validation error" else " validation errors"
  "\n".intercalate ((Text.decimal faults.length ++ noun ++ " for GeneratorConfig") ::
    faults.flatMap faultLines)

end Settings

end Groundplan
