import Groundplan.Decode.Lenient
import Groundplan.Files.Name
import Groundplan.Files.Path

/-!
# Arguments of the command line

The first argument names a command and the others are its options. A long option has its value
behind an equals sign or in the next argument; short options can stand together behind one dash,
and the first of them that wants a value takes the rest of the argument, or the next one. A value
is taken whatever it looks like. Of an option that is given more than once the last value counts:
it has to be a path that can be asked for where a path is wanted, and a whole number for a port.
Arguments that are no options are misuse, as are unknown and incomplete options.
-/

namespace Groundplan.CommandLine

/-- The options of the commands. -/
inductive Switch where
  | input
  | output
  | config
  | packageName
  | servicePort
  | verbose
  deriving DecidableEq, Repr

inductive CommandName where
  | generate
  | validate
  deriving DecidableEq, Repr

namespace Switch

def long : Switch → String
  | .input => "--input"
  | .output => "--output"
  | .config => "--config"
  | .packageName => "--package-name"
  | .servicePort => "--port"
  | .verbose => "--verbose"

def letter? : Switch → Option Char
  | .input => some 'i'
  | .output => some 'o'
  | .config => some 'c'
  | .verbose => some 'v'
  | _ => none

def takesValue : Switch → Bool
  | .verbose => false
  | _ => true

end Switch

namespace CommandName

def switches : CommandName → List Switch
  | .generate => [.input, .output, .config, .packageName, .servicePort, .verbose]
  | .validate => [.input, .verbose]

def ofText? : String → Option CommandName
  | "generate" => some .generate
  | "validate" => some .validate
  | _ => none

end CommandName

/-- An option with its value, which is empty where it takes none. -/
abbrev Given := Switch × String

/-- What an argument means. -/
inductive Meaning where
  | complete (given : List Given)
  | awaits (given : List Given) (switch : Switch)
  | misuse
  deriving DecidableEq, Repr

/-- The meaning of letters behind one dash. -/
def lettersMeaning (switches : List Switch) : List Char → Meaning
  | [] => .complete []
  | c :: cs =>
    match switches.find? fun s => s.letter? = some c with
    | none => .misuse
    | some s =>
      if s.takesValue then
        if cs.isEmpty then .awaits [] s else .complete [(s, String.ofList cs)]
      else
        match lettersMeaning switches cs with
        | .complete given => .complete ((s, "") :: given)
        | .awaits given last => .awaits ((s, "") :: given) last
        | .misuse => .misuse

/-- The meaning of a long option, with the value behind its equals sign if there is one. -/
def longMeaning (s : Switch) (attached : Option String) : Meaning :=
  match s.takesValue, attached with
  | true, some value => .complete [(s, value)]
  | true, none => .awaits [] s
  | false, none => .complete [(s, "")]
  | false, some _ => .misuse

/-- The parts of an argument before and behind its first equals sign. -/
def splitEquals (cs : List Char) : String × Option String :=
  match cs.dropWhile (· ≠ '=') with
  | [] => (String.ofList cs, none)
  | _ :: value => (String.ofList (cs.takeWhile (· ≠ '=')), some (String.ofList value))

def meaning (switches : List Switch) (argument : String) : Meaning :=
  let (name, attached) := splitEquals argument.toList
  match switches.find? fun s => s.long = name with
  | some s => longMeaning s attached
  | none =>
    match argument.toList with
    | '-' :: '-' :: _ => .misuse
    | '-' :: c :: cs => lettersMeaning switches (c :: cs)
    | _ => .misuse

/-- The options that arguments give, in order. A double dash ends them. -/
def options? (switches : List Switch) : List String → Option (List Given)
  | [] => some []
  | argument :: arguments =>
    if argument = "--" then if arguments.isEmpty then some [] else none
    else
      match meaning switches argument with
      | .misuse => none
      | .complete given => (options? switches arguments).map (given ++ ·)
      | .awaits given s =>
        match arguments with
        | [] => none
        | value :: rest => (options? switches rest).map (given ++ (s, value) :: ·)

def lastValue? (s : Switch) (given : List Given) : Option String :=
  (given.reverse.find? fun option => option.1 = s).map Prod.snd

/-- What a command line asks for. -/
inductive Invocation where
  | generate (input output : Path) (config : Option Path) (packageName : Option String)
      (servicePort : Option Int) (verbose : Bool)
  | validate (input : Path) (verbose : Bool)
  deriving DecidableEq, Repr

/-- The number that a value spells. -/
def number? (value : String) : Option Int :=
  match Lenient.integer (.str value) with
  | .good n => some n
  | .bad _ => none

/-- The path that a value writes, if it can be asked for. -/
def path? (value : String) : Option Path :=
  if FileName.isAskable value then some (.ofString value) else none

/-- What the options of a command ask for. -/
def ofOptions? (given : List Given) : CommandName → Option Invocation
  | .generate => do
    let input ← path? (← lastValue? .input given)
    let output ← path? (← lastValue? .output given)
    let config ← (lastValue? .config given).mapM path?
    let servicePort ← (lastValue? .servicePort given).mapM number?
    return .generate input output config (lastValue? .packageName given) servicePort
      (lastValue? .verbose given).isSome
  | .validate => do
    let input ← path? (← lastValue? .input given)
    return .validate input (lastValue? .verbose given).isSome

/-- What a command and its arguments ask for. -/
def command? : List String → Option Invocation
  | [] => none
  | name :: arguments => do
    let command ← CommandName.ofText? name
    ofOptions? (← options? command.switches arguments) command

/-- What a command line asks for, unless it is misuse. -/
def Invocation.parse? : List String → Option Invocation
  | "--" :: arguments => command? arguments
  | arguments => command? arguments

end Groundplan.CommandLine
