import Groundplan.Model.Basic
import Groundplan.Name.Casing
import Groundplan.Note
import Groundplan.Text.Blank
import Groundplan.Text.Display

/-!
# The checklist

A model has to pass five rules, which are checked in a fixed order; the first that is violated is
reported. Two rules are about names: the spellings of the definitions must be distinct among
themselves and from the names that generated files need for their own purposes. References that
lead nowhere are no violation and are only noted.
-/

namespace Groundplan

/-- The rules for models. -/
inductive Rule where
  | versionFormat
  | contextName
  | contextNamespace
  | typeNames
  | routeHandlers
  deriving DecidableEq, Repr

namespace Rule

/-- Every rule, in the order of checking. -/
def all : List Rule :=
  [.versionFormat, .contextName, .contextNamespace, .typeNames, .routeHandlers]

def name : Rule → String
  | .versionFormat => "version_format"
  | .contextName => "context_name"
  | .contextNamespace => "context_namespace"
  | .typeNames => "type_name_collision"
  | .routeHandlers => "route_handler_collision"

end Rule

/-- A spelling that cannot be used: it is reserved, or an earlier definition has it. -/
inductive Clash where
  | reserved (place spelling : String)
  | shared (place earlier spelling : String)
  deriving DecidableEq, Repr

/-- How a model violates a rule. -/
inductive Violation where
  | version (given : String)
  | contextName
  | contextNamespace
  | typeName (clash : Clash)
  | routeHandler (clash : Clash)
  deriving DecidableEq, Repr

namespace Clash

/-- The wording of a clash between spellings of some sort. -/
def message (sort : String) : Clash → String
  | .reserved place spelling =>
    place ++ " emits " ++ sort ++ " '" ++ spelling ++ "', which is reserved by the generator"
  | .shared place earlier spelling =>
    place ++ " and " ++ earlier ++ " both emit " ++ sort ++ " '" ++ spelling ++ "'"

/-- The first spelling that is reserved or was seen before. The definitions come with their
places; `seen` holds the spellings so far with the places of the definitions that have them. -/
def find? (reserved : List String) (seen : List (String × String)) :
    List (String × String) → Option Clash
  | [] => none
  | (place, spelling) :: definitions =>
    if reserved.contains spelling then some (.reserved place spelling)
    else
      match seen.lookup spelling with
      | some earlier => some (.shared place earlier spelling)
      | none => find? reserved ((spelling, place) :: seen) definitions

end Clash

namespace Violation

/-- The rule that a violation is of. -/
def rule : Violation → Rule
  | .version _ => .versionFormat
  | .contextName => .contextName
  | .contextNamespace => .contextNamespace
  | .typeName _ => .typeNames
  | .routeHandler _ => .routeHandlers

def message : Violation → String
  | .version given => "Invalid version format: " ++ Text.display given ++ " (expected e.g. '1.0')"
  | .contextName => "Bounded context name cannot be empty"
  | .contextNamespace => "Bounded context namespace cannot be empty"
  | .typeName clash => clash.message "type"
  | .routeHandler clash => clash.message "route handler"

end Violation

/-- The type names that generated files define or bring in themselves. -/
def reservedTypeNames : List String := [
  "DomainModel", "PagedResult", "DomainEvent", "EventMetadata", "ExternalEventSubscription",
  "CommandError", "CommandErrorKind", "CommandHandler", "ApiError", "ApiResponse", "Any",
  "BaseModel", "ClassVar", "ConfigDict", "Decimal", "Dict", "Enum", "Field", "Generic", "List",
  "Literal", "NamedTuple", "Optional", "Query", "T", "Tuple", "Type", "TypeVar", "Union"]

/-- The names of the routes module that a route handler must not take. -/
def reservedHandlerNames : List String := [
  "create_router", "router", "status", "date", "datetime", "time"]

namespace Model

/-- The sorted names of a section's definitions. -/
def sectionNames (m : Model) : Section → List String
  | .aggregates => m.aggregates.sortedNames
  | .valueObjects => m.valueObjects.sortedNames
  | .events => m.events.sortedNames
  | .commands => m.commands.sortedNames
  | .queries => m.queries.sortedNames

/-- The definitions of some sections in sorted order, by their places and their spellings. -/
def spellings (m : Model) (spell : String → String) (sections : List Section) :
    List (String × String) :=
  sections.flatMap fun s => (m.sectionNames s).map fun name => (s.place name, spell name)

/-- The definitions that become types, with the names of the types. -/
def typeSpellings (m : Model) : List (String × String) :=
  m.spellings Name.pascal [.valueObjects, .aggregates, .events, .commands]

/-- The definitions that become routes, with the names of their handlers. -/
def handlerSpellings (m : Model) : List (String × String) :=
  m.spellings Name.field [.commands, .queries]

/-- How a model violates a rule, if it does. -/
def violationOf? (m : Model) : Rule → Option Violation
  | .versionFormat => if m.version.toList.contains '.' then none else some (.version m.version)
  | .contextName => if (Text.strip m.context.name).isEmpty then some .contextName else none
  | .contextNamespace =>
    if (Text.strip m.context.namespaceName).isEmpty then some .contextNamespace else none
  | .typeNames => (Clash.find? reservedTypeNames [] m.typeSpellings).map .typeName
  | .routeHandlers => (Clash.find? reservedHandlerNames [] m.handlerSpellings).map .routeHandler

/-- The first violation, in the order of the rules. -/
def violation? (m : Model) : Option Violation :=
  Rule.all.findSome? m.violationOf?

/-- Whether a reference names something that is not defined. -/
def dangles {α : Type} (c : Catalog α) (reference : Option String) : Option String :=
  reference.filter fun name => !name.isEmpty && !c.has name

/-- The notes about references that lead nowhere. -/
def danglingNotes (m : Model) : List Note :=
  let warn (message : String) : Note := ⟨.warning, .checklist, message⟩
  (m.commands.sorted.flatMap fun (name, command) =>
    ((command.produces.filter fun event => !m.events.has event).map fun event =>
      warn ("Command " ++ name ++ " produces undeclared event " ++ event)) ++
    ((dangles m.aggregates command.aggregate).map fun aggregate =>
      warn ("Command " ++ name ++ " targets undeclared aggregate " ++ aggregate)).toList) ++
  (m.events.sorted.flatMap fun (name, event) =>
    ((dangles m.aggregates event.aggregate).map fun aggregate =>
      warn ("Event " ++ name ++ " belongs to undeclared aggregate " ++ aggregate)).toList)

/-- The rules that are checked: all up to the first that is violated. -/
def checkedRules (m : Model) : List Rule → List Rule
  | [] => []
  | rule :: rules =>
    match m.violationOf? rule with
    | some _ => [rule]
    | none => rule :: m.checkedRules rules

/-- The notes that checking a model leaves. -/
def checkNotes (m : Model) : List Note :=
  ((m.checkedRules Rule.all).map fun rule =>
    ⟨.debug, .checklist, "Checking rule " ++ rule.name⟩) ++
  if m.violation?.isNone then m.danglingNotes else []

end Model

end Groundplan
