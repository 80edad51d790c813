import Groundplan.Render.Field
import Groundplan.Source.Module

/-!
# Commands and their handler

Each command becomes a record that can validate itself, and a method of the handler contract that
takes the record and gives the events that follow. Conditions are documentation: validation rules
stand as comments and preconditions in docstrings.
-/

namespace Groundplan.Commands

open Source

/-! ### Generated types -/

/-- The record of a command. -/
structure CommandType where
  name : String
  summary : String
  details : List String
  fields : List Declaration
  remarks : List String
  deriving DecidableEq, Repr

/-- A method of the handler contract. -/
structure HandlerMethod where
  name : String
  commandName : String
  summary : String
  details : List String
  deriving DecidableEq, Repr

/-- The docstring lines that name the aggregate of a command or event. -/
def aggregateLines : Option String → List String
  | none | some "" => []
  | some aggregate => ["Aggregate: " ++ Name.pascal aggregate]

def producesLines : List String → List String
  | [] => []
  | events => ["Produces: " ++ ", ".intercalate (events.map Name.pascal)]

def validationRemark (c : Condition) : String :=
  "# Validation: " ++ Text.commentLine c.message ++ " [" ++ Text.commentLine c.expression ++ "]"

def preconditionLine (c : Condition) : String :=
  "    - " ++ Text.docLine c.message ++ " (" ++ Text.docLine c.expression ++ ")"

def preconditionLines : List Condition → List String
  | [] => []
  | conditions => "Preconditions:" :: conditions.map preconditionLine

/-- The docstring lines on how a handler fails. -/
def raisesLines : List String := [
  "Raises:",
  "    CommandError: Validation, precondition, missing aggregate or internal failure"]

def commandType (s : Scope) (name : String) (c : Command) : CommandType where
  name := Name.pascal name
  summary := Text.docLineOr c.description (Name.pascal name ++ " command.")
  details := aggregateLines c.aggregate
  fields := c.payload.map s.field
  remarks := c.validation.map validationRemark

def handlerMethod (name : String) (c : Command) : HandlerMethod where
  name := Name.handlerMethod name
  commandName := Name.pascal name
  summary := Text.docLineOr c.description ("Handle " ++ Name.pascal name ++ ".")
  details := paragraphs [producesLines c.produces, preconditionLines c.preconditions, raisesLines]

/-- The records of all commands, in order of name. -/
def types (m : Model) : List CommandType :=
  m.commands.sorted.map fun (name, c) => commandType (Scope.ofModel m) name c

/-- The methods of the handler contract, in order of command. -/
def handlerMethods (m : Model) : List HandlerMethod :=
  m.commands.sorted.map fun (name, c) => handlerMethod name c

/-! ### Source -/

def CommandType.block (t : CommandType) : String :=
  Source.block ("class " ++ t.name ++ "(DomainModel):")
    (docstring t.summary t.details ++ spaced (t.fields.flatMap Declaration.lines) ++ [
      "",
      "def validate(self) -> None:",
      "    \"\"\"Validate the command.",
      "",
      "    Raises:",
      "        CommandError: If a validation rule is violated",
      "    \"\"\""] ++ indent (t.remarks ++ ["return None"]))

/-- The lines of a handler method, below the one before. -/
def HandlerMethod.lines (h : HandlerMethod) : List String := [
  "",
  "@abstractmethod",
  "async def " ++ h.name ++ "(self, command: " ++ h.commandName ++ ") -> List[DomainEvent]:"] ++
  indent (docstring h.summary h.details ++ ["..."])

def handlerContract (m : Model) : String :=
  Source.block "class CommandHandler(ABC):"
    (docstring ("Handles every command of the " ++ Text.docLine m.context.name ++
      " bounded context.") [] ++ (handlerMethods m).flatMap HandlerMethod.lines)

def imports : List (List Import) := [
  [.only "__future__" ["annotations"]],
  [.only "abc" ["ABC", "abstractmethod"],
    .only "datetime" ["date", "datetime", "time"],
    .only "decimal" ["Decimal"],
    .only "enum" ["Enum"],
    .only "typing" ["List", "Optional"],
    .only "uuid" ["UUID"]],
  [.only "pydantic" ["Field"]],
  [.everything ".entities",
    .only ".entities" ["DomainModel"],
    .only ".events" ["DomainEvent"]]]

/-- The types for rejected commands. -/
def errorTypes : List String := [
  "class CommandErrorKind(str, Enum):",
  "    \"\"\"Reason a command was rejected.\"\"\"",
  "",
  "    VALIDATION = \"validation\"",
  "    PRECONDITION_FAILED = \"precondition_failed\"",
  "    AGGREGATE_NOT_FOUND = \"aggregate_not_found\"",
  "    INTERNAL = \"internal\"",
  "",
  "",
  "class CommandError(Exception):",
  "    \"\"\"Structured failure raised by command validation and command handlers.\"\"\"",
  "",
  "    def __init__(self, kind: CommandErrorKind, message: str):",
  "        self.kind = kind",
  "        self.message = message",
  "        super().__init__(message)",
  "",
  "    @classmethod",
  "    def validation(cls, message: str) -> CommandError:",
  "        return cls(CommandErrorKind.VALIDATION, message)",
  "",
  "    @classmethod",
  "    def precondition_failed(cls, message: str) -> CommandError:",
  "        return cls(CommandErrorKind.PRECONDITION_FAILED, message)",
  "",
  "    @classmethod",
  "    def aggregate_not_found(cls, message: str) -> CommandError:",
  "        return cls(CommandErrorKind.AGGREGATE_NOT_FOUND, message)",
  "",
  "    @classmethod",
  "    def internal(cls, message: str) -> CommandError:",
  "        return cls(CommandErrorKind.INTERNAL, message)"]

def sourceModule (m : Model) : SourceModule where
  title := "CQRS commands for the " ++ Text.docLine m.context.name ++ " bounded context."
  imports := imports
  blocks := joinLines errorTypes :: (types m).map CommandType.block ++ [handlerContract m]

def trail (m : Model) : Trail :=
  let s := Scope.ofModel m
  Trail.each (fun (_, c) => Trail.each s.fieldTrail c.payload) m.commands.sorted ++
    Trail.done [⟨.debug, .commands, "Generated " ++ Text.decimal m.commands.size ++ " commands"⟩]

end Groundplan.Commands
