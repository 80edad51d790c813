import Groundplan.Catalog
import Groundplan.Value

/-!
# Domain models

A model describes one bounded context: its aggregates and value objects, the events that happen,
the commands that cause them, the queries that are answered, and the events of other contexts it
listens to. Definitions stand in catalogs under their names; the name that a definition repeats
inside itself has no part in what is generated.
-/

namespace Groundplan

/-- Constraints on the values of a property. -/
structure Rules where
  min : Option Double
  max : Option Double
  minLength : Option Int
  maxLength : Option Int
  pattern : Option String
  precision : Option Int
  deriving DecidableEq, Repr

/-- A named and typed part of an entity, event, command or query. A null default is no default. -/
structure Property where
  name : String
  typeText : String
  identifier : Bool
  required : Bool
  default : Value
  description : Option String
  rules : Option Rules
  computed : Option String

/-- A business rule of an aggregate, carried as documentation. -/
structure Invariant where
  name : String
  description : Option String
  expression : String
  deriving DecidableEq, Repr

/-- The root entity of an aggregate. -/
structure Entity where
  name : String
  properties : List Property

structure Aggregate where
  name : String
  description : Option String
  root : Entity
  invariants : List Invariant

/-- A value of an enumeration. -/
structure EnumValue where
  name : String
  description : Option String
  deriving DecidableEq, Repr

/-- What a value object consists of. -/
inductive Shape where
  | record (properties : List Property)
  | enumeration (values : List EnumValue)
  | identifier (underlying : String) (format start : Option String)

/-- An immutable type of the domain. -/
structure ValueObject where
  name : String
  description : Option String
  shape : Shape

/-- Something that happened. -/
structure Event where
  name : String
  description : Option String
  aggregate : Option String
  payload : List Property

/-- An expression with the message for when it does not hold. It is never evaluated. -/
structure Condition where
  expression : String
  message : String
  deriving DecidableEq, Repr

/-- A request to change something. -/
structure Command where
  name : String
  description : Option String
  aggregate : Option String
  payload : List Property
  produces : List String
  preconditions : List Condition
  validation : List Condition

/-- What a query answers with. -/
structure Returns where
  typeText : String
  nullable : Bool
  deriving DecidableEq, Repr

/-- A request to know something. -/
structure Query where
  name : String
  description : Option String
  parameters : List Property
  returns : Option Returns

/-- A subscription to an event of another context. -/
structure Subscription where
  context : String
  event : String
  handler : String
  description : Option String
  deriving DecidableEq, Repr

/-- The identity of a bounded context. -/
structure Context where
  name : String
  namespaceName : String
  description : Option String
  deriving DecidableEq, Repr

structure Model where
  version : String
  context : Context
  aggregates : Catalog Aggregate
  valueObjects : Catalog ValueObject
  events : Catalog Event
  commands : Catalog Command
  queries : Catalog Query
  subscriptions : List Subscription
  aliases : Catalog String

/-- What a model is called and how many definitions of each kind it has. -/
structure Summary where
  context : String
  namespaceName : String
  version : String
  aggregates : Nat
  valueObjects : Nat
  commands : Nat
  events : Nat
  queries : Nat
  subscriptions : Nat
  deriving DecidableEq, Repr

def Model.summary (m : Model) : Summary where
  context := m.context.name
  namespaceName := m.context.namespaceName
  version := m.version
  aggregates := m.aggregates.size
  valueObjects := m.valueObjects.size
  commands := m.commands.size
  events := m.events.size
  queries := m.queries.size
  subscriptions := m.subscriptions.length

/-- The five sections of a document that hold definitions under names. -/
inductive Section where
  | aggregates
  | valueObjects
  | events
  | commands
  | queries
  deriving DecidableEq, Repr

namespace Section

/-- The key of a section in a document. -/
def key : Section → String
  | .aggregates => "aggregates"
  | .valueObjects => "value_objects"
  | .events => "events"
  | .commands => "commands"
  | .queries => "queries"

/-- Every section, in the order in which documents are read. -/
def all : List Section := [.aggregates, .valueObjects, .events, .commands, .queries]

/-- The place of a definition, as messages name it. -/
def place (s : Section) (name : String) : String :=
  s.key ++ "." ++ name

end Section

end Groundplan
