import Groundplan.Render.Commands

/-!
# Events

Each event becomes a record with an id and a time, the id of its aggregate if it has one, and its
payload. A payload property that would take the name of one of these is left out, with a warning.
An envelope over all event records is tagged by their names.
-/

namespace Groundplan.Events

open Source

/-! ### Generated types -/

/-- The fields that event records have of their own. -/
inductive StandardField where
  | eventId
  | occurredAt
  | aggregateId
  deriving DecidableEq, Repr

namespace StandardField

def name : StandardField → String
  | .eventId => "event_id"
  | .occurredAt => "occurred_at"
  | .aggregateId => "aggregate_id"

def line : StandardField → String
  | .eventId => "event_id: UUID = Field(default_factory=uuid4)"
  | .occurredAt => "occurred_at: datetime = Field(default_factory=_utc_now)"
  | .aggregateId => "aggregate_id: str"

end StandardField

def hasAggregate (e : Event) : Bool :=
  e.aggregate.any fun name => name ≠ ""

def standardFields (e : Event) : List StandardField :=
  [.eventId, .occurredAt] ++ if hasAggregate e then [.aggregateId] else []

/-- Whether a payload property takes the name of a standard field. -/
def clashes (e : Event) (p : Property) : Bool :=
  (standardFields e).any fun field => field.name = Name.member p.name

/-- The payload properties that an event's record keeps. -/
def keptPayload (e : Event) : List Property :=
  e.payload.filter fun p => !clashes e p

/-- The record of an event. -/
structure EventType where
  name : String
  summary : String
  details : List String
  standard : List StandardField
  payload : List Declaration
  parameters : List Declaration
  deriving DecidableEq, Repr

/-- The parameters with which an event is created. -/
def parameters (s : Scope) (e : Event) : List Declaration :=
  (if hasAggregate e then [.bare "aggregate_id" "str"] else []) ++ (keptPayload e).map s.parameter

def eventType (s : Scope) (name : String) (e : Event) : EventType where
  name := Name.pascal name
  summary := Text.docLineOr e.description (Name.pascal name ++ " event.")
  details := Commands.aggregateLines e.aggregate
  standard := standardFields e
  payload := (keptPayload e).map s.field
  parameters := parameters s e

def EventType.fieldNames (t : EventType) : List String :=
  t.standard.map StandardField.name ++ t.payload.map Declaration.name

/-- The records of all events, in order of name. -/
def types (m : Model) : List EventType :=
  m.events.sorted.map fun (name, e) => eventType (Scope.ofModel m) name e

/-! ### Source -/

/-- The lines of the method that creates an event. -/
def EventType.constructorLines (t : EventType) : List String := [
  "@classmethod",
  "def new(" ++ ", ".intercalate ("cls" :: t.parameters.map Declaration.line) ++ ") -> " ++
    t.name ++ ":",
  "    \"\"\"Create the event with a fresh id and the current time.\"\"\"",
  "    return cls(" ++
    ", ".intercalate (t.parameters.map fun p => p.name ++ "=" ++ p.name) ++ ")"]

def EventType.block (t : EventType) : String :=
  Source.block ("class " ++ t.name ++ "(DomainModel):")
    (docstring t.summary t.details ++ [""] ++ t.standard.map StandardField.line ++
      t.payload.flatMap Declaration.lines ++ [""] ++ t.constructorLines)

/-- The source of the table of event types. -/
def registry (names : List String) : String :=
  joinLines (["EVENT_TYPES: Dict[str, Type[DomainModel]] = \x7b"] ++
    names.map (fun name => "    " ++ Text.literal name ++ ": " ++ name ++ ",") ++ ["\x7d"])

/-- The envelope where no events are declared. -/
def emptyEnvelope : List String := [
  "EVENT_TYPES: Dict[str, Type[DomainModel]] = \x7b\x7d",
  "",
  "",
  "class DomainEvent(DomainModel):",
  "    \"\"\"Envelope over the events of this bounded context (none are declared).\"\"\"",
  "",
  "    type: str",
  "    data: Dict[str, Any] = Field(default_factory=dict)",
  "",
  "    @property",
  "    def event_id(self) -> UUID:",
  "        return UUID(str(self.data[\"event_id\"]))",
  "",
  "    @property",
  "    def occurred_at(self) -> datetime:",
  "        return datetime.fromisoformat(str(self.data[\"occurred_at\"]))"]

/-- The methods of the envelope. -/
def envelopeMethods : List String := [
  "@model_validator(mode=\"before\")",
  "@classmethod",
  "def decode_data(cls, values: Any) -> Any:",
  "    \"\"\"Decode ``data`` with the record class named by ``type``.\"\"\"",
  "    if isinstance(values, dict):",
  "        event_class = EVENT_TYPES.get(values.get(\"type\"))",
  "        data = values.get(\"data\")",
  "        if event_class is not None and isinstance(data, dict):",
  "            values = \x7b**values, \"data\": event_class.model_validate(data)\x7d",
  "    return values",
  "",
  "@classmethod",
  "def wrap(cls, event: DomainModel) -> DomainEvent:",
  "    \"\"\"Put an event record into the envelope.\"\"\"",
  "    return cls(type=type(event).__name__, data=event)",
  "",
  "@property",
  "def event_id(self) -> UUID:",
  "    return self.data.event_id",
  "",
  "@property",
  "def occurred_at(self) -> datetime:",
  "    return self.data.occurred_at"]

/-- The source of the envelope over events of the given names. -/
def envelope (names : List String) : String :=
  Source.block "class DomainEvent(DomainModel):"
    (docstring "Envelope over every event of this bounded context, tagged by type." [] ++ [
      "",
      "type: Literal[" ++ ", ".intercalate (names.map Text.literal) ++ "]",
      "data: Union[" ++ ", ".intercalate names ++ "]",
      ""] ++ envelopeMethods)

/-- The blocks that tie all event records together. -/
def envelopeBlocks : List String → List String
  | [] => [joinLines emptyEnvelope]
  | names => [registry names, envelope names]

def subscriptionLines (s : Subscription) : List String :=
  ["    ExternalEventSubscription(",
    "        context=" ++ Text.literal s.context ++ ",",
    "        event=" ++ Text.literal s.event ++ ",",
    "        handler=" ++ Text.literal s.handler ++ ","] ++
    (match s.description with
      | none | some "" => []
      | some description => ["        description=" ++ Text.literal description ++ ","]) ++
    ["    ),"]

/-- The source of the list of subscriptions. -/
def subscriptionList : List Subscription → String
  | [] => "EXTERNAL_EVENT_SUBSCRIPTIONS: Tuple[ExternalEventSubscription, ...] = ()"
  | subscriptions =>
    joinLines (["EXTERNAL_EVENT_SUBSCRIPTIONS: Tuple[ExternalEventSubscription, ...] = ("] ++
      subscriptions.flatMap subscriptionLines ++ [")"])

def imports : List (List Import) := [
  [.only "__future__" ["annotations"]],
  [.only "datetime" ["date", "datetime", "time", "timezone"],
    .only "decimal" ["Decimal"],
    .only "typing" ["Any", "Dict", "List", "Literal", "NamedTuple", "Optional", "Tuple", "Type",
      "Union"],
    .only "uuid" ["UUID", "uuid4"]],
  [.only "pydantic" ["Field", "model_validator"]],
  [.everything ".entities",
    .only ".entities" ["DomainModel"]]]

def utcNow : List String := [
  "def _utc_now() -> datetime:",
  "    return datetime.now(timezone.utc)"]

/-- The type of an event's metadata. -/
def metadataType : List String := [
  "class EventMetadata(DomainModel):",
  "    \"\"\"Storage metadata recorded alongside every persisted event.\"\"\"",
  "",
  "    event_id: UUID",
  "    event_type: str",
  "    aggregate_id: str",
  "    aggregate_type: str",
  "    sequence_number: int",
  "    occurred_at: datetime",
  "    stored_at: datetime",
  "    correlation_id: Optional[UUID] = None",
  "    causation_id: Optional[UUID] = None"]

/-- The type of a subscription. -/
def subscriptionType : List String := [
  "class ExternalEventSubscription(NamedTuple):",
  "    \"\"\"Event published by another bounded context that this context handles.\"\"\"",
  "",
  "    context: str",
  "    event: str",
  "    handler: str",
  "    description: Optional[str] = None"]

def sourceModule (m : Model) : SourceModule where
  title := "Domain events for the " ++ Text.docLine m.context.name ++ " bounded context."
  imports := imports
  blocks := [joinLines utcNow] ++ (types m).map EventType.block ++
    envelopeBlocks ((types m).map EventType.name) ++
    [joinLines metadataType, joinLines subscriptionType, subscriptionList m.subscriptions]

/-- The warnings about payload properties that are left out. -/
def clashNotes (e : Event) : List Note :=
  (e.payload.filter (clashes e)).map fun p =>
    ⟨.warning, .events, "Event " ++ e.name ++ ": payload property '" ++ p.name ++
      "' clashes with a standard event field and is skipped"⟩

def trail (m : Model) : Trail :=
  let s := Scope.ofModel m
  Trail.each
      (fun (_, e) => Trail.done (clashNotes e) ++ Trail.each s.fieldTrail (keptPayload e))
      m.events.sorted ++
    Trail.done [⟨.debug, .events, "Generated " ++ Text.decimal m.events.size ++ " events"⟩]

end Groundplan.Events
