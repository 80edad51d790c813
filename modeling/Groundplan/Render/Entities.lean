import Groundplan.Render.Field
import Groundplan.Source.Module

/-!
# Entities and value objects

Each value object becomes an enumeration, an identifier type or an immutable record, and each
aggregate a record for its root. Enumerations come first, since the defaults of fields refer to
their members when a record is created; then identifiers, records and aggregates, each in order of
name.
-/

namespace Groundplan.Entities

open Source

/-! ### Generated types -/

/-- A member of a generated enumeration. -/
structure EnumMember where
  comment : Option String
  name : String
  value : String
  deriving DecidableEq, Repr

structure EnumerationType where
  name : String
  summary : String
  members : List EnumMember
  deriving DecidableEq, Repr

/-- A generated type that wraps one value. -/
structure IdentifierType where
  name : String
  summary : String
  underlying : String
  format : Option String
  start : Option String
  deriving DecidableEq, Repr

/-- A generated record; the records of value objects are frozen. -/
structure RecordType where
  name : String
  summary : String
  details : List String
  frozen : Bool
  fields : List Declaration
  deriving DecidableEq, Repr

/-- A type of the entities module. -/
inductive EntityType where
  | enumeration (t : EnumerationType)
  | identifier (t : IdentifierType)
  | record (t : RecordType)
  deriving DecidableEq, Repr

def EntityType.name : EntityType → String
  | .enumeration t => t.name
  | .identifier t => t.name
  | .record t => t.name

/-! ### From definitions to types -/

def enumerationType (name : String) (description : Option String) (values : List EnumValue) :
    EnumerationType where
  name := Name.pascal name
  summary := Text.docLineOr description (Name.pascal name ++ " enumeration.")
  members := values.map fun value => {
    comment := match value.description with
      | none | some "" => none
      | some description => some (Text.commentLine description)
    name := Name.constant value.name
    value := value.name }

def identifierType (s : Scope) (name : String) (description : Option String)
    (underlying : String) (format start : Option String) : IdentifierType where
  name := Name.pascal name
  summary := Text.docLineOr description (Name.pascal name ++ " identifier.")
  underlying := s.target underlying
  format := format
  start := start

def recordType (s : Scope) (name : String) (description : Option String)
    (properties : List Property) : RecordType where
  name := Name.pascal name
  summary := Text.docLineOr description (Name.pascal name ++ " value object.")
  details := []
  frozen := true
  fields := properties.map s.field

def invariantLine (i : Invariant) : String :=
  "    - " ++ Text.docLine i.name ++ ": " ++ Text.docLine i.expression ++
    match i.description with
    | none | some "" => ""
    | some description => " (" ++ Text.docLine description ++ ")"

/-- The docstring lines that name the identity of an aggregate. -/
def identityLines (properties : List Property) : List String :=
  match properties.filter Property.identifier with
  | [] => []
  | identity => ["Identity: " ++ ", ".intercalate (identity.map fun p => Name.member p.name)]

def invariantLines : List Invariant → List String
  | [] => []
  | invariants => "Invariants:" :: invariants.map invariantLine

def aggregateType (s : Scope) (name : String) (a : Aggregate) : RecordType where
  name := Name.pascal name
  summary := Text.docLineOr a.description (Name.pascal name ++ " aggregate root.")
  details := paragraphs [identityLines a.root.properties, invariantLines a.invariants]
  frozen := false
  fields := a.root.properties.map s.field

/-- The named value objects that are enumerations. -/
def enumerations (m : Model) : List EnumerationType :=
  m.valueObjects.sorted.filterMap fun (name, v) =>
    match v.shape with
    | .enumeration values => some (enumerationType name v.description values)
    | _ => none

/-- The named value objects that are identifiers. -/
def identifiers (s : Scope) (m : Model) : List IdentifierType :=
  m.valueObjects.sorted.filterMap fun (name, v) =>
    match v.shape with
    | .identifier underlying format start =>
      some (identifierType s name v.description underlying format start)
    | _ => none

/-- The named value objects that are records. -/
def records (s : Scope) (m : Model) : List RecordType :=
  m.valueObjects.sorted.filterMap fun (name, v) =>
    match v.shape with
    | .record properties => some (recordType s name v.description properties)
    | _ => none

def aggregates (s : Scope) (m : Model) : List RecordType :=
  m.aggregates.sorted.map fun (name, a) => aggregateType s name a

/-- Every generated type, in order. -/
def types (m : Model) : List EntityType :=
  let s := Scope.ofModel m
  (enumerations m).map .enumeration ++ (identifiers s m).map .identifier ++
    (records s m).map .record ++ (aggregates s m).map .record

/-! ### Source -/

def EnumMember.lines (m : EnumMember) : List String :=
  (m.comment.map fun comment => "# " ++ comment).toList ++
    [m.name ++ " = " ++ Text.literal m.value]

def EnumerationType.block (t : EnumerationType) : String :=
  Source.block ("class " ++ t.name ++ "(str, Enum):")
    (docstring t.summary [] ++ spaced (t.members.flatMap EnumMember.lines))

def IdentifierType.block (t : IdentifierType) : String :=
  Source.block ("class " ++ t.name ++ "(DomainModel):")
    (docstring t.summary [] ++ ["", "model_config = ConfigDict(frozen=True)"] ++
      spaced ((t.format.map fun text => "FORMAT: ClassVar[str] = " ++ Text.literal text).toList ++
        (t.start.map fun text => "PREFIX: ClassVar[str] = " ++ Text.literal text).toList) ++ [
      "",
      "value: " ++ t.underlying,
      "",
      "@classmethod",
      "def from_value(cls, value: " ++ t.underlying ++ ") -> " ++ t.name ++ ":",
      "    \"\"\"Wrap a raw value.\"\"\"",
      "    return cls(value=value)",
      "",
      "def into_value(self) -> " ++ t.underlying ++ ":",
      "    \"\"\"Unwrap the raw value.\"\"\"",
      "    return self.value",
      "",
      "def __str__(self) -> str:",
      "    return str(self.value)"])

def configLine (frozen : Bool) : String :=
  if frozen then "model_config = ConfigDict(frozen=True)"
  else "model_config = ConfigDict(from_attributes=True)"

def RecordType.block (t : RecordType) : String :=
  Source.block ("class " ++ t.name ++ "(DomainModel):")
    (docstring t.summary t.details ++ ["", configLine t.frozen] ++
      spaced (t.fields.flatMap Declaration.lines))

def EntityType.block : EntityType → String
  | .enumeration t => t.block
  | .identifier t => t.block
  | .record t => t.block

def imports : List (List Import) := [
  [.only "__future__" ["annotations"]],
  [.only "datetime" ["date", "datetime", "time"],
    .only "decimal" ["Decimal"],
    .only "enum" ["Enum"],
    .only "typing" ["ClassVar", "Generic", "List", "Optional", "TypeVar"],
    .only "uuid" ["UUID"]],
  [.only "pydantic" ["BaseModel", "ConfigDict", "Field"]]]

/-- The types that every entities module has. -/
def shared : List String := [
  "T = TypeVar(\"T\")",
  "",
  "",
  "class DomainModel(BaseModel):",
  "    \"\"\"Base for every generated record.\"\"\"",
  "",
  "    model_config = ConfigDict(populate_by_name=True)",
  "",
  "",
  "class PagedResult(DomainModel, Generic[T]):",
  "    \"\"\"One page of query results.\"\"\"",
  "",
  "    items: List[T] = Field(default_factory=list)",
  "    total: int = 0",
  "    page: int = 1",
  "    page_size: int = 20"]

def sourceModule (m : Model) : SourceModule where
  title := "Domain entities and value objects for the " ++ Text.docLine m.context.name ++
    " bounded context."
  imports := imports
  blocks := joinLines shared :: (types m).map EntityType.block

/-- The type expressions under the identifier types. -/
def underlyingTypes (m : Model) : List String :=
  m.valueObjects.sorted.filterMap fun (_, v) =>
    match v.shape with
    | .identifier underlying _ _ => some underlying
    | _ => none

/-- The properties that are rendered as fields of value objects. -/
def recordProperties (m : Model) : List Property :=
  m.valueObjects.sorted.flatMap fun (_, v) =>
    match v.shape with
    | .record properties => properties
    | _ => []

/-- The properties that are rendered as fields of aggregates. -/
def aggregateProperties (m : Model) : List Property :=
  m.aggregates.sorted.flatMap fun (_, a) => a.root.properties

def trail (m : Model) : Trail :=
  let s := Scope.ofModel m
  Trail.each s.typeTrail (underlyingTypes m) ++
    Trail.each s.fieldTrail (recordProperties m ++ aggregateProperties m) ++
    Trail.done [⟨.debug, .entities, "Generated " ++ Text.decimal m.valueObjects.size ++
      " value objects and " ++ Text.decimal m.aggregates.size ++ " aggregates"⟩]

end Groundplan.Entities
