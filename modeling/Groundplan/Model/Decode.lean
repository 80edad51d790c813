import Groundplan.Decode.Lenient
import Groundplan.Model.Basic
import Groundplan.Note

/-!
# From values to models

The value of a document is decoded field by field, in the order in which the fields are declared
here; unknown keys are passed over. Before that every definition takes the key it stands under as
its name, unless it gives one, and the flat form of a value object is folded into its shape.
-/

namespace Groundplan

/-! ### Parts of definitions -/

def Rules.decode : Value → Checked Rules :=
  Lenient.record "Validation" fun e =>
    Rules.mk <$> e.field? ["min"] Lenient.number
      <*> e.field? ["max"] Lenient.number
      <*> e.field? ["minLength", "min_length"] Lenient.integer
      <*> e.field? ["maxLength", "max_length"] Lenient.integer
      <*> e.field? ["pattern"] Lenient.string
      <*> e.field? ["precision"] Lenient.integer

def Property.decode : Value → Checked Property :=
  Lenient.record "Property" fun e =>
    Property.mk <$> e.field ["name"] Lenient.string
      <*> e.field ["type", "type_expr"] Lenient.string
      <*> e.fieldWith ["identifier"] false Lenient.boolean
      <*> e.fieldWith ["required"] true Lenient.boolean
      <*> e.fieldWith ["default"] .null Lenient.anything
      <*> e.field? ["description"] Lenient.string
      <*> e.field? ["validation"] Rules.decode
      <*> e.field? ["computed"] Lenient.string

def Invariant.decode : Value → Checked Invariant :=
  Lenient.record "Invariant" fun e =>
    Invariant.mk <$> e.field ["name"] Lenient.string
      <*> e.field? ["description"] Lenient.string
      <*> e.field ["expression"] Lenient.string

def Entity.decode : Value → Checked Entity :=
  Lenient.record "Entity" fun e =>
    Entity.mk <$> e.fieldWith ["name"] "" Lenient.string
      <*> e.fieldWith ["properties"] [] (Lenient.listOf Property.decode)

def Aggregate.decode : Value → Checked Aggregate :=
  Lenient.record "Aggregate" fun e =>
    Aggregate.mk <$> e.field ["name"] Lenient.string
      <*> e.field? ["description"] Lenient.string
      <*> e.field ["root_entity"] Entity.decode
      <*> e.fieldWith ["invariants"] [] (Lenient.listOf Invariant.decode)

def EnumValue.decode : Value → Checked EnumValue :=
  Lenient.record "EnumValue" fun e =>
    EnumValue.mk <$> e.field ["name"] Lenient.string
      <*> e.field? ["description"] Lenient.string

/-! ### Value objects -/

/-- The three kinds of shapes. -/
inductive ShapeKind where
  | record
  | enumeration
  | identifier
  deriving DecidableEq, Repr

namespace ShapeKind

/-- Every kind, in the order in which the keys of other kinds are looked for. -/
def all : List ShapeKind := [.record, .enumeration, .identifier]

def name : ShapeKind → String
  | .record => "record"
  | .enumeration => "enum"
  | .identifier => "identifier"

def ofName? (name : String) : Option ShapeKind :=
  all.find? fun kind => kind.name = name

/-- The keys that belong to a kind alone. -/
def keys : ShapeKind → List String
  | .record => ["properties"]
  | .enumeration => ["values"]
  | .identifier => ["underlying_type", "format", "prefix"]

/-- Decodes the shape of a kind from its keys. -/
def decode (kind : ShapeKind) (e : Entries) : Checked Shape :=
  match kind with
  | .record =>
    Shape.record <$> e.fieldWith ["properties"] [] (Lenient.listOf Property.decode)
  | .enumeration =>
    Shape.enumeration <$> e.fieldWith ["values"] [] (Lenient.listOf EnumValue.decode)
  | .identifier =>
    Shape.identifier <$> e.fieldWith ["underlying_type"] "String" Lenient.string
      <*> e.field? ["format"] Lenient.string
      <*> e.field? ["prefix"] Lenient.string

end ShapeKind

/-- A flat value object folded into the kind of its shape and the keys of that kind. -/
structure FoldedShape where
  kind : ShapeKind
  parts : Entries

/-- Why a flat value object has no shape. -/
inductive ShapeFault where
  | unknown (given : String)
  | unwritable
  | stray (kind : ShapeKind) (keys : List String)

namespace ShapeFault

def message : ShapeFault → String
  | .unknown given =>
    "Unknown value object type '" ++ given ++ "'. Expected one of: enum, identifier, record"
  | .unwritable => Text.unwritableMessage
  | .stray kind keys =>
    "Value object of type '" ++ kind.name ++ "' must not declare " ++ ", ".intercalate keys

end ShapeFault

namespace FoldedShape

/-- Whether a value says nothing: null, or an empty list or mapping. -/
def isVoid (value : Value) : Bool :=
  match value.unfold with
  | .scalar .null => true
  | .list [] => true
  | .map [] => true
  | _ => false

/-- The keys of a kind that a definition gives something for. -/
def givenKeys (e : Entries) (kind : ShapeKind) : List String :=
  kind.keys.filter fun key => !(e.get? key).all isVoid

/-- The kind of shape that a definition names, a record if it names none. -/
def kindOf (e : Entries) : Except ShapeFault ShapeKind :=
  let given := (e.get? "type").getD .null
  if given.truthy then
    match given.str?.bind ShapeKind.ofName? with
    | some kind => .ok kind
    | none => .error (given.text?.elim .unwritable .unknown)
  else .ok .record

/-- The keys of the first other kind that a definition gives something for. -/
def strayKeys? (e : Entries) (kind : ShapeKind) : Option (List String) :=
  (ShapeKind.all.filter (· ≠ kind)).findSome? fun other =>
    match givenKeys e other with
    | [] => none
    | stray => some stray

/-- The keys of a kind that are not null in a definition, with their values. -/
def partsOf (e : Entries) (kind : ShapeKind) : Entries :=
  kind.keys.filterMap fun key =>
    (e.get? key).bind fun value => if value.isNull then none else some (.str key, value)

/-- Folds a flat definition: it may give no keys of another kind, and of its own kind those that
are not null are kept. -/
def fold (e : Entries) : Except ShapeFault FoldedShape :=
  match kindOf e with
  | .error fault => .error fault
  | .ok kind =>
    match strayKeys? e kind with
    | some stray => .error (.stray kind stray)
    | none => .ok ⟨kind, partsOf e kind⟩

end FoldedShape

/-- Decodes a shape that is given as such, by the kind it names. -/
def Shape.decode (value : Value) : Checked Shape :=
  match value.entries? with
  | some e =>
    match e.get? "kind" with
    | none => Checked.fault value .kindMissing
    | some given =>
      match given.str?.bind ShapeKind.ofName? with
      | some kind => (kind.decode e).within kind.name
      | none => Checked.fault value (.kind (given.text?.getD given.unshown))
  | none => Checked.fault value .shape

/-- Decodes a value object, flat or with its shape given. -/
def ValueObject.decode (value : Value) : Checked ValueObject :=
  Lenient.record "ValueObject" (fun e =>
    let header (shape : Checked Shape) : Checked ValueObject :=
      ValueObject.mk <$> e.field ["name"] Lenient.string
        <*> e.field? ["description"] Lenient.string
        <*> shape
    if e.has "shape" then header (e.field ["shape"] Shape.decode)
    else
      match FoldedShape.fold e with
      | .ok folded =>
        header (((folded.kind.decode folded.parts).within folded.kind.name).within "shape")
      | .error fault => Checked.fault value (.refused fault.message)) value

/-! ### Other definitions -/

def Event.decode : Value → Checked Event :=
  Lenient.record "Event" fun e =>
    Event.mk <$> e.field ["name"] Lenient.string
      <*> e.field? ["description"] Lenient.string
      <*> e.field? ["aggregate"] Lenient.string
      <*> e.fieldWith ["payload"] [] (Lenient.listOf Property.decode)

def Condition.decode : Value → Checked Condition :=
  Lenient.record "Condition" fun e =>
    Condition.mk <$> e.field ["expression"] Lenient.string
      <*> e.field ["message"] Lenient.string

def Command.decode : Value → Checked Command :=
  Lenient.record "Command" fun e =>
    Command.mk <$> e.field ["name"] Lenient.string
      <*> e.field? ["description"] Lenient.string
      <*> e.field? ["aggregate"] Lenient.string
      <*> e.fieldWith ["payload"] [] (Lenient.listOf Property.decode)
      <*> e.fieldWith ["produces"] [] (Lenient.listOf Lenient.string)
      <*> e.fieldWith ["preconditions"] [] (Lenient.listOf Condition.decode)
      <*> e.fieldWith ["validation"] [] (Lenient.listOf Condition.decode)

def Returns.decode : Value → Checked Returns :=
  Lenient.record "ReturnType" fun e =>
    Returns.mk <$> e.field ["type", "type_expr"] Lenient.string
      <*> e.fieldWith ["nullable"] false Lenient.boolean

def Query.decode : Value → Checked Query :=
  Lenient.record "Query" fun e =>
    Query.mk <$> e.field ["name"] Lenient.string
      <*> e.field? ["description"] Lenient.string
      <*> e.fieldWith ["parameters"] [] (Lenient.listOf Property.decode)
      <*> e.field? ["returns"] Returns.decode

def Subscription.decode : Value → Checked Subscription :=
  Lenient.record "ExternalEventSubscription" fun e =>
    Subscription.mk <$> e.field ["context"] Lenient.string
      <*> e.field ["event"] Lenient.string
      <*> e.field ["handler"] Lenient.string
      <*> e.field? ["description"] Lenient.string

def Context.decode : Value → Checked Context :=
  Lenient.record "BoundedContext" fun e =>
    Context.mk <$> e.field ["name"] Lenient.string
      <*> e.field ["namespace"] Lenient.string
      <*> e.field? ["description"] Lenient.string

/-! ### Models -/

/-- Decodes a mapping from names; a bad name and a bad definition under it are both reported. -/
def catalogOf {α : Type} (read : Value → Checked α) (value : Value) : Checked (Catalog α) :=
  match value.entries? with
  | some entries =>
    Catalog.ofList <$> Checked.each
      (fun (key, definition) =>
        Prod.mk <$> ((Lenient.string (.scalar key)).within "[key]").within key.placePart
          <*> (read definition).within key.placePart)
      entries
  | none => Checked.fault value .dictionary

def Model.decode (e : Entries) : Checked Model :=
  Model.mk <$> e.field ["version"] Lenient.string
    <*> e.field ["bounded_context"] Context.decode
    <*> e.fieldWith ["aggregates"] .empty (catalogOf Aggregate.decode)
    <*> e.fieldWith ["value_objects"] .empty (catalogOf ValueObject.decode)
    <*> e.fieldWith ["events"] .empty (catalogOf Event.decode)
    <*> e.fieldWith ["commands"] .empty (catalogOf Command.decode)
    <*> e.fieldWith ["queries"] .empty (catalogOf Query.decode)
    <*> e.fieldWith ["external_events"] [] (Lenient.listOf Subscription.decode)
    <*> e.fieldWith ["type_aliases"] .empty (catalogOf Lenient.string)

/-! ### Names from keys -/

/-- A definition with the name of its key, if it gives none itself. -/
def nameFromKey (key : String) (definition : Value) : Value :=
  match definition.entries? with
  | some e =>
    if (e.get? "name").all Value.isNull then .map (e.put (.str "name") (.str key)) else definition
  | none => definition

/-- The definitions of a section under their keys as texts, each with a name. -/
def nameDefinitions? (entries : Entries) : Option Entries :=
  entries.foldlM
    (fun named (key, definition) => do
      let name ← key.text?
      return named.put (.str name) (nameFromKey name definition))
    []

/-- A section with its definitions named; a section that is null is left out. -/
def nameSection? (data : Entries) (s : Section) : Option Entries :=
  match data.get? s.key with
  | none => some data
  | some value =>
    if value.isNull then some (data.drop s.key)
    else
      match value.entries? with
      | some entries =>
        (nameDefinitions? entries).map fun named => data.put (.str s.key) (.map named)
      | none => some data

/-- A version that is no text as the text of its value. -/
def versionAsText (data : Entries) : Except Unshowable Entries :=
  match data.get? "version" with
  | some value => value.text.map fun text => data.put (.str "version") (.str text)
  | none => .ok data

/-- The entries without a key whose value is null. -/
def dropNull (data : Entries) (key : String) : Entries :=
  if (data.get? key).any Value.isNull then data.drop key else data

/-- The trail of naming a definition: it may give another name than its key. -/
def renameTrail (s : Section) (key : Scalar) (definition : Value) : Trail :=
  match key.text? with
  | none => .stop .unwritableNumber
  | some name =>
    match definition.entries?.bind (Entries.get? · "name") with
    | none => .done []
    | some declared =>
      if declared.isNull || declared.str? = some name then .done []
      else
        match declared.text with
        | .error why => .stop why.obstacle
        | .ok shown => .done [⟨.warning, .definitions,
            s.place name ++ " declares name '" ++ shown ++ "'; the map key '" ++ name ++
              "' is used for code generation"⟩]

/-- The trail of naming the definitions of a section. -/
def sectionTrail (data : Entries) (s : Section) : Trail :=
  match (data.get? s.key).bind Value.entries? with
  | some entries => Trail.each (fun (key, definition) => renameTrail s key definition) entries
  | none => .done []

/-- The trail of giving a document's version its text. -/
def versionTrail (data : Entries) : Trail :=
  match versionAsText data with
  | .ok _ => .done []
  | .error why => .stop why.obstacle

/-- The trail of giving a document's version and definitions their texts. -/
def namingTrail (data : Entries) : Trail :=
  versionTrail data ++ Trail.each (sectionTrail data) Section.all

/-- A document's entries with texts for keys, names for definitions and a text for its version.
There are none if something in them has to be written and cannot. -/
def prepare? (data : Entries) : Option Entries := do
  if (namingTrail data).broken then none
  let named ← Section.all.foldlM nameSection? (← (versionAsText data).toOption)
  return dropNull (dropNull named "external_events") "type_aliases"

/-- The kind of a collection that stands where a flat value object names its type. -/
def collectionType? (definition : Value) : Option String :=
  match definition.entries? with
  | none => none
  | some e =>
    if e.has "shape" then none
    else
      match (e.get? "type").map Value.unfold with
      | some (.list (_ :: _)) => some "list"
      | some (.map (_ :: _)) => some "dict"
      | some (.set (_ :: _)) => some "set"
      | _ => none

/-- The first value object whose type is a collection, which nothing can be looked up by. -/
def collectionTyped? (data : Entries) : Option String :=
  ((data.get? Section.valueObjects.key).bind Value.entries?).bind fun entries =>
    entries.findSome? fun entry => collectionType? entry.2

end Groundplan
