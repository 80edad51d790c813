import Groundplan.Value

/-!
# Checked values

Decoding a value into a typed one collects every fault instead of stopping at the first. A fault
has a place, which is the path of keys and indices that leads to it, a cause and the value that was
given there.
-/

namespace Groundplan

/-- Why a value is not of the wanted type. -/
inductive Cause where
  | missing
  | string
  | stringBytes
  | list
  | dictionary
  | record (name : String)
  | shape
  | kindMissing
  | kind (given : String)
  | boolean
  | booleanText
  | integer
  | integerText
  | integerFraction
  | integerSize
  | finite
  | number
  | numberText
  | atLeast (bound : Int)
  | atMost (bound : Int)
  | unknownKey
  | refused (reason : String)
  deriving DecidableEq, Repr

namespace Cause

def message : Cause → String
  | .missing => "Field required"
  | .string => "Input should be a valid string"
  | .stringBytes => "Input should be a valid string, unable to parse raw data as a unicode string"
  | .list => "Input should be a valid list"
  | .dictionary => "Input should be a valid dictionary"
  | .record name => "Input should be a valid dictionary or instance of " ++ name
  | .shape => "Input should be a valid dictionary or object to extract fields from"
  | .kindMissing => "Unable to extract tag using discriminator 'kind'"
  | .kind given =>
    "Input tag '" ++ Text.lossy given ++
      "' found using 'kind' does not match any of the expected tags: " ++
      "'record', 'enum', 'identifier'"
  | .boolean => "Input should be a valid boolean"
  | .booleanText => "Input should be a valid boolean, unable to interpret input"
  | .integer => "Input should be a valid integer"
  | .integerText => "Input should be a valid integer, unable to parse string as an integer"
  | .integerFraction => "Input should be a valid integer, got a number with a fractional part"
  | .integerSize => "Unable to parse input string as an integer, exceeded maximum size"
  | .finite => "Input should be a finite number"
  | .number => "Input should be a valid number"
  | .numberText => "Input should be a valid number, unable to parse string as a number"
  | .atLeast bound => "Input should be greater than or equal to " ++ Text.decimalInt bound
  | .atMost bound => "Input should be less than or equal to " ++ Text.decimalInt bound
  | .unknownKey => "Extra inputs are not permitted"
  | .refused reason => "Value error, " ++ Text.lossy reason

/-- The short name of a cause in reports. -/
def code : Cause → String
  | .missing => "missing"
  | .string => "string_type"
  | .stringBytes => "string_unicode"
  | .list => "list_type"
  | .dictionary => "dict_type"
  | .record _ => "model_type"
  | .shape => "model_attributes_type"
  | .kindMissing => "union_tag_not_found"
  | .kind _ => "union_tag_invalid"
  | .boolean => "bool_type"
  | .booleanText => "bool_parsing"
  | .integer => "int_type"
  | .integerText => "int_parsing"
  | .integerFraction => "int_from_float"
  | .integerSize => "int_parsing_size"
  | .finite => "finite_number"
  | .number => "float_type"
  | .numberText => "float_parsing"
  | .atLeast _ => "greater_than_equal"
  | .atMost _ => "less_than_equal"
  | .unknownKey => "extra_forbidden"
  | .refused _ => "value_error"

end Cause

/-- How a key is written in a place. -/
def Scalar.placePart : Scalar → String
  | .str s => Text.lossy s
  | .bool b => if b then "1" else "0"
  | key => key.display?.getD (Value.scalar key).unshown

structure DecodeFault where
  place : List String
  cause : Cause
  given : Value

namespace DecodeFault

/-- A fault on one line: its place, with dots between the parts, and its cause. -/
def line (fault : DecodeFault) : String :=
  let place := ".".intercalate fault.place
  (if place.isEmpty then "<root>" else place) ++ ": " ++ fault.cause.message

/-- Faults on one line. -/
def describe (faults : List DecodeFault) : String :=
  "; ".intercalate (faults.map line)

end DecodeFault

/-- A decoded value, or all the faults that were found. -/
inductive Checked (α : Type) where
  | good (a : α)
  | bad (faults : List DecodeFault)

namespace Checked

variable {α β : Type}

def map (f : α → β) : Checked α → Checked β
  | .good a => .good (f a)
  | .bad faults => .bad faults

/-- Applies a decoded function to a decoded value; the faults of both are kept, in order. -/
def seq (f : Checked (α → β)) (a : Unit → Checked α) : Checked β :=
  match f, a () with
  | .good f, .good a => .good (f a)
  | .good _, .bad faults => .bad faults
  | .bad faults, .good _ => .bad faults
  | .bad faults, .bad more => .bad (faults ++ more)

instance : Applicative Checked where
  pure := .good
  seq := seq
  map := map

/-- A single fault where the value itself is at fault. -/
def fault (given : Value) (cause : Cause) : Checked α :=
  .bad [⟨[], cause, given⟩]

/-- The same result, one step further down. -/
def within (part : String) : Checked α → Checked α
  | .good a => .good a
  | .bad faults => .bad (faults.map fun fault => { fault with place := part :: fault.place })

def each (f : α → Checked β) : List α → Checked (List β)
  | [] => .good []
  | a :: as => List.cons <$> f a <*> each f as

/-- A decoded value, or the fault of a lenient reading. -/
def ofExcept (given : Value) : Except Cause α → Checked α
  | .ok a => .good a
  | .error cause => fault given cause

end Checked

/-! ### Records -/

namespace Entries

/-- The first of several keys that is present, with its value. -/
def first? (entries : Entries) (keys : List String) : Option (String × Value) :=
  keys.findSome? fun key => (get? entries key).map fun value => (key, value)

/-- The field under the first of several keys that is present, or another result if none is. -/
def fieldOr {α : Type} (entries : Entries) (keys : List String) (absent : Checked α)
    (read : Value → Checked α) : Checked α :=
  match entries.first? keys with
  | some (key, value) => (read value).within key
  | none => absent

/-- A field that has to be there. -/
def field {α : Type} (entries : Entries) (keys : List String) (read : Value → Checked α) :
    Checked α :=
  entries.fieldOr keys
    ((Checked.fault (.map entries) .missing : Checked α).within (keys.headD "")) read

/-- A field with a default; null is no value for it. -/
def fieldWith {α : Type} (entries : Entries) (keys : List String) (default : α)
    (read : Value → Checked α) : Checked α :=
  entries.fieldOr keys (.good default) read

/-- A field that may be absent or null. -/
def field? {α : Type} (entries : Entries) (keys : List String) (read : Value → Checked α) :
    Checked (Option α) :=
  entries.fieldOr keys (.good none) fun value =>
    if value.isNull then .good none else some <$> read value

end Entries

end Groundplan
