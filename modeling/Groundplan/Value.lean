import Groundplan.Calendar
import Groundplan.Double
import Groundplan.Note
import Groundplan.Slots
import Groundplan.Text.Display

/-!
# Values of a document

A document denotes a value: a scalar, a list, a pair, a set of scalars or a mapping from scalars
to values. Mappings keep their entries in the order in which the keys first came. Two scalars are
the same key when they are equal numbers, whatever their kind, or the same text, bytes or time.
What is not a number equals nothing, not even itself.

The collections of a document form a graph: one collection may be a part of several others, and by
way of its parts a part of itself. A value can therefore be a place in a graph. It is *unfolded*
one level at a time; only a value that is shown is followed to its ends, and there a collection
that is met again inside itself is shown by dots.

A whole number with too many digits has no text, and so has no value that it is a part of. Nor can
a value be shown whose collections are nested too deep.
-/

namespace Groundplan

/-- A value without parts. -/
inductive Scalar where
  | null
  | bool (b : Bool)
  | int (n : Int)
  | float (x : Double)
  | str (s : String)
  | bytes (bs : List UInt8)
  | date (d : Date)
  | moment (m : Moment)
  deriving DecidableEq, Repr, Inhabited

/-- A part of a collection in a graph: a scalar, or the collection at a place. -/
inductive Part where
  | scalar (s : Scalar)
  | collection (place : Nat)
  deriving DecidableEq, Repr, Inhabited

/-- A collection in a graph. -/
inductive Collection where
  | list (items : List Part)
  | pairs (items : List (Part × Part))
  | set (members : List Scalar)
  | map (entries : List (Scalar × Part))
  deriving DecidableEq, Repr, Inhabited

/-- The collections of a document by their places. -/
abbrev Graph := Array Collection

/-- A value of a document. -/
inductive Value where
  | scalar (s : Scalar)
  | list (items : List Value)
  | pair (first second : Value)
  | set (members : List Scalar)
  | map (entries : List (Scalar × Value))
  | node (graph : Graph) (place : Nat)
  deriving Inhabited

/-- A graph with a text under a key of the mapping at a place; a key that is not there is not
added. -/
def Graph.putText (g : Graph) (place : Nat) (key text : String) : Graph :=
  g.modify place fun
    | .map entries =>
      .map (entries.map fun (k, part) => (k, if k = .str key then .scalar (.str text) else part))
    | other => other

/-- The entries of a mapping, in order. -/
abbrev Entries := List (Scalar × Value)

namespace Scalar

/-- The whole number that a scalar counts as when keys are compared. -/
def whole? : Scalar → Option Int
  | .bool b => some (if b then 1 else 0)
  | .int n => some n
  | .float x => x.toInt?
  | _ => none

/-- Whether two scalars are the same key. -/
def sameKey (a b : Scalar) : Bool :=
  match a, b with
  | .moment m, .moment m' => m.same m'
  | .float .nan, .float .nan => false
  | _, _ =>
    match a.whole?, b.whole? with
    | some n, some n' => n = n'
    | _, _ => a = b

/-- The residue of a number, by which sets are ordered. -/
def residue? : Scalar → Option Int
  | .bool b => some (if b then 1 else 0)
  | .int n =>
    let r : Int := ((n.natAbs % Double.residuePrime : Nat) : Int)
    let r := if n < 0 then -r else r
    some (if r = -1 then -2 else r)
  | .float x => x.residue?
  | _ => none

/-- A scalar as messages show it. -/
def display? : Scalar → Option String
  | .null => some "None"
  | .bool true => some "True"
  | .bool false => some "False"
  | .int n => Text.decimalInt? n
  | .float x => some x.text
  | .str s => some (Text.display s)
  | .bytes bs => some (Text.displayBytes bs)
  | .date d => some d.display
  | .moment m => some m.display

/-- A scalar as text: a text is itself, and times are written in their own form. -/
def text? : Scalar → Option String
  | .str s => some s
  | .date d => some d.text
  | .moment m => some (m.textWith " ")
  | s => s.display?

/-- Whether a scalar counts as present: null, false, zero and empty ones do not. -/
def truthy : Scalar → Bool
  | .null => false
  | .bool b => b
  | .int n => n ≠ 0
  | .float x => !x.isZero
  | .str s => !s.isEmpty
  | .bytes bs => !bs.isEmpty
  | .date _ => true
  | .moment _ => true

end Scalar

/-! ### The displayed form -/

/-- How deep collections may be nested to be shown. -/
def Value.showLimit : Nat := 985

/-- The wording for collections that are nested deeper than that. -/
def Value.deepMessage : String :=
  "maximum recursion depth exceeded while getting the repr of an object"

/-- Why a value cannot be shown: a number in it cannot be written, or it is nested too deep. -/
inductive Unshowable where
  | number
  | depth
  deriving DecidableEq, Repr

/-- What work meets that shows a value. -/
def Unshowable.obstacle : Unshowable → Obstacle
  | .number => .unwritableNumber
  | .depth => .deepValue

/-- A text unless there is none, because of a number in it. -/
def writable (text? : Option String) : Except Unshowable String :=
  text?.elim (.error .number) .ok

/-- The shown parts of a collection between two marks. -/
def enclose (opening closing : String) (parts : Except Unshowable (List String)) :
    Except Unshowable String :=
  parts.map fun shown => opening ++ ", ".intercalate shown ++ closing

/-- The members of a set in the order in which they are shown: numbers by their slots. Other members
have an order that changes from run to run, of which nothing is told; here they stay as they
came. -/
def shownOrder (members : List Scalar) : List Scalar :=
  match members.mapM fun s => s.residue?.map fun r => (r, s) with
  | some numbers => Slots.order numbers
  | none => members

def displaySet (members : List Scalar) : Except Unshowable String :=
  if members.isEmpty then .ok "set()"
  else enclose "\x7b" "\x7d" ((shownOrder members).mapM fun s => writable s.display?)

def displayEntry (key : Scalar) (value : Except Unshowable String) : Except Unshowable String := do
  return (← writable key.display?) ++ ": " ++ (← value)

/-- A part of a graph as messages show it, given how many levels of nesting are left. The path holds
the places of the collections around the part. -/
def Graph.display (g : Graph) : Nat → List Nat → Part → Except Unshowable String
  | _, _, .scalar s => writable s.display?
  | 0, _, .collection _ => .error .depth
  | levels + 1, path, .collection place =>
    let shown := Graph.display g levels (place :: path)
    let again := path.contains place
    match (g[place]?).getD (.list []) with
    | .list items => if again then .ok "[...]" else enclose "[" "]" (items.mapM shown)
    | .pairs items =>
      if again then .ok "[...]"
      else enclose "[" "]" (items.mapM fun (first, second) =>
        enclose "(" ")" ([first, second].mapM shown))
    | .set members => displaySet members
    | .map entries =>
      if again then .ok "\x7b...\x7d"
      else enclose "\x7b" "\x7d" (entries.mapM fun (key, value) => displayEntry key (shown value))

namespace Value

def null : Value := .scalar .null

def str (s : String) : Value := .scalar (.str s)

/-- The value that a part of a graph is. -/
def ofPart (g : Graph) : Part → Value
  | .scalar s => .scalar s
  | .collection place => .node g place

/-- The value that a collection of a graph is. -/
def ofCollection (g : Graph) : Collection → Value
  | .list items => .list (items.map (ofPart g))
  | .pairs items =>
    .list (items.map fun (first, second) => .pair (ofPart g first) (ofPart g second))
  | .set members => .set members
  | .map entries => .map (entries.map fun (key, value) => (key, ofPart g value))

/-- A value with its outermost collection open. -/
def unfold : Value → Value
  | .node g place => (g[place]?.map (ofCollection g)).getD null
  | value => value

/-- A value with a text under one of its keys. Where the value is a part of itself, the part has the
text as well. -/
def putText (key text : String) : Value → Value
  | .node g place => .node (g.putText place key text) place
  | value => value

mutual

/-- A value as messages show it, given how many levels of nesting are left. -/
def displayWithin : Nat → Value → Except Unshowable String
  | _, .scalar s => writable s.display?
  | levels, .node g place => Graph.display g levels [] (.collection place)
  | 0, _ => .error .depth
  | levels + 1, .list items => enclose "[" "]" (displayItems levels items)
  | levels + 1, .pair first second => enclose "(" ")" do
    return [← displayWithin levels first, ← displayWithin levels second]
  | _ + 1, .set members => displaySet members
  | levels + 1, .map entries => enclose "\x7b" "\x7d" (displayEntries levels entries)

def displayItems : Nat → List Value → Except Unshowable (List String)
  | _, [] => .ok []
  | levels, item :: items => do
    return (← displayWithin levels item) :: (← displayItems levels items)

def displayEntries : Nat → List (Scalar × Value) → Except Unshowable (List String)
  | _, [] => .ok []
  | levels, (key, value) :: entries => do
    return (← displayEntry key (displayWithin levels value)) :: (← displayEntries levels entries)

end

/-- A value as messages show it. -/
def display (value : Value) : Except Unshowable String :=
  displayWithin showLimit value

def display? (value : Value) : Option String :=
  value.display.toOption

/-- A value as text. -/
def text : Value → Except Unshowable String
  | .scalar s => writable s.text?
  | value => value.display

def text? (value : Value) : Option String :=
  value.text.toOption

/-- Whether a value counts as present: empty collections do not. -/
def truthy (value : Value) : Bool :=
  match value.unfold with
  | .scalar s => s.truthy
  | .list items => !items.isEmpty
  | .set members => !members.isEmpty
  | .map entries => !entries.isEmpty
  | _ => true

def isNull : Value → Bool
  | .scalar .null => true
  | _ => false

/-- The text that a value is, if it is one. -/
def str? : Value → Option String
  | .scalar (.str s) => some s
  | _ => none

def entries? (value : Value) : Option Entries :=
  match value.unfold with
  | .map entries => some entries
  | _ => none

/-- The name of a value's kind in messages. -/
def kindName (value : Value) : String :=
  match value.unfold with
  | .scalar .null => "NoneType"
  | .scalar (.bool _) => "bool"
  | .scalar (.int _) => "int"
  | .scalar (.float _) => "float"
  | .scalar (.str _) => "str"
  | .scalar (.bytes _) => "bytes"
  | .scalar (.date _) => "date"
  | .scalar (.moment _) => "datetime"
  | .list _ => "list"
  | .pair _ _ => "tuple"
  | .set _ => "set"
  | .map _ => "dict"
  | .node _ _ => "NoneType"

/-- What stands for a value that cannot be shown. -/
def unshown (value : Value) : String :=
  "<unprintable " ++ value.kindName ++ " object>"

end Value

namespace Entries

/-- The value under a key that is a text. -/
def get? (entries : Entries) (key : String) : Option Value :=
  (entries.find? fun entry => entry.1 = .str key).map Prod.snd

def has (entries : Entries) (key : String) : Bool :=
  (get? entries key).isSome

/-- Sets a key: the value is replaced where the key stands, or the entry is added at the end. -/
def put : Entries → Scalar → Value → Entries
  | [], key, value => [(key, value)]
  | (key', value') :: entries, key, value =>
    if key'.sameKey key then (key', value) :: entries
    else (key', value') :: put entries key value

def drop (entries : Entries) (key : String) : Entries :=
  entries.filter fun entry => entry.1 ≠ .str key

end Entries

end Groundplan
