import Groundplan.Decode.Checked
import Groundplan.Text.Utf8

/-!
# Lenient readings

A value of one kind is accepted where another is wanted if it can only mean one thing: a numeral
for a number, a word for a truth value, zero and one for both, and bytes for the text they encode.
-/

namespace Groundplan.Lenient

/-- The text of a value that is one, or of bytes that encode one. Bytes that encode none are at
fault in the given way. -/
def text? (unreadable : Cause) : Value → Option (Except Cause String)
  | .scalar (.str s) => some (.ok s)
  | .scalar (.bytes bs) => some <|
    match Text.decodeUtf8 bs with
    | .ok cs => .ok (String.ofList (Text.carry cs))
    | .error _ => .error unreadable
  | _ => none

/-- The characters of a value that is a text without surrogates, or bytes that encode one. -/
def characters? (unreadable : Cause) (value : Value) : Option (Except Cause (List Char)) :=
  (text? unreadable value).map fun result => do
    let text ← result
    if Text.hasSurrogate text then throw .stringBytes
    return text.toList

def string (value : Value) : Checked String :=
  Checked.ofExcept value ((text? .stringBytes value).getD (.error .string))

/-- The words for the two truth values. -/
def booleanWords : List (String × Bool) := [
  ("0", false), ("off", false), ("f", false), ("false", false), ("n", false), ("no", false),
  ("1", true), ("on", true), ("t", true), ("true", true), ("y", true), ("yes", true)]

/-- Whether a whole number fits into a signed word of 64 bits. -/
def isWord (n : Int) : Bool :=
  -(Nat.pow 2 63 : Int) ≤ n && n < (Nat.pow 2 63 : Int)

/-- A truth value. -/
def boolean (value : Value) : Checked Bool :=
  Checked.ofExcept value <|
    match characters? .booleanText value with
    | some cs => do
      match booleanWords.lookup (String.ofList ((← cs).map Char.toLower)) with
      | some b => return b
      | none => throw .booleanText
    | none =>
      match value with
      | .scalar (.bool b) => .ok b
      | .scalar (.int n) =>
        if n = 0 then .ok false
        else if n = 1 then .ok true
        else if isWord n then .error .booleanText
        else .error .boolean
      | .scalar (.float x) =>
        match x.toInt? with
        | some 0 => .ok false
        | some 1 => .ok true
        | some n => .error (if n.natAbs < Nat.pow 2 63 then .booleanText else .boolean)
        | none => .error .boolean
      | _ => .error .boolean

/-- A digit other than zero. -/
def isCount (c : Char) : Bool :=
  c.isDigit && c ≠ '0'

/-- What follows the zeros, and the underscores among them, at the start of a numeral; `last` is the
latest of them. It may begin with a minus sign. Before a point, and where nothing follows, the
latest one stays. -/
def afterZeros? (last : Char) : List Char → Option (List Char)
  | [] => some [last]
  | c :: cs =>
    if c = '0' || c = '_' then afterZeros? c cs
    else if isCount c || c = '-' then some (c :: cs)
    else if c = '.' then some (last :: c :: cs)
    else none

/-- A numeral without the zeros at its start. -/
def dropZeros? : List Char → Option (List Char)
  | [] => none
  | c :: cs =>
    if c = '0' then afterZeros? c cs
    else if isCount c || c = '-' then some (c :: cs)
    else none

/-- A numeral without a point that only zeros follow, and at least one. -/
def dropZeroFraction (cs : List Char) : List Char :=
  match cs.dropWhile (· ≠ '.') with
  | [] => cs
  | _ :: zeros => if !zeros.isEmpty && zeros.all (· = '0') then cs.takeWhile (· ≠ '.') else cs

/-- A numeral without its underscores, if each of them stands between two other characters. -/
def dropUnderscores? (cs : List Char) : Option (List Char) :=
  let pieces := Text.runs (· = '_') cs
  if cs.contains '_' && pieces.flatten.length + (pieces.length - 1) = cs.length then
    some pieces.flatten
  else none

/-- The whole number that digits spell, with a minus sign or none. Zero is one digit, and other
numbers do not begin with it. Too many digits are refused before what follows them is read. -/
def readWhole (cs : List Char) : Except Cause Int :=
  let (negative, body) := match cs with
    | '-' :: rest => (true, rest)
    | _ => (false, cs)
  let digits := body.takeWhile Char.isDigit
  if body = ['0'] then .ok 0
  else if !digits.head?.any isCount then .error .integerText
  else if Text.digitLimit < digits.length then .error .integerSize
  else if digits.length < body.length then .error .integerText
  else
    let n : Int := digits.foldl (fun acc c => acc * 10 + (c.toNat - 0x30 : Nat)) 0
    .ok (if negative then -n else n)

/-- A numeral with nothing left of padding, a plus sign, zeros at its start, a fraction of zeros and
underscores. A plus sign does not stand before a minus sign. -/
def tidy? (cs : List Char) : Option (List Char) := do
  let (sign, body) := match Text.trim cs with
    | '-' :: rest => (['-'], rest)
    | '+' :: '-' :: _ => ([], [])
    | '+' :: rest => ([], rest)
    | rest => ([], rest)
  let body := dropZeroFraction (← dropZeros? body)
  return sign ++ (dropUnderscores? body).getD body

/-- The whole number that a numeral spells. Only of one that is tidy as it stands is it said that it
is too long. -/
def readInteger (cs : List Char) : Except Cause Int :=
  match readWhole cs with
  | .error .integerText =>
    match (tidy? cs).map readWhole with
    | some (.ok n) => .ok n
    | _ => .error .integerText
  | result => result

/-- A whole number. -/
def integer (value : Value) : Checked Int :=
  Checked.ofExcept value <|
    match characters? .integerText value with
    | some cs => do readInteger (← cs)
    | none =>
      match value with
      | .scalar (.bool b) => .ok (if b then 1 else 0)
      | .scalar (.int n) => .ok n
      | .scalar (.float (.finite s m e)) =>
        match (Double.finite s m e).toInt? with
        | none => .error .integerFraction
        | some n => if n.natAbs < Nat.pow 2 63 then .ok n else .error .integerSize
      | .scalar (.float _) => .error .finite
      | _ => .error .integer

/-- The double that a numeral spells. Padding and underscores do not go together. -/
def readNumber? (cs : List Char) : Option Double :=
  match Double.read? (Text.trim cs) with
  | some x => some x
  | none => (dropUnderscores? cs).bind Double.read?

/-- A double. -/
def number (value : Value) : Checked Double :=
  Checked.ofExcept value <|
    match characters? .numberText value with
    | some cs => do
      match readNumber? (← cs) with
      | some x => return x
      | none => throw .numberText
    | none =>
      match value with
      | .scalar (.bool b) => .ok (Double.ofInt (if b then 1 else 0))
      | .scalar (.int n) =>
        match Double.ofInt n with
        | .infinite _ => .error .number
        | x => .ok x
      | .scalar (.float x) => .ok x
      | _ => .error .number

def anything (value : Value) : Checked Value :=
  .good value

/-- The items of a list, a pair or a set. -/
def items? (value : Value) : Option (List Value) :=
  match value.unfold with
  | .list items => some items
  | .pair first second => some [first, second]
  | .set members => some (members.map Value.scalar)
  | _ => none

/-- A list whose items are read in a given way. -/
def listOf {α : Type} (read : Value → Checked α) (value : Value) : Checked (List α) :=
  match items? value with
  | some items =>
    Checked.each (fun (item, index) => (read item).within (Text.decimal index)) items.zipIdx
  | none => Checked.fault value .list

/-- A record: a mapping whose fields are read in a given way. -/
def record {α : Type} (name : String) (read : Entries → Checked α) (value : Value) : Checked α :=
  match value.entries? with
  | some entries => read entries
  | none => Checked.fault value (.record name)

end Groundplan.Lenient
