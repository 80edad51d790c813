import Groundplan.Text.Blank
import Groundplan.Yaml.Fault

/-!
# Tags and the types of plain scalars

A node's tag names the type of its value. A plain scalar without a tag takes the first type whose
form its text has: truth value, number with a point, whole number, merge mark, null, time, default
mark; any other text is a string.
-/

namespace Groundplan.Yaml

/-- The type of a node's value. -/
inductive Tag where
  | null
  | bool
  | int
  | float
  | binary
  | timestamp
  | omap
  | pairs
  | set
  | str
  | seq
  | map
  | merge
  | value
  | other
  deriving DecidableEq, Repr

namespace Tag

/-- What the full names of the common tags begin with. -/
def authority : String := "tag:yaml.org,2002:"

/-- The tags by the rest of their full names. -/
def names : List (String × Tag) := [
  ("null", .null), ("bool", .bool), ("int", .int), ("float", .float), ("binary", .binary),
  ("timestamp", .timestamp), ("omap", .omap), ("pairs", .pairs), ("set", .set), ("str", .str),
  ("seq", .seq), ("map", .map), ("merge", .merge), ("value", .value)]

def ofName (name : String) : Tag :=
  ((names.find? fun entry => authority ++ entry.1 = name).map Prod.snd).getD .other

end Tag

/-! ### The forms of plain scalars -/

/-- A digit or a character of another class. -/
def isDigitOr (extra : Char → Bool) (c : Char) : Bool :=
  c.isDigit || extra c

def isUnderscore (c : Char) : Bool :=
  c = '_'

/-- Whether a text is a truth value: three words each way, in small, capital or large letters. -/
def isBoolForm (cs : List Char) : Bool :=
  ["yes", "Yes", "YES", "no", "No", "NO", "true", "True", "TRUE", "false", "False", "FALSE",
    "on", "On", "ON", "off", "Off", "OFF"].contains (String.ofList cs)

def dropSign : List Char → List Char
  | '-' :: cs => cs
  | '+' :: cs => cs
  | cs => cs

/-- An exponent with a sign, or nothing. -/
def isExponentForm : List Char → Bool
  | [] => true
  | mark :: sign :: digits =>
    (mark = 'e' || mark = 'E') && (sign = '-' || sign = '+') && !digits.isEmpty &&
      digits.all Char.isDigit
  | _ => false

/-- One base-60 digit behind a colon: an optional digit up to five, then a digit. -/
def dropSixty? : List Char → Option (List Char)
  | ':' :: c :: d :: cs =>
    if c.isDigit && c.toNat ≤ 0x35 && d.isDigit then some cs
    else if c.isDigit then some (d :: cs)
    else none
  | [':', c] => if c.isDigit then some [] else none
  | _ => none

/-- Drops base-60 digits, as many as there are. -/
def dropSixties : Nat → List Char → List Char
  | 0, cs => cs
  | fuel + 1, cs =>
    match dropSixty? cs with
    | some rest => dropSixties fuel rest
    | none => cs

/-- What follows a first digit of a class and more digits and underscores. -/
def afterDigits? (first : Char → Bool) : List Char → Option (List Char)
  | c :: cs => if first c then some (cs.dropWhile (isDigitOr isUnderscore)) else none
  | [] => none

/-- Whether a text is a number with a point, a base-60 number with a point, an infinity or not a
number. -/
def isFloatForm (cs : List Char) : Bool :=
  let unsigned := dropSign cs
  let pointed : Bool := match afterDigits? Char.isDigit unsigned with
    | some ('.' :: rest) => isExponentForm (rest.dropWhile (isDigitOr isUnderscore))
    | _ => false
  let bare : Bool := match cs with
    | '.' :: rest =>
      match afterDigits? Char.isDigit rest with
      | some rest => isExponentForm rest
      | none => false
    | _ => false
  let sixty : Bool := match afterDigits? Char.isDigit unsigned with
    | some rest =>
      match dropSixty? rest with
      | some more =>
        match dropSixties more.length more with
        | '.' :: fraction => fraction.all (isDigitOr isUnderscore)
        | _ => false
      | none => false
    | none => false
  let word := String.ofList cs
  pointed || bare || sixty || [".inf", ".Inf", ".INF"].contains (String.ofList unsigned) ||
    [".nan", ".NaN", ".NAN"].contains word

/-- Whether digits of some class and underscores make up a text that is not empty. -/
def isAllOf (digit : Char → Bool) (cs : List Char) : Bool :=
  !cs.isEmpty && cs.all fun c => digit c || isUnderscore c

/-- Whether a text is a whole number of base 2, 8, 10, 16 or 60. -/
def isIntForm (cs : List Char) : Bool :=
  let unsigned := dropSign cs
  let marked : Bool := match unsigned with
    | '0' :: 'b' :: digits => isAllOf (fun c => c = '0' || c = '1') digits
    | '0' :: 'x' :: digits =>
      isAllOf (fun c => c.isDigit || ('a' ≤ c && c ≤ 'f') || ('A' ≤ c && c ≤ 'F')) digits
    | _ => false
  let octal : Bool := match unsigned with
    | '0' :: digits => isAllOf (fun c => '0' ≤ c && c ≤ '7') digits
    | _ => false
  let plain : Bool :=
    match unsigned with
    | ['0'] => true
    | _ =>
      match afterDigits? (fun c => c.isDigit && c ≠ '0') unsigned with
      | some [] => true
      | some rest =>
        match dropSixty? rest with
        | some more => (dropSixties more.length more).isEmpty
        | none => false
      | none => false
  marked || octal || plain

/-- Reads `least` to `most` digits. -/
def takeDigits? (least most : Nat) (cs : List Char) : Option (List Char × List Char) :=
  let digits := (cs.take most).takeWhile Char.isDigit
  if digits.length < least then none else some (digits, cs.drop digits.length)

def takeChar? (c : Char) : List Char → Option (List Char)
  | d :: cs => if c = d then some cs else none
  | [] => none

/-- The numbers of a written time, as their digits. -/
structure WrittenTime where
  hour : List Char
  minute : List Char
  second : List Char
  fraction : List Char
  zone : Option (Bool × List Char × List Char)
  deriving DecidableEq, Repr

/-- The numbers of a written date, and of the time behind it. -/
structure WrittenDate where
  year : List Char
  month : List Char
  day : List Char
  time : Option WrittenTime
  deriving DecidableEq, Repr

/-- Reads the zone at the end of a written time: nothing, the letter for universal time, or a sign,
hours and minutes. -/
def writtenZone? (cs : List Char) : Option (Option (Bool × List Char × List Char)) :=
  match cs.dropWhile fun c => c = ' ' || c = '\t' with
  | [] => if cs.isEmpty then some none else none
  | ['Z'] => some (some (false, [], []))
  | sign :: rest =>
    if sign = '-' || sign = '+' then do
      let (hour, rest) ← takeDigits? 1 2 rest
      match rest with
      | [] => some (some (sign = '-', hour, []))
      | _ =>
        let (minute, rest) ← takeDigits? 2 2 (← takeChar? ':' rest)
        if rest.isEmpty then some (some (sign = '-', hour, minute)) else none
    else none

/-- Reads the time of a written moment. -/
def writtenTime? (cs : List Char) : Option WrittenTime := do
  let (hour, cs) ← takeDigits? 1 2 cs
  let (minute, cs) ← takeDigits? 2 2 (← takeChar? ':' cs)
  let (second, cs) ← takeDigits? 2 2 (← takeChar? ':' cs)
  let (fraction, cs) := match cs with
    | '.' :: rest => (rest.takeWhile Char.isDigit, rest.dropWhile Char.isDigit)
    | _ => ([], cs)
  let zone ← writtenZone? cs
  return ⟨hour, minute, second, fraction, zone⟩

/-- The text behind what separates a date from a time. -/
def dropTimeMark? : List Char → Option (List Char)
  | c :: cs =>
    if c = 'T' || c = 't' then some cs
    else if c = ' ' || c = '\t' then some (cs.dropWhile fun c => c = ' ' || c = '\t')
    else none
  | [] => none

/-- Reads a date with a time or without one. -/
def writtenDate? (cs : List Char) : Option WrittenDate := do
  let (year, cs) ← takeDigits? 4 4 cs
  let (month, cs) ← takeDigits? 1 2 (← takeChar? '-' cs)
  let (day, cs) ← takeDigits? 1 2 (← takeChar? '-' cs)
  if cs.isEmpty then return ⟨year, month, day, none⟩
  let time ← writtenTime? (← dropTimeMark? cs)
  return ⟨year, month, day, some time⟩

/-- Whether a text is a time. A date that stands alone has two digits for month and day. -/
def isTimestampForm (cs : List Char) : Bool :=
  match writtenDate? cs with
  | some date => date.time.isSome || (date.month.length = 2 && date.day.length = 2)
  | none => false

def dropFinalNewline (cs : List Char) : List Char :=
  if cs.getLast? = some '\n' then cs.dropLast else cs

/-- The type of a plain scalar, by the form of its text. -/
def plainTag (text : String) : Tag :=
  let cs := dropFinalNewline text.toList
  if isBoolForm cs then .bool
  else if isFloatForm cs then .float
  else if isIntForm cs then .int
  else if cs = ['<', '<'] then .merge
  else if text.isEmpty || ["~", "null", "Null", "NULL"].contains (String.ofList cs) then .null
  else if isTimestampForm cs then .timestamp
  else if cs = ['='] then .value
  else if cs = ['!'] || cs = ['&'] || cs = ['*'] then .other
  else .str

end Groundplan.Yaml
