import Groundplan.Text.Lowercase
import Groundplan.Value
import Groundplan.Yaml.Tag

/-!
# Scalars from their text

The tag of a scalar says how its text is read. A text that a tag does not fit is a fault, which
says what was wrong.
-/

namespace Groundplan.Yaml

/-- A whole number of a base, or why its text spells none. Too many digits are refused before what
follows them is read. -/
def buildNumeral (base : Nat) (cs : List Char) : Except ScalarFault Int :=
  if base = 10 && Text.digitLimit < Text.leadingDigits cs then
    .error (.integerSize (Text.leadingDigits cs))
  else
    match Text.readInt? base cs with
    | some n => .ok n
    | none => .error (.integer (String.ofList cs) base)

/-- The parts of a text between colons. -/
def colonParts : List Char → List (List Char)
  | [] => [[]]
  | c :: cs =>
    match colonParts cs with
    | [] => [[c]]
    | part :: parts => if c = ':' then [] :: part :: parts else (c :: part) :: parts

/-- Builds a whole number. Underscores do not count; a sign comes first; the base is told by what
follows it. -/
def buildInt (text : String) : Except ScalarFault Int := do
  let cs := text.toList.filter fun c => !isUnderscore c
  if cs.isEmpty then throw .emptyNumber
  let (negative, body) := Text.splitSign cs
  let n ← match body with
    | [] => throw .emptyNumber
    | ['0'] => pure 0
    | '0' :: 'b' :: digits => buildNumeral 2 digits
    | '0' :: 'x' :: digits => buildNumeral 16 digits
    | '0' :: _ => buildNumeral 8 body
    | _ =>
      if body.contains ':' then do
        let parts ← (colonParts body).mapM (buildNumeral 10)
        pure (parts.foldl (fun acc part => acc * 60 + part) 0)
      else buildNumeral 10 body
  return if negative then -n else n

/-- A double, or why its text spells none. -/
def buildDecimal (cs : List Char) : Except ScalarFault Double :=
  match Double.read? (Text.numeralChars cs) with
  | some x => .ok x
  | none => .error (.float (String.ofList cs))

/-- The sum of base-60 digits, the last one first, from a power of sixty on. Every power has to be
a finite double. -/
def sumSixties : List Double → Int → Double → Except ScalarFault Double
  | [], _, total => .ok total
  | digit :: digits, scale, total =>
    let weight := Double.ofInt scale
    if weight.isFinite then sumSixties digits (scale * 60) (total.add (digit.mul weight))
    else .error .sixtiesSize

/-- The characters of a number with a point: underscores do not count, and large letters count as
small. -/
def floatChars (text : String) : List Char :=
  (Text.lowercase (String.ofList (text.toList.filter fun c => !isUnderscore c))).toList

/-- Whether a text is a sign and the word for what is not a number. -/
def isNanWord (text : String) : Bool :=
  (Text.splitSign (floatChars text)).2 = ['.', 'n', 'a', 'n']

def buildFloat (text : String) : Except ScalarFault Double := do
  let cs := floatChars text
  if cs.isEmpty then throw .emptyNumber
  if isNanWord text then return .nan
  let (negative, body) := Text.splitSign cs
  let x ←
    if body = ['.', 'i', 'n', 'f'] then pure (Double.infinite false)
    else if body.contains ':' then do
      let parts ← (colonParts body).mapM buildDecimal
      sumSixties parts.reverse 1 (Double.zero false)
    else buildDecimal body
  return if negative then x.neg else x

/-- Builds a truth value. Large letters count as small. -/
def buildBool (text : String) : Except ScalarFault Bool :=
  let word := Text.lowercase text
  if ["yes", "true", "on"].contains word then .ok true
  else if ["no", "false", "off"].contains word then .ok false
  else .error (.boolean word)

def digitsNumber (digits : List Char) : Nat :=
  digits.foldl (fun acc c => acc * 10 + (c.toNat - 0x30)) 0

/-- The microseconds that the digits of a fraction spell; no more than six count. -/
def fractionMicros (digits : List Char) : Nat :=
  digitsNumber ((digits ++ List.replicate 6 '0').take 6)

def buildTimestamp (text : String) : Except ScalarFault Scalar :=
  match writtenDate? (dropFinalNewline text.toList) with
  | none => .error .timestamp
  | some w =>
    let year := digitsNumber w.year
    let month := digitsNumber w.month
    let day := digitsNumber w.day
    match w.time with
    | none => ((Date.make year month day).map Scalar.date).mapError .calendar
    | some t =>
      let offset := t.zone.map fun (negative, hour, minute) =>
        let minutes : Int := ((digitsNumber hour * 60 + digitsNumber minute : Nat) : Int)
        if negative then -minutes else minutes
      ((Moment.make year month day (digitsNumber t.hour) (digitsNumber t.minute)
        (digitsNumber t.second) (fractionMicros t.fraction) offset).map Scalar.moment).mapError
          .calendar

/-- The value of a base-64 digit. -/
def base64Value? (c : Char) : Option Nat :=
  let n := c.toNat
  if 0x41 ≤ n && n ≤ 0x5a then some (n - 0x41)
  else if 0x61 ≤ n && n ≤ 0x7a then some (n - 0x47)
  else if 0x30 ≤ n && n ≤ 0x39 then some (n + 4)
  else if c = '+' then some 62
  else if c = '/' then some 63
  else none

/-- Decodes base-64 digits. `place` counts the digits of the present group of four, `left` holds the
bits not yet written and `pads` the padding marks since the last digit. Other characters do not
count; the group has to be complete at the end. -/
def base64From (place left pads : Nat) : List Char → Option (List UInt8)
  | [] => if place = 0 then some [] else none
  | c :: cs =>
    if c = '=' then
      if 2 ≤ place && 4 ≤ place + (pads + 1) then some []
      else base64From place left (if 2 ≤ place then pads + 1 else pads) cs
    else
      match base64Value? c with
      | none => base64From place left pads cs
      | some v =>
        match place with
        | 0 => base64From 1 v 0 cs
        | 1 => (base64From 2 (v % 16) 0 cs).map ((left * 4 + v / 16).toUInt8 :: ·)
        | 2 => (base64From 3 (v % 4) 0 cs).map ((left * 16 + v / 4).toUInt8 :: ·)
        | _ => (base64From 0 0 0 cs).map ((left * 64 + v).toUInt8 :: ·)

/-- Builds bytes from base-64 digits in ASCII. -/
def buildBinary (text : String) : Option (List UInt8) :=
  if text.toList.all fun c => c.toNat < 0x80 then base64From 0 0 0 text.toList else none

/-- Builds the scalar that a text denotes under a tag for scalars. -/
def buildScalar (tag : Tag) (text : String) : Except Fault Scalar :=
  match tag with
  | .null => .ok .null
  | .bool => ((buildBool text).map Scalar.bool).mapError .unbuildable
  | .int => ((buildInt text).map Scalar.int).mapError .unbuildable
  | .float => ((buildFloat text).map Scalar.float).mapError .unbuildable
  | .timestamp => (buildTimestamp text).mapError .unbuildable
  | .str => .ok (.str text)
  | .binary =>
    match buildBinary text with
    | some bytes => .ok (.bytes bytes)
    | none => .error .malformed
  | _ => .error .malformed

end Groundplan.Yaml
