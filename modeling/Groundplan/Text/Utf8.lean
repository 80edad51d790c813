import Groundplan.Text.Numeral
import Groundplan.Text.Points

/-!
# UTF-8

Bytes are decoded character by character. The first sequence that encodes no character is
reported with its place and its kind: a byte that starts nothing, a byte that does not continue
what came before, or an end in the middle of a character. A text is encoded unless it has
surrogates; the first row of them is reported.
-/

namespace Groundplan.Text

/-- What is wrong with a sequence of bytes. -/
inductive Utf8Cause where
  | start
  | continuation
  | truncated
  deriving DecidableEq, Repr

/-- The bytes `first`, `first + 1`, …, `last` encode no character; `byte` is the one at `first`. -/
structure Utf8Fault where
  byte : UInt8
  first : Nat
  last : Nat
  cause : Utf8Cause
  deriving DecidableEq, Repr

/-- The number of continuation bytes that a first byte asks for, and the least and greatest value
of the first of them. -/
def utf8Plan? (b : UInt8) : Option (Nat × UInt8 × UInt8) :=
  if b < 0x80 then some (0, 0x80, 0xbf)
  else if b < 0xc2 then none
  else if b < 0xe0 then some (1, 0x80, 0xbf)
  else if b = 0xe0 then some (2, 0xa0, 0xbf)
  else if b = 0xed then some (2, 0x80, 0x9f)
  else if b < 0xf0 then some (2, 0x80, 0xbf)
  else if b = 0xf0 then some (3, 0x90, 0xbf)
  else if b < 0xf4 then some (3, 0x80, 0xbf)
  else if b = 0xf4 then some (3, 0x80, 0x8f)
  else none

/-- The number of bytes from the front that are continuation bytes within bounds; the bounds hold
for the first of them only. -/
def continued : Nat → UInt8 → UInt8 → List UInt8 → Nat
  | 0, _, _, _ => 0
  | _, _, _, [] => 0
  | n + 1, low, high, b :: bs =>
    if low ≤ b && b ≤ high then continued n 0x80 0xbf bs + 1 else 0

/-- The character that a first byte and its continuation bytes encode. -/
def utf8Char (first : UInt8) (more : List UInt8) : Char :=
  let lead := match more.length with
    | 0 => first.toNat
    | 1 => first.toNat % 0x20
    | 2 => first.toNat % 0x10
    | _ => first.toNat % 0x08
  Char.ofNat (more.foldl (fun acc b => acc * 0x40 + b.toNat % 0x40) lead)

/-- Decodes bytes from a position on; `fuel` bounds the number of characters. -/
def decodeFrom : Nat → Nat → List UInt8 → Except Utf8Fault (List Char)
  | 0, _, _ => .ok []
  | _, _, [] => .ok []
  | fuel + 1, position, b :: bs =>
    match utf8Plan? b with
    | none => .error ⟨b, position, position, .start⟩
    | some (wanted, low, high) =>
      let got := continued wanted low high bs
      if got = wanted then
        (decodeFrom fuel (position + 1 + wanted) (bs.drop wanted)).map
          (utf8Char b (bs.take wanted) :: ·)
      else if got = bs.length then .error ⟨b, position, position + got, .truncated⟩
      else .error ⟨b, position, position + got, .continuation⟩

def decodeUtf8 (bytes : List UInt8) : Except Utf8Fault (List Char) :=
  decodeFrom bytes.length 0 bytes

def Utf8Fault.message (fault : Utf8Fault) : String :=
  let place :=
    if fault.first = fault.last then
      "byte 0x" ++ String.ofList (hexDigits 2 fault.byte.toNat) ++ " in position " ++
        decimal fault.first
    else "bytes in position " ++ decimal fault.first ++ "-" ++ decimal fault.last
  let cause := match fault.cause with
    | .start => "invalid start byte"
    | .continuation => "invalid continuation byte"
    | .truncated => "unexpected end of data"
  "'utf-8' codec can't decode " ++ place ++ ": " ++ cause

/-- The code points `first`, `first + 1`, …, `last` of a text are surrogates; `point` is the one at
`first`. -/
structure EncodeFault where
  point : Nat
  first : Nat
  last : Nat
  deriving DecidableEq, Repr

def EncodeFault.message (fault : EncodeFault) : String :=
  let place :=
    if fault.first = fault.last then
      "character '" ++ String.ofList (surrogateEscape fault.point) ++ "' in position " ++
        decimal fault.first
    else "characters in position " ++ decimal fault.first ++ "-" ++ decimal fault.last
  "'utf-8' codec can't encode " ++ place ++ ": surrogates not allowed"

/-- The first row of surrogates among code points; `position` is that of the first of these. -/
def firstSurrogates? (position : Nat) : List Nat → Option EncodeFault
  | [] => none
  | n :: ns =>
    if isSurrogate n then some ⟨n, position, position + (ns.takeWhile isSurrogate).length⟩
    else firstSurrogates? (position + 1) ns

/-- Why a text cannot be encoded, if it cannot. -/
def encodeFault? (text : String) : Option EncodeFault :=
  if hasSurrogate text then firstSurrogates? 0 (points text) else none

def encodeUtf8 (text : String) : Except EncodeFault (List UInt8) :=
  match encodeFault? text with
  | some fault => .error fault
  | none => .ok (String.ofList (characters text)).toUTF8.toList

/-- A carriage return and the line feed behind it as one line feed. -/
def joinBreaks : List Char → List Char
  | [] => []
  | '\r' :: '\n' :: cs => '\n' :: joinBreaks cs
  | c :: cs => c :: joinBreaks cs

/-- Every line break as one line feed. -/
def normalizeBreaks : List Char → List Char
  | [] => []
  | '\r' :: '\n' :: cs => '\n' :: normalizeBreaks cs
  | c :: cs => (if c = '\r' then '\n' else c) :: normalizeBreaks cs

end Groundplan.Text
