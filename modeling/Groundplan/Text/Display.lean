import Groundplan.Text.Points
import Groundplan.Text.Printable

/-!
# The displayed form of a text

Messages show a text between quotes, so that its ends and its invisible characters can be seen.
Single quotes are used unless the text has a single quote and no double quote.
-/

namespace Groundplan.Text

/-- The quote that a displayed text stands between. -/
def displayQuote (cs : List Char) : Char :=
  if cs.contains '\x27' && !cs.contains '"' then '"' else '\x27'

/-- An unprintable code point, by the shortest of the three numeric escapes that holds it. -/
def escapeCode (n : Nat) : List Char :=
  if n < 0x100 then '\\' :: 'x' :: hexDigits 2 n
  else if n < 0x10000 then '\\' :: 'u' :: hexDigits 4 n
  else '\\' :: 'U' :: hexDigits 8 n

/-- The characters that display `c` between the given quotes. -/
def displayChar (quote c : Char) : List Char :=
  if c = quote || c = '\\' then ['\\', c]
  else if c = '\n' then ['\\', 'n']
  else if c = '\r' then ['\\', 'r']
  else if c = '\t' then ['\\', 't']
  else if isPrintable c then [c]
  else escapeCode c.toNat

/-- The characters that display a code point between the given quotes. -/
def displayPoint (quote : Char) (n : Nat) : List Char :=
  if isSurrogate n then escapeCode n else displayChar quote (Char.ofNat n)

/-- A text between quotes, with backslashes, the quote and unprintable code points escaped. -/
def display (text : String) : String :=
  let quote := displayQuote text.toList
  String.ofList (quote :: ((points text).flatMap (displayPoint quote) ++ [quote]))

/-- The characters that display one byte between the given quotes. -/
def displayByte (quote : Char) (b : UInt8) : List Char :=
  let c := Char.ofNat b.toNat
  if c = quote || c = '\\' then ['\\', c]
  else if c = '\n' then ['\\', 'n']
  else if c = '\r' then ['\\', 'r']
  else if c = '\t' then ['\\', 't']
  else if 0x20 ≤ b.toNat && b.toNat < 0x7f then [c]
  else '\\' :: 'x' :: hexDigits 2 b.toNat

/-- A byte string between quotes, after the mark `b`. -/
def displayBytes (bytes : List UInt8) : String :=
  let quote := displayQuote (bytes.map fun b => Char.ofNat b.toNat)
  String.ofList ('b' :: quote :: (bytes.flatMap (displayByte quote) ++ [quote]))

/-- The characters whose encodings end within the first `limit` bytes. -/
def takeBytes : Nat → List Char → List Char
  | _, [] => []
  | limit, c :: cs =>
    if c.utf8Size ≤ limit then c :: takeBytes (limit - c.utf8Size) cs else []

/-- The characters that begin at or after the byte `start`. -/
def dropBytes : Nat → List Char → List Char
  | _, [] => []
  | 0, cs => cs
  | start, c :: cs => dropBytes (start - c.utf8Size) cs

/-- A displayed form that fits a report: of more than fifty bytes, the first 25 and the last 24
are kept, whole characters only. -/
def abridge (text : String) : String :=
  if text.utf8ByteSize ≤ 50 then text
  else
    String.ofList (takeBytes 25 text.toList) ++ "..." ++
      String.ofList (dropBytes (text.utf8ByteSize - 24) text.toList)

end Groundplan.Text
