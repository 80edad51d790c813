import Groundplan.Text.Blank
import Groundplan.Text.CodePoints

/-!
# Reading whole numbers

A numeral is a sign, digits of the base and single underscores between digits; blanks around it do
not count. Decimal digits of every script are read. Numerals of base 2, 8 and 16 may begin with
`0b`, `0o` and `0x`. Numbers of more than 4300 decimal digits are neither read nor written in base
ten.
-/

namespace Groundplan.Text

/-- The code points of the zeros; the other nine digits of a script follow its zero. -/
def decimalZeros : List Nat := [
  0x30, 0x660, 0x6f0, 0x7c0, 0x966, 0x9e6, 0xa66, 0xae6, 0xb66, 0xbe6, 0xc66, 0xce6, 0xd66, 0xde6,
  0xe50, 0xed0, 0xf20, 0x1040, 0x1090, 0x17e0, 0x1810, 0x1946, 0x19d0, 0x1a80, 0x1a90, 0x1b50,
  0x1bb0, 0x1c40, 0x1c50, 0xa620, 0xa8d0, 0xa900, 0xa9d0, 0xa9f0, 0xaa50, 0xabf0, 0xff10, 0x104a0,
  0x10d30, 0x11066, 0x110f0, 0x11136, 0x111d0, 0x112f0, 0x11450, 0x114d0, 0x11650, 0x116c0,
  0x11730, 0x118e0, 0x11950, 0x11c50, 0x11d50, 0x11da0, 0x16a60, 0x16ac0, 0x16b50, 0x1d7ce,
  0x1d7d8, 0x1d7e2, 0x1d7ec, 0x1d7f6, 0x1e140, 0x1e2f0, 0x1e950, 0x1fbf0]

/-- The value of a decimal digit of any script. -/
def decimalValue? (c : Char) : Option Nat :=
  (decimalZeros.find? fun first => first ≤ c.toNat && c.toNat < first + 10).map (c.toNat - ·)

/-- A digit of any script as the ASCII digit of its value; other characters as they are. -/
def asciiDigit (c : Char) : Char :=
  match decimalValue? c with
  | some value => Char.ofNat (0x30 + value)
  | none => c

/-- The blanks that may stand around a numeral: all but the four information separators. -/
def isPadding (c : Char) : Bool :=
  isBlank c && !(0x1c ≤ c.toNat && c.toNat ≤ 0x1f)

/-- The characters left after the padding at both ends is removed. -/
def trim (cs : List Char) : List Char :=
  ((cs.dropWhile isPadding).reverse.dropWhile isPadding).reverse

/-- The characters of a numeral: no padding around them, and digits in ASCII. -/
def numeralChars (cs : List Char) : List Char :=
  (trim cs).map asciiDigit

/-- The value of an ASCII digit or letter as a digit. -/
def digitValue? (c : Char) : Option Nat :=
  let n := c.toNat
  if 0x30 ≤ n && n ≤ 0x39 then some (n - 0x30)
  else if 0x61 ≤ n && n ≤ 0x7a then some (n - 0x57)
  else if 0x41 ≤ n && n ≤ 0x5a then some (n - 0x37)
  else none

/-- The number that digits of a base spell after `acc`, with single underscores between digits;
`afterDigit` says that a digit came just before. -/
def readDigits? (base : Nat) : Bool → Nat → List Char → Option Nat
  | afterDigit, acc, [] => if afterDigit then some acc else none
  | afterDigit, acc, c :: cs =>
    if c = '_' then
      if afterDigit then readDigits? base false acc cs else none
    else
      match digitValue? c with
      | some d => if d < base then readDigits? base true (acc * base + d) cs else none
      | none => none

/-- What is left after the mark of a base, and one underscore after it. -/
def dropBaseMark (base : Nat) : List Char → List Char
  | '0' :: mark :: cs =>
    if (base = 2 && (mark = 'b' || mark = 'B')) || (base = 8 && (mark = 'o' || mark = 'O')) ||
        (base = 16 && (mark = 'x' || mark = 'X')) then
      match cs with
      | '_' :: rest => rest
      | rest => rest
    else '0' :: mark :: cs
  | cs => cs

/-- Splits a sign off a numeral: whether it is a minus, and what follows. -/
def splitSign : List Char → Bool × List Char
  | '-' :: cs => (true, cs)
  | '+' :: cs => (false, cs)
  | cs => (false, cs)

/-- The whole number that a numeral of the given base spells. -/
def readInt? (base : Nat) (cs : List Char) : Option Int :=
  let (negative, body) := splitSign (numeralChars cs)
  (readDigits? base false 0 (dropBaseMark base body)).map fun n =>
    if negative then -(n : Int) else (n : Int)

/-- The number of digits up to which decimal numerals are read and written. -/
def digitLimit : Nat := 4300

/-- With how many decimal digits a numeral begins. -/
def leadingDigits (cs : List Char) : Nat :=
  ((splitSign (numeralChars cs)).2.takeWhile Char.isDigit).length

/-- The digits of a natural number in base ten. -/
def decimal (n : Nat) : String :=
  String.ofList (Nat.toDigits 10 n)

def decimalInt : Int → String
  | .ofNat n => decimal n
  | .negSucc n => "-" ++ decimal (n + 1)

/-- The least number that has too many digits to be written. -/
def unwritable : Nat := Nat.pow 10 digitLimit

/-- A whole number in base ten, unless it has too many digits. -/
def decimalInt? (n : Int) : Option String :=
  if n.natAbs < unwritable then some (decimalInt n) else none

/-- What is said of a number that has too many digits to be written. -/
def unwritableMessage : String :=
  "Exceeds the limit (4300 digits) for integer string conversion; " ++
    "use sys.set_int_max_str_digits() to increase the limit"

/-- The last `width` decimal digits of a number, with leading zeros. -/
def padded : Nat → Nat → List Char
  | 0, _ => []
  | width + 1, n => padded width (n / 10) ++ [Char.ofNat (0x30 + n % 10)]

end Groundplan.Text
