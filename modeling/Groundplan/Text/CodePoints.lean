/-!
# Sets of code points given by their boundaries

A set is written as the increasing list of the code points at which membership changes: the first
member, the first non-member after it, and so on.
-/

namespace Groundplan.Text

/-- Membership in the set with the given boundaries: an odd number of them is passed. -/
def withinBounds : List Nat → Nat → Bool
  | [], _ => false
  | bound :: bounds, n => bound ≤ n && !withinBounds bounds n

/-- The digits of hexadecimal numerals, in lower case. -/
def hexDigit (n : Nat) : Char :=
  if n < 10 then Char.ofNat (0x30 + n) else Char.ofNat (0x57 + n)

/-- The last `width` hexadecimal digits of a number. -/
def hexDigits : Nat → Nat → List Char
  | 0, _ => []
  | width + 1, n => hexDigits width (n / 16) ++ [hexDigit (n % 16)]

/-- The value of a hexadecimal digit in either case. -/
def hexValue? (c : Char) : Option Nat :=
  let n := c.toNat
  if 0x30 ≤ n && n ≤ 0x39 then some (n - 0x30)
  else if 0x61 ≤ n && n ≤ 0x66 then some (n - 0x57)
  else if 0x41 ≤ n && n ≤ 0x46 then some (n - 0x37)
  else none

/-- The number that hexadecimal digits spell, if all of them are digits. -/
def hexNumber? (cs : List Char) : Option Nat :=
  cs.foldlM (fun acc c => (hexValue? c).map (acc * 16 + ·)) 0

end Groundplan.Text
