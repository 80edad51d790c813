import Groundplan.Text.Numeral

/-!
# Double-precision numbers

A double is a mantissa times a power of two, an infinity or not a number. All operations are exact
integer arithmetic followed by one rounding to nearest, a tie going to the even mantissa.

A double is written with the fewest digits that read back to it, the nearest such decimal to its
value; positionally when its decimal exponent lies between −4 and 15, and with an exponent of at
least two digits otherwise.
-/

namespace Groundplan

/-- A double-precision number. A finite one is `mantissa * 2 ^ exponent`, with a mantissa below
`2 ^ 53` and an exponent from −1074 to 971; mantissas below `2 ^ 52` occur with the least exponent
only, so equal numbers of one sign are equal values. -/
inductive Double where
  | nan
  | infinite (negative : Bool)
  | finite (negative : Bool) (mantissa : Nat) (exponent : Int)
  deriving DecidableEq, Repr, Inhabited

namespace Double

def zero (negative : Bool) : Double :=
  .finite negative 0 (-1074)

/-- A power that is 1 for a negative exponent. -/
def power (base : Nat) (exponent : Int) : Nat :=
  Nat.pow base exponent.toNat

/-- A quotient rounded to nearest, a tie to even. -/
def roundQuotient (num den : Nat) : Nat :=
  let q := num / den
  let r := num % den
  if den < 2 * r || (2 * r = den && q % 2 = 1) then q + 1 else q

/-- The greatest `k` with `2 ^ k ≤ num / den`, for positive arguments. -/
def floorLog2 (num den : Nat) : Int :=
  let k : Int := (num.log2 : Int) - (den.log2 : Int)
  if den * power 2 k ≤ num * power 2 (-k) then k else k - 1

/-- The double nearest to `num / den`, for a positive `den`. -/
def ofRatio (negative : Bool) (num den : Nat) : Double :=
  if num = 0 then zero negative
  else
    let e := max (floorLog2 num den - 52) (-1074)
    let m := roundQuotient (num * power 2 (-e)) (den * power 2 e)
    let (m, e) := if m = Nat.pow 2 53 then (Nat.pow 2 52, e + 1) else (m, e)
    if 971 < e then .infinite negative else .finite negative m e

def ofInt (n : Int) : Double :=
  ofRatio (n < 0) n.natAbs 1

/-- The double nearest to `digits * 10 ^ exponent`. -/
def ofDecimal (negative : Bool) (digits : Nat) (exponent : Int) : Double :=
  let magnitude := ((Nat.toDigits 10 digits).length : Int) + exponent
  if digits = 0 || magnitude < -330 then zero negative
  else if 310 < magnitude then .infinite negative
  else ofRatio negative (digits * power 10 exponent) (power 10 (-exponent))

/-- The whole number that a double is, if it is one. -/
def toInt? : Double → Option Int
  | .finite negative m e =>
    let den := power 2 (-e)
    if m % den = 0 then
      let n : Int := ((m / den * power 2 e : Nat) : Int)
      some (if negative then -n else n)
    else none
  | _ => none

/-- Whether a double is a number with an end. -/
def isFinite : Double → Bool
  | .finite _ _ _ => true
  | _ => false

def isZero : Double → Bool
  | .finite _ m _ => m = 0
  | _ => false

/-- The prime modulo which numbers are reduced to residues. -/
def residuePrime : Nat := Nat.pow 2 61 - 1

/-- The residue of a double; equal numbers have equal ones, and none is −1. Two to the 61st counts
as 1, so also fractions have residues. -/
def residue? : Double → Option Int
  | .nan => none
  | .infinite negative => some (if negative then -314159 else 314159)
  | .finite negative m e =>
    let r : Int := ((m * Nat.pow 2 (e.emod 61).toNat % residuePrime : Nat) : Int)
    let r := if negative then -r else r
    some (if r = -1 then -2 else r)

def neg : Double → Double
  | .nan => .nan
  | .infinite s => .infinite !s
  | .finite s m e => .finite (!s) m e

def mul : Double → Double → Double
  | .finite s m e, .finite s' m' e' =>
    ofRatio (s != s') (m * m' * power 2 (e + e')) (power 2 (-(e + e')))
  | .infinite s, .finite s' m _ => if m = 0 then .nan else .infinite (s != s')
  | .finite s m _, .infinite s' => if m = 0 then .nan else .infinite (s != s')
  | .infinite s, .infinite s' => .infinite (s != s')
  | _, _ => .nan

def add : Double → Double → Double
  | .finite s m e, .finite s' m' e' =>
    let low := min e e'
    let signed (negative : Bool) (m : Nat) (e : Int) : Int :=
      let n : Int := ((m * power 2 (e - low) : Nat) : Int)
      if negative then -n else n
    let total := signed s m e + signed s' m' e'
    if total = 0 then zero (s && s')
    else ofRatio (total < 0) (total.natAbs * power 2 low) (power 2 (-low))
  | .infinite s, .infinite s' => if s = s' then .infinite s else .nan
  | .infinite s, .finite _ _ _ => .infinite s
  | .finite _ _ _, .infinite s => .infinite s
  | _, _ => .nan

/-! ### Writing -/

/-- A decimal `digits * 10 ^ exponent`. -/
structure Decimal where
  digits : Nat
  exponent : Int
  deriving DecidableEq, Repr

/-- The greatest `k` with `10 ^ k ≤ m * 2 ^ e`, for a positive mantissa. -/
def floorLog10 (m : Nat) (e : Int) : Int :=
  let atMost (k : Int) : Bool := power 10 k * power 2 (-e) ≤ m * power 2 e * power 10 (-k)
  let guess := (((m.log2 : Int) + e) * 30103).fdiv 100000
  if atMost (guess + 1) then guess + 1 else if atMost guess then guess else guess - 1

/-- The decimal with the given last place that is nearest to `m * 2 ^ e` among those that round
to it, if one of the two neighbours on that grid does. -/
def candidate? (m : Nat) (e place : Int) : Option Nat :=
  let unit := power 2 (e - 2) * power 10 (-place)
  let step := power 10 place * power 2 (2 - e)
  let value := 4 * m * unit
  let high := (4 * m + 2) * unit
  let low := (4 * m - if m = Nat.pow 2 52 && -1074 < e then 1 else 2) * unit
  let reads (d : Nat) : Bool :=
    if m % 2 = 0 then low ≤ d * step && d * step ≤ high
    else low < d * step && d * step < high
  let below := value / step
  let above := below + 1
  match reads below, reads above with
  | true, true =>
    let shortBy := value - below * step
    let longBy := above * step - value
    if shortBy < longBy || (shortBy = longBy && below % 2 = 0) then some below else some above
  | true, false => some below
  | false, true => some above
  | false, false => none

/-- Tries grids of ever smaller places until a decimal reads back. -/
def shortestFrom (m : Nat) (e : Int) : Nat → Int → Decimal
  | 0, place => ⟨0, place⟩
  | tries + 1, place =>
    match candidate? m e place with
    | some d => ⟨d, place⟩
    | none => shortestFrom m e tries (place - 1)

/-- The decimal of fewest digits that rounds to `m * 2 ^ e`, for a positive mantissa. -/
def shortest (m : Nat) (e : Int) : Decimal :=
  shortestFrom m e 18 (floorLog10 m e)

/-- The digits of a number without the zeros at their end. -/
def significant (n : Nat) : List Char :=
  let digits := ((Nat.toDigits 10 n).reverse.dropWhile (· = '0')).reverse
  if digits.isEmpty then ['0'] else digits

/-- Where a double is written positionally: the decimal exponents from the first to the second. -/
def positional : Int × Int := (-4, 15)

/-- Lays out the significant digits of a number whose first digit has the given exponent. -/
def layOut (digits : List Char) (exponent : Int) : List Char :=
  if positional.1 ≤ exponent && exponent ≤ positional.2 then
    if exponent < 0 then
      '0' :: '.' :: (List.replicate (-exponent - 1).toNat '0' ++ digits)
    else
      let whole := exponent.toNat + 1
      let filled := digits ++ List.replicate (whole - digits.length) '0'
      let rest := filled.drop whole
      filled.take whole ++ '.' :: (if rest.isEmpty then ['0'] else rest)
  else
    let rest := digits.drop 1
    let power := Nat.toDigits 10 exponent.natAbs
    digits.take 1 ++ (if rest.isEmpty then [] else '.' :: rest) ++
      'e' :: (if exponent < 0 then '-' else '+') ::
      (if power.length < 2 then '0' :: power else power)

/-- A double as text. -/
def text : Double → String
  | .nan => "nan"
  | .infinite negative => if negative then "-inf" else "inf"
  | .finite negative m e =>
    let sign := if negative then "-" else ""
    if m = 0 then sign ++ "0.0"
    else
      let decimal := shortest m e
      let places := ((Nat.toDigits 10 decimal.digits).length : Int) - 1
      sign ++ String.ofList (layOut (significant decimal.digits) (decimal.exponent + places))

/-! ### Reading -/

/-- The ASCII letters of a text in lower case. -/
def lowered (cs : List Char) : List Char :=
  cs.map Char.toLower

/-- The number that decimal digits spell. -/
def number (digits : List Char) : Nat :=
  digits.foldl (fun acc c => acc * 10 + (c.toNat - 0x30)) 0

/-- The exponent written after the digits of a decimal; none may stand there. -/
def readExponent? : List Char → Option Int
  | [] => some 0
  | mark :: cs =>
    if mark = 'e' || mark = 'E' then
      let (negative, digits) := Text.splitSign cs
      if digits.isEmpty || !digits.all Char.isDigit then none
      else
        let n : Int := (number digits : Nat)
        some (if negative then -n else n)
    else none

/-- Reads an unsigned decimal: digits with at most one point, at least one digit, and an optional
exponent. -/
def readDecimal? (negative : Bool) (cs : List Char) : Option Double :=
  let whole := cs.takeWhile Char.isDigit
  let afterWhole := cs.dropWhile Char.isDigit
  let (fraction, rest) := match afterWhole with
    | '.' :: more => (more.takeWhile Char.isDigit, more.dropWhile Char.isDigit)
    | more => ([], more)
  if whole.isEmpty && fraction.isEmpty then none
  else
    (readExponent? rest).map fun exponent =>
      ofDecimal negative (number (whole ++ fraction)) (exponent - fraction.length)

/-- Reads a double: an optional sign, then a decimal or one of the words for infinity and not a
number in any case. -/
def read? (cs : List Char) : Option Double :=
  let (negative, body) := Text.splitSign cs
  let word := String.ofList (lowered body)
  if word = "inf" || word = "infinity" then some (.infinite negative)
  else if word = "nan" then some .nan
  else readDecimal? negative body

end Double

end Groundplan
