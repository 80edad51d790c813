import Groundplan.Yaml.Fault

/-!
# A place in a text

A cursor is the text still to be read, with the index, line and column of its first character.
Five characters break lines; a carriage return followed by a line feed is one break. The byte
order mark takes no column.
-/

namespace Groundplan.Yaml

/-- The characters that break lines. -/
def isBreak (c : Char) : Bool :=
  c = '\n' || c = '\r' || c.toNat = 0x85 || c.toNat = 0x2028 || c.toNat = 0x2029

/-- The end of the text or a break. -/
def endsLine (c : Option Char) : Bool :=
  c.all isBreak

/-- The end of the text, a break or a space. -/
def endsWord (c : Option Char) : Bool :=
  c.all fun c => isBreak c || c = ' '

/-- The end of the text, a break, a space or a tab. -/
def isGap (c : Option Char) : Bool :=
  c.all fun c => isBreak c || c = ' ' || c = '\t'

/-- Whether a character may stand in a document at all. -/
def isAllowed (c : Char) : Bool :=
  let n := c.toNat
  n = 0x09 || n = 0x0a || n = 0x0d || (0x20 ≤ n && n ≤ 0x7e) || n = 0x85 ||
    (0xa0 ≤ n && n ≤ 0xd7ff) || (0xe000 ≤ n && n ≤ 0xfffd) || 0x10000 ≤ n

/-- The text still to be read, how many characters it has, and the place of the first. -/
structure Cursor where
  rest : List Char
  left : Nat
  index : Nat
  line : Nat
  column : Nat

namespace Cursor

def start (text : List Char) : Cursor :=
  ⟨text, text.length, 0, 0, 0⟩

def peek (k : Cursor) : Option Char :=
  k.rest.head?

def peekAt (k : Cursor) (offset : Nat) : Option Char :=
  (k.rest.drop offset).head?

/-- The cursor behind the next character. -/
def next (k : Cursor) : Cursor :=
  match k.rest with
  | [] => k
  | c :: cs =>
    if isBreak c && !(c = '\r' && cs.head? = some '\n') then
      ⟨cs, k.left - 1, k.index + 1, k.line + 1, 0⟩
    else if c.toNat = 0xfeff then ⟨cs, k.left - 1, k.index + 1, k.line, k.column⟩
    else ⟨cs, k.left - 1, k.index + 1, k.line, k.column + 1⟩

def skip : Nat → Cursor → Cursor
  | 0, k => k
  | n + 1, k => skip n k.next

/-- The longest run of characters of a class, and the cursor behind it. -/
def span (p : Char → Bool) (k : Cursor) : List Char × Cursor :=
  let run := k.rest.takeWhile p
  (run, k.skip run.length)

def skipSpaces (k : Cursor) : Cursor :=
  (k.span (· = ' ')).2

/-- The cursor at the end of the line if a comment comes next. -/
def skipComment (k : Cursor) : Cursor :=
  if k.peek = some '#' then (k.span fun c => !isBreak c).2 else k

/-- The line break that comes next, in its normal form, and the cursor behind it. -/
def lineBreak (k : Cursor) : List Char × Cursor :=
  match k.rest with
  | '\r' :: '\n' :: _ => (['\n'], k.skip 2)
  | c :: _ =>
    if c.toNat = 0x2028 || c.toNat = 0x2029 then ([c], k.next)
    else if isBreak c then (['\n'], k.next)
    else ([], k)
  | [] => ([], k)

/-- Whether three dashes or three dots come next, with a gap behind them. -/
def atMark (k : Cursor) : Bool :=
  let mark := k.rest.take 3
  (mark = ['-', '-', '-'] || mark = ['.', '.', '.']) && isGap (k.peekAt 3)

end Cursor

end Groundplan.Yaml
