import Groundplan.Text.CodePoints
import Groundplan.Text.Utf8
import Groundplan.Yaml.Cursor

/-!
# The text of scalars, tags and directives

Each function reads one lexical item at a cursor and gives its text and the cursor behind it. The
cursor counts the characters of a document; what they spell is given as texts carry it. A
loop that reads line by line is bounded by the characters still to be read.
-/

namespace Groundplan.Yaml

/-- The letters, digits and two marks of anchors, directives and tag handles. -/
def isNameChar (c : Char) : Bool :=
  c.isAlphanum || c = '-' || c = '_'

/-! ### Plain scalars -/

/-- Whether a plain scalar ends before a character, given the one after it. -/
def plainEnds (inFlow : Bool) (c : Char) (after : Option Char) : Bool :=
  isGap (some c) ||
    (c = ':' && (isGap after ||
      (inFlow && after.any fun d => [',', '[', ']', '{', '}'].contains d))) ||
    (inFlow && [',', '?', '[', ']', '{', '}'].contains c)

/-- The characters of a plain scalar up to the next gap. -/
def plainRun (inFlow : Bool) : List Char → List Char
  | [] => []
  | c :: cs => if plainEnds inFlow c cs.head? then [] else c :: plainRun inFlow cs

/-- Collects the breaks of the lines that are empty, up to a document mark or a line that is not.
The flag says that a document mark came. -/
def emptyLines : Nat → Cursor → List Char × Cursor × Bool
  | 0, k => ([], k, false)
  | fuel + 1, k =>
    let k := k.skipSpaces
    match k.lineBreak with
    | ([], _) => ([], k, false)
    | (brk, k) =>
      if k.atMark then ([], k, true)
      else
        let (more, k, marked) := emptyLines fuel k
        (brk ++ more, k, marked)

/-- What the breaks between two lines of text fold to. -/
def foldBreaks (first more : List Char) : List Char :=
  if first ≠ ['\n'] then first ++ more else if more.isEmpty then [' '] else more

/-- The gap after a part of a plain scalar: what it folds to, nothing if the scalar ends there,
and whether it broke the line. -/
def plainGap (k : Cursor) : List Char × Cursor × Bool :=
  let (spaces, k) := k.span (· = ' ')
  match k.lineBreak with
  | ([], _) => (spaces, k, false)
  | (brk, k) =>
    if k.atMark then ([], k, true)
    else
      let (more, k, marked) := emptyLines k.left k
      if marked then ([], k, true) else (foldBreaks brk more, k, true)

/-- Reads a plain scalar from one of its parts on; `gap` came before it. Also says whether the last
gap broke the line. -/
def plainParts (inFlow : Bool) (indent : Int) :
    Nat → List Char → Bool → Cursor → List Char × Bool × Cursor
  | 0, _, broke, k => ([], broke, k)
  | fuel + 1, gap, broke, k =>
    if k.peek = some '#' then ([], broke, k)
    else
      match plainRun inFlow k.rest with
      | [] => ([], broke, k)
      | run =>
        let (next, k, broke) := plainGap (k.skip run.length)
        if next.isEmpty || k.peek = some '#' || (!inFlow && (k.column : Int) < indent) then
          (gap ++ Text.carry run, broke, k)
        else
          let (more, broke, k) := plainParts inFlow indent fuel next broke k
          (gap ++ Text.carry run ++ more, broke, k)

/-- Reads a plain scalar. Also says whether a line ended since its last character. -/
def plainScalar (inFlow : Bool) (indent : Int) (k : Cursor) : List Char × Bool × Cursor :=
  plainParts inFlow indent k.left [] false k

/-! ### Quoted scalars -/

/-- The characters that a letter after a backslash stands for. -/
def escapeMeaning? : Char → Option Nat
  | '0' => some 0x00
  | 'a' => some 0x07
  | 'b' => some 0x08
  | 't' => some 0x09
  | '\t' => some 0x09
  | 'n' => some 0x0a
  | 'v' => some 0x0b
  | 'f' => some 0x0c
  | 'r' => some 0x0d
  | 'e' => some 0x1b
  | ' ' => some 0x20
  | '"' => some 0x22
  | '\\' => some 0x5c
  | '/' => some 0x2f
  | 'N' => some 0x85
  | '_' => some 0xa0
  | 'L' => some 0x2028
  | 'P' => some 0x2029
  | _ => none

/-- The number of hexadecimal digits that a letter after a backslash announces. -/
def escapeWidth? : Char → Option Nat
  | 'x' => some 2
  | 'u' => some 4
  | 'U' => some 8
  | _ => none

/-- Reads exactly `width` hexadecimal digits. -/
def hexCode (width : Nat) (k : Cursor) : Except Fault (Nat × Cursor) :=
  let digits := k.rest.take width
  match Text.hexNumber? digits with
  | some n => if digits.length = width then .ok (n, k.skip width) else .error .malformed
  | none => .error .malformed

/-- What a number in an escape stands for. Every surrogate stands for itself, also beside another
one. -/
def codeChar (n : Nat) : Except Fault (List Char) :=
  if 0x7fffffff < n then .error (.unbuildable .codePointSize)
  else if 0x110000 ≤ n then .error (.unbuildable .codePoint)
  else .ok (Text.carryPoint n)

/-- The breaks of the empty lines inside a quoted scalar; a document mark may not stand there. -/
def quotedBreaks : Nat → Cursor → Except Fault (List Char × Cursor)
  | 0, k => .ok ([], k)
  | fuel + 1, k =>
    if k.atMark then .error .malformed
    else
      let k := (k.span fun c => c = ' ' || c = '\t').2
      match k.lineBreak with
      | ([], _) => .ok ([], k)
      | (brk, k) => do
        let (more, k) ← quotedBreaks fuel k
        return (brk ++ more, k)

/-- Reads what a backslash introduces. -/
def escape (k : Cursor) : Except Fault (List Char × Cursor) :=
  match k.peek with
  | none => .error .malformed
  | some c =>
    match escapeMeaning? c with
    | some n => .ok ([Char.ofNat n], k.next)
    | none =>
      match escapeWidth? c with
      | some width => do
        let (n, k) ← hexCode width k.next
        return (← codeChar n, k)
      | none =>
        if isBreak c then
          let k := k.lineBreak.2
          quotedBreaks k.left k
        else .error .malformed

/-- Reads the gap between two words of a quoted scalar. -/
def quotedGap (k : Cursor) : Except Fault (List Char × Cursor) :=
  let (spaces, k) := k.span fun c => c = ' ' || c = '\t'
  match k.peek with
  | none => .error .malformed
  | some _ =>
    match k.lineBreak with
    | ([], _) => .ok (spaces, k)
    | (brk, k) => do
      let (more, k) ← quotedBreaks k.left k
      return (foldBreaks brk more, k)

/-- Reads the rest of a quoted scalar, up to and with the closing quote. -/
def quotedParts (double : Bool) : Nat → Cursor → Except Fault (List Char × Cursor)
  | 0, _ => .error .malformed
  | fuel + 1, k =>
    match k.peek with
    | none => .error .malformed
    | some c => do
      if !double && c = '\x27' && k.peekAt 1 = some '\x27' then
        let (more, k) ← quotedParts double fuel (k.skip 2)
        return ('\x27' :: more, k)
      else if c = (if double then '"' else '\x27') then
        return ([], k.next)
      else if double && c = '\\' then
        let (part, k) ← escape k.next
        let (more, k) ← quotedParts double fuel k
        return (part ++ more, k)
      else if isGap (some c) then
        let (part, k) ← quotedGap k
        let (more, k) ← quotedParts double fuel k
        return (part ++ more, k)
      else
        let (more, k) ← quotedParts double fuel k.next
        return (Text.carryChar c ++ more, k)

/-- Reads a quoted scalar at its opening quote. -/
def quotedScalar (double : Bool) (k : Cursor) : Except Fault (List Char × Cursor) :=
  quotedParts double (k.left + 1) k.next

/-! ### Block scalars -/

/-- What is kept of the line breaks at the end of a block scalar. -/
inductive Chomping where
  | strip
  | clip
  | keep
  deriving DecidableEq, Repr

/-- Reads a digit from one to nine, if one comes next; a zero is refused. -/
def indentDigit (k : Cursor) : Except Fault (Option Nat × Cursor) :=
  match k.peek with
  | some c =>
    if c = '0' then .error .malformed
    else if c.isDigit then .ok (some (c.toNat - 0x30), k.next)
    else .ok (none, k)
  | none => .ok (none, k)

/-- Reads a plus or minus sign, if one comes next. -/
def chompingMark (k : Cursor) : Option Chomping × Cursor :=
  match k.peek with
  | some '+' => (some .keep, k.next)
  | some '-' => (some .strip, k.next)
  | _ => (none, k)

/-- Reads the rest of a line that may hold a comment only. -/
def restOfLine (k : Cursor) : Except Fault Cursor :=
  let k := k.skipSpaces.skipComment
  if endsLine k.peek then .ok k.lineBreak.2 else .error .malformed

/-- Reads the header of a block scalar: a sign and a digit in either order. -/
def blockHeader (k : Cursor) : Except Fault ((Chomping × Option Nat) × Cursor) := do
  let (mark, k) := chompingMark k
  let (indent, k) ← indentDigit k
  let (mark, k) := if mark.isNone && indent.isSome then chompingMark k else (mark, k)
  if !endsWord k.peek then throw .malformed
  let k ← restOfLine k
  return ((mark.getD .clip, indent), k)

/-- Reads leading empty lines, and gives the greatest column that spaces reach in them or in the
first line of text. -/
def leadingLines : Nat → Nat → Cursor → List Char × Nat × Cursor
  | 0, widest, k => ([], widest, k)
  | fuel + 1, widest, k =>
    let spaced := k.skipSpaces
    let widest := if spaced.column > k.column then max widest spaced.column else widest
    match spaced.lineBreak with
    | ([], _) => ([], widest, spaced)
    | (brk, k) =>
      let (more, widest, k) := leadingLines fuel widest k
      (brk ++ more, widest, k)

/-- The cursor behind spaces, up to a column. -/
def skipIndent (indent : Nat) (k : Cursor) : Cursor :=
  k.skip (min (indent - k.column) (k.rest.takeWhile (· = ' ')).length)

/-- Reads the breaks of empty lines and the indentation of the next line. -/
def indentedBreaks (indent : Nat) : Nat → Cursor → List Char × Cursor
  | 0, k => ([], k)
  | fuel + 1, k =>
    let k := skipIndent indent k
    match k.lineBreak with
    | ([], _) => ([], k)
    | (brk, k) =>
      let (more, k) := indentedBreaks indent fuel k
      (brk ++ more, k)

/-- Whether a line of text of a block scalar starts at the cursor. -/
def atBlockLine (indent : Nat) (k : Cursor) : Bool :=
  k.column = indent && k.peek.isSome

/-- Whether a line starts with a space or tab. -/
def startsBlank (k : Cursor) : Bool :=
  k.peek = some ' ' || k.peek = some '\t'

/-- What stands between two lines of a block scalar before the breaks of empty lines. -/
def blockJoin (folded : Bool) (before after : Bool) (brk more : List Char) : List Char :=
  if folded && brk = ['\n'] && !before && !after then (if more.isEmpty then [' '] else [])
  else brk

/-- Reads the lines of a block scalar; `breaks` came before the first. Gives the text, the last
break and the breaks of the empty lines after it. -/
def blockLines (folded : Bool) (indent : Nat) :
    Nat → List Char → Cursor → List Char × List Char × List Char × Cursor
  | 0, breaks, k => ([], [], breaks, k)
  | fuel + 1, breaks, k =>
    if atBlockLine indent k then
      let blank := startsBlank k
      let (line, k) := k.span fun c => !isBreak c
      let (brk, k) := k.lineBreak
      let (more, k) := indentedBreaks indent k.left k
      if atBlockLine indent k then
        let join := blockJoin folded blank (startsBlank k) brk more
        let (text, last, tail, k) := blockLines folded indent fuel more k
        (breaks ++ Text.carry line ++ join ++ text, last, tail, k)
      else (breaks ++ Text.carry line, brk, more, k)
    else ([], [], breaks, k)

/-- Reads a block scalar at its mark; `parent` is the indentation around it. -/
def blockScalar (folded : Bool) (parent : Int) (k : Cursor) :
    Except Fault (List Char × Cursor) := do
  let ((chomping, given), k) ← blockHeader k.next
  let least := (max (parent + 1) 1).toNat
  let (breaks, indent, k) := match given with
    | none =>
      let (breaks, widest, k) := leadingLines k.left 0 k
      (breaks, max least widest, k)
    | some n =>
      let indent := least + n - 1
      let (breaks, k) := indentedBreaks indent k.left k
      (breaks, indent, k)
  let (text, last, tail, k) := blockLines folded indent k.left breaks k
  let ending := match chomping with
    | .strip => []
    | .clip => last
    | .keep => last ++ tail
  return (text ++ ending, k)

/-! ### Names, tags and directives -/

/-- Reads the name of an anchor or alias behind its mark. -/
def anchorName (k : Cursor) : Except Fault (String × Cursor) :=
  let (name, k) := k.next.span isNameChar
  let closed := isGap k.peek ||
    k.peek.any fun c => ['?', ':', ',', ']', '}', '%', '@', '\x60'].contains c
  if name.isEmpty || !closed then .error .malformed
  else .ok (String.ofList name, k)

/-- The characters of a tag that stand for themselves. -/
def isTagChar (c : Char) : Bool :=
  c.isAlphanum || "-;/?:@&=+$,_.!~*'()[]".toList.contains c

/-- Reads percent escapes as bytes. -/
def tagBytes : Nat → Cursor → Except Fault (List UInt8 × Cursor)
  | 0, k => .ok ([], k)
  | fuel + 1, k =>
    if k.peek = some '%' then do
      let (n, k) ← hexCode 2 k.next
      let (more, k) ← tagBytes fuel k
      return (n.toUInt8 :: more, k)
    else .ok ([], k)

/-- Reads the characters of a tag, where percent escapes spell UTF-8. -/
def tagChars : Nat → Cursor → Except Fault (List Char × Cursor)
  | 0, k => .ok ([], k)
  | fuel + 1, k =>
    match k.peek with
    | some '%' => do
      let (bytes, k) ← tagBytes k.left k
      match Text.decodeUtf8 bytes with
      | .ok text =>
        let (more, k) ← tagChars fuel k
        return (Text.carry text ++ more, k)
      | .error _ => throw .malformed
    | some c =>
      if isTagChar c then do
        let (more, k) ← tagChars fuel k.next
        return (c :: more, k)
      else .ok ([], k)
    | none => .ok ([], k)

/-- Reads the characters of a tag; there is at least one. -/
def tagText (k : Cursor) : Except Fault (String × Cursor) := do
  let (text, after) ← tagChars k.left k
  if k.index = after.index then throw .malformed
  return (String.ofList text, after)

/-- Reads a tag handle: a mark alone, or a name between two marks. -/
def tagHandle (k : Cursor) : Except Fault (String × Cursor) :=
  if k.peek ≠ some '!' then .error .malformed
  else if k.peekAt 1 = some ' ' then .ok ("!", k.next)
  else
    let (name, k) := k.next.span isNameChar
    if k.peek = some '!' then .ok (String.ofList ('!' :: name ++ ['!']), k.next)
    else .error .malformed

/-- A tag as written: a handle to be looked up, and the text behind it. -/
structure WrittenTag where
  handle : Option String
  suffix : String
  deriving DecidableEq, Repr

def writtenTag (k : Cursor) : Except Fault (WrittenTag × Cursor) := do
  let (tag, k) ←
    if k.peekAt 1 = some '<' then do
      let (text, k) ← tagText (k.skip 2)
      if k.peek ≠ some '>' then throw .malformed
      pure (WrittenTag.mk none text, k.next)
    else if isGap (k.peekAt 1) then
      pure (WrittenTag.mk none "!", k.next)
    else if ((k.rest.drop 1).takeWhile fun c => !endsWord (some c)).contains '!' then do
      let (handle, k) ← tagHandle k
      let (text, k) ← tagText k
      pure (WrittenTag.mk (some handle) text, k)
    else do
      let (text, k) ← tagText k.next
      pure (WrittenTag.mk (some "!") text, k)
  if endsWord k.peek then return (tag, k) else throw .malformed

/-- A directive before a document. -/
inductive Directive where
  | version (major : Nat)
  | handle (name meaning : String)
  | other
  deriving DecidableEq, Repr

/-- Reads decimal digits; there is at least one, and not too many. -/
def directiveNumber (k : Cursor) : Except Fault (Nat × Cursor) :=
  let (digits, k) := k.span Char.isDigit
  if digits.isEmpty then .error .malformed
  else if Text.digitLimit < digits.length then
    .error (.unbuildable (.integerSize digits.length))
  else .ok (digits.foldl (fun acc c => acc * 10 + (c.toNat - 0x30)) 0, k)

def directive (k : Cursor) : Except Fault (Directive × Cursor) := do
  let (name, k) := k.next.span isNameChar
  if name.isEmpty || !endsWord k.peek then throw .malformed
  let (result, k) ←
    if name = "YAML".toList then do
      let (major, k) ← directiveNumber k.skipSpaces
      if k.peek ≠ some '.' then throw .malformed
      let (_, k) ← directiveNumber k.next
      if !endsWord k.peek then throw .malformed
      pure (Directive.version major, k)
    else if name = "TAG".toList then do
      let (handle, k) ← tagHandle k.skipSpaces
      if k.peek ≠ some ' ' then throw .malformed
      let (meaning, k) ← tagText k.skipSpaces
      if !endsWord k.peek then throw .malformed
      pure (Directive.handle handle meaning, k)
    else
      pure (Directive.other, (k.span fun c => !isBreak c).2)
  let k ← restOfLine k
  return (result, k)

end Groundplan.Yaml
