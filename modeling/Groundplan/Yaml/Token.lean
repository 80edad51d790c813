import Groundplan.Yaml.Scan

/-!
# Tokens

A text is cut into tokens from left to right. Whether a scalar, an anchor or a bracket starts a
key is known only when the colon after it is met, so such a start is kept as a *pending key*: the
place in the token list where the key mark goes. A pending key is given up when its line ends or
it grows longer than 1024 characters; one that starts where a key must stand may not be given up.

Indentation is a stack of columns. A token that starts further to the left than the innermost
column closes the block collections in between.

A fault does not undo the tokens before it: they are read as far as they are settled, so that of a
fault in the text and one in its grammar the earlier is reported.
-/

namespace Groundplan.Yaml

inductive Token where
  | directive (d : Directive)
  | documentStart
  | documentEnd
  | blockSequenceStart
  | blockMappingStart
  | blockEnd
  | flowSequenceStart
  | flowSequenceEnd
  | flowMappingStart
  | flowMappingEnd
  | entry
  | comma
  | key
  | value
  | anchor (name : String)
  | reference (name : String)
  | tag (t : WrittenTag)
  | scalar (text : String) (plain : Bool)
  deriving DecidableEq, Repr

/-- A place where a key may turn out to start: the number of tokens before it, and its position. -/
structure PendingKey where
  tokens : Nat
  required : Bool
  index : Nat
  line : Nat
  column : Nat

/-- The state between two tokens. `found` holds the tokens so far, the latest first; `outer` holds
the pending keys of the flow collections around the cursor, the innermost first. -/
structure Lexer where
  cursor : Cursor
  found : List Token
  count : Nat
  pending : Option PendingKey
  outer : List (Option PendingKey)
  indent : Int
  indents : List Int
  keyAllowed : Bool

namespace Lexer

def start (text : List Char) : Lexer :=
  ⟨Cursor.start text, [], 0, none, [], -1, [], true⟩

def inFlow (s : Lexer) : Bool :=
  !s.outer.isEmpty

def push (s : Lexer) (t : Token) : Lexer :=
  { s with found := t :: s.found, count := s.count + 1 }

def pushAt (s : Lexer) (t : Token) (k : Cursor) : Lexer :=
  { s.push t with cursor := k }

/-- Adds tokens at a place among those found. -/
def insertAt (s : Lexer) (place : Nat) (ts : List Token) : Lexer :=
  let (newer, older) := s.found.splitAt (s.count - place)
  { s with found := newer ++ ts.reverse ++ older, count := s.count + ts.length }

/-- Gives up a pending key; a required one may not be given up. -/
def forget : Option PendingKey → Except Fault (Option PendingKey)
  | some key => if key.required then .error .malformed else .ok none
  | none => .ok none

/-- Gives up a pending key that the cursor has left behind. -/
def forgetStale (k : Cursor) (pending : Option PendingKey) : Except Fault (Option PendingKey) :=
  match pending with
  | some key =>
    if key.line ≠ k.line || 1024 < k.index - key.index then forget pending else .ok pending
  | none => .ok none

/-- Gives up every pending key that the cursor has left behind. -/
def dropStale (s : Lexer) : Except Fault Lexer := do
  let pending ← forgetStale s.cursor s.pending
  let outer ← s.outer.mapM (forgetStale s.cursor)
  return { s with pending, outer }

/-- Gives up the pending key of the innermost collection. -/
def dropPending (s : Lexer) : Except Fault Lexer := do
  return { s with pending := ← forget s.pending }

/-- Notes that a key may start here. -/
def savePending (s : Lexer) : Except Fault Lexer := do
  if s.keyAllowed then
    let s ← s.dropPending
    let required := !s.inFlow && s.indent = (s.cursor.column : Int)
    return { s with
      pending := some ⟨s.count, required, s.cursor.index, s.cursor.line, s.cursor.column⟩ }
  else return s

/-- Closes the block collections that start to the right of a column. -/
def closeBlocks (column : Int) : List Int → Lexer → Lexer
  | [], s => s
  | outer :: indents, s =>
    if column < s.indent then
      closeBlocks column indents { s.push .blockEnd with indent := outer, indents }
    else s

/-- Closes the block collections that start to the right of a column, outside flow collections. -/
def unwind (s : Lexer) (column : Int) : Lexer :=
  if s.inFlow then s else closeBlocks column s.indents s

/-- Opens a level of indentation, if the column lies to the right of the present one. -/
def openBlock (s : Lexer) (column : Nat) : Option Lexer :=
  if s.indent < (column : Int) then
    some { s with indents := s.indent :: s.indents, indent := column }
  else none

/-- Opens a level of indentation at the cursor with a token for the collection it starts. -/
def openBlockWith (s : Lexer) (t : Token) : Lexer :=
  match s.openBlock s.cursor.column with
  | some s => s.push t
  | none => s

/-- Skips spaces, comments and line breaks. A key may start on a new line of a block. -/
def skipToToken : Nat → Lexer → Lexer
  | 0, s => s
  | fuel + 1, s =>
    let k := s.cursor.skipSpaces.skipComment
    match k.lineBreak with
    | ([], _) => { s with cursor := k }
    | (_, k) => skipToToken fuel { s with cursor := k, keyAllowed := s.keyAllowed || !s.inFlow }

def flowStart (s : Lexer) (t : Token) : Except Fault Lexer := do
  let s ← s.savePending
  return { s.pushAt t s.cursor.next with
    outer := s.pending :: s.outer, pending := none, keyAllowed := true }

/-- Ends a flow collection; there has to be one. -/
def flowEnd (s : Lexer) (t : Token) : Except Fault Lexer := do
  let s ← s.dropPending
  match s.outer with
  | [] => throw .malformed
  | pending :: outer =>
    return { s.pushAt t s.cursor.next with pending, outer, keyAllowed := false }

/-- A mark that stands between documents, or a directive, which ends all blocks. -/
def documentMark (s : Lexer) : Except Fault Lexer := do
  let s ← (s.unwind (-1)).dropPending
  return { s with keyAllowed := false }

/-- The mark of a block entry. -/
def blockEntry (s : Lexer) : Except Fault Lexer := do
  if !s.inFlow && !s.keyAllowed then throw .malformed
  let s := if s.inFlow then s else s.openBlockWith .blockSequenceStart
  let s ← dropPending { s with keyAllowed := true }
  return s.pushAt .entry s.cursor.next

/-- The mark of an explicit key. -/
def explicitKey (s : Lexer) : Except Fault Lexer := do
  if !s.inFlow && !s.keyAllowed then throw .malformed
  let s := if s.inFlow then s else s.openBlockWith .blockMappingStart
  let s ← dropPending { s with keyAllowed := !s.inFlow }
  return s.pushAt .key s.cursor.next

/-- The mark of a value: what is pending becomes a key. -/
def valueMark (s : Lexer) : Except Fault Lexer := do
  match s.pending with
  | some key =>
    let s := { s with pending := none, keyAllowed := false }
    let s := if s.inFlow then s.insertAt key.tokens [.key]
      else match s.openBlock key.column with
        | some s => s.insertAt key.tokens [.blockMappingStart, .key]
        | none => s.insertAt key.tokens [.key]
    return s.pushAt .value s.cursor.next
  | none =>
    if !s.inFlow && !s.keyAllowed then throw .malformed
    let s := if s.inFlow then s else s.openBlockWith .blockMappingStart
    return { s with keyAllowed := !s.inFlow }.pushAt .value s.cursor.next

/-- Whether a plain scalar may start at the cursor. -/
def startsPlain (s : Lexer) : Bool :=
  match s.cursor.peek with
  | none => false
  | some c =>
    (!isGap (some c) && !"-?:,[]\x7b\x7d#&*!|>'\"%@`".toList.contains c) ||
      (!isGap (s.cursor.peekAt 1) && (c = '-' || (!s.inFlow && (c = '?' || c = ':'))))

/-- Reads one token that starts with the character `c` at the cursor. -/
def token (s : Lexer) (c : Char) : Except Fault Lexer := do
  let k := s.cursor
  if c = '%' && k.column = 0 then
    let s ← s.documentMark
    let (d, k) ← directive k
    return s.pushAt (.directive d) k
  else if k.column = 0 && k.atMark then
    let s ← s.documentMark
    return s.pushAt (if c = '-' then .documentStart else .documentEnd) (k.skip 3)
  else if c = '[' then s.flowStart .flowSequenceStart
  else if c = '{' then s.flowStart .flowMappingStart
  else if c = ']' then s.flowEnd .flowSequenceEnd
  else if c = '}' then s.flowEnd .flowMappingEnd
  else if c = ',' then
    let s ← dropPending { s with keyAllowed := true }
    return s.pushAt .comma k.next
  else if c = '-' && isGap (k.peekAt 1) then s.blockEntry
  else if c = '?' && (s.inFlow || isGap (k.peekAt 1)) then s.explicitKey
  else if c = ':' && (s.inFlow || isGap (k.peekAt 1)) then s.valueMark
  else if c = '*' then
    let s ← s.savePending
    let (name, k) ← anchorName k
    return { s with keyAllowed := false }.pushAt (.reference name) k
  else if c = '&' then
    let s ← s.savePending
    let (name, k) ← anchorName k
    return { s with keyAllowed := false }.pushAt (.anchor name) k
  else if c = '!' then
    let s ← s.savePending
    let (t, k) ← writtenTag k
    return { s with keyAllowed := false }.pushAt (.tag t) k
  else if (c = '|' || c = '>') && !s.inFlow then
    let s ← dropPending { s with keyAllowed := true }
    let (text, k) ← blockScalar (c = '>') s.indent k
    return s.pushAt (.scalar (String.ofList text) false) k
  else if c = '\x27' || c = '"' then
    let s ← s.savePending
    let (text, k) ← quotedScalar (c = '"') k
    return { s with keyAllowed := false }.pushAt (.scalar (String.ofList text) false) k
  else if s.startsPlain then
    let s ← s.savePending
    let (text, broke, k) := plainScalar s.inFlow (s.indent + 1) k
    return { s with keyAllowed := broke }.pushAt (.scalar (String.ofList text) true) k
  else throw .malformed

/-- Reads on to the next token, or to the end of the text; the flag says which. -/
def step (s : Lexer) : Except Fault (Lexer × Bool) := do
  let s ← (skipToToken s.cursor.left s).dropStale
  let s := s.unwind s.cursor.column
  match s.cursor.peek with
  | none => return (← (s.unwind (-1)).dropPending, true)
  | some c => return (← s.token c, false)

/-- How many tokens no pending key can come between any more. -/
def settled (s : Lexer) : Nat :=
  (s.pending :: s.outer).foldl (fun least pending =>
    match pending with
    | some key =>
      if key.line ≠ s.cursor.line || 1024 < s.cursor.index - key.index then least
      else min least key.tokens
    | none => least) s.count

end Lexer

/-- The tokens of a text up to a fault, if there is one. -/
structure TokenRow where
  tokens : List Token
  fault : Option Fault

/-- Reads tokens to the end of the text; every token takes at least one character. A fault comes
after the tokens that were settled before it. -/
def Lexer.run : Nat → Lexer → TokenRow
  | 0, s => ⟨s.found.reverse, none⟩
  | fuel + 1, s =>
    match s.step with
    | .error fault => ⟨s.found.reverse.take s.settled, some fault⟩
    | .ok (s, ended) => if ended then ⟨s.found.reverse, none⟩ else run fuel s

/-- The text behind a byte order mark at its start. -/
def dropByteOrderMark : Cursor → Cursor
  | k => if k.peek.any fun c => c.toNat = 0xfeff then k.next else k

def tokens (text : String) : TokenRow :=
  let cs := Text.characters text
  if Text.hasSurrogate text || !cs.all isAllowed then ⟨[], some .malformed⟩
  else
    let s := Lexer.start cs
    Lexer.run (cs.length + 2) { s with cursor := dropByteOrderMark s.cursor }

end Groundplan.Yaml
