import Groundplan.Yaml.Tag
import Groundplan.Yaml.Token

/-!
# Nodes and the grammar of documents

A document is one node: a scalar, a sequence or a mapping, each with a tag. An alias is the node
that its anchor names. The anchor must be given before, and once; it may be given around the alias,
so the nodes form a graph, in which each has a number.

The grammar reads tokens from left to right and decides each step by the next token. Every step
takes a token or moves to a smaller construct, so a bound in the number of tokens never cuts a
document short.
-/

namespace Groundplan.Yaml

/-- A node of a document. Its parts are the numbers of other nodes. -/
inductive Node where
  | scalar (tag : Tag) (text : String)
  | seq (tag : Tag) (items : List Nat)
  | map (tag : Tag) (pairs : List (Nat × Nat))

namespace Node

def tag : Node → Tag
  | .scalar tag _ => tag
  | .seq tag _ => tag
  | .map tag _ => tag

def retag (tag : Tag) : Node → Node
  | .scalar _ text => .scalar tag text
  | .seq _ items => .seq tag items
  | .map _ pairs => .map tag pairs

/-- The pairs of a mapping; other nodes have none. -/
def pairs : Node → List (Nat × Nat)
  | .map _ pairs => pairs
  | _ => []

/-- The node of an omitted scalar. -/
def empty : Node := .scalar .null ""

end Node

/-- The nodes of a document by their numbers, and the number of the outermost one. -/
structure NodeGraph where
  nodes : Array Node
  root : Nat

/-- What the grammar has still to read and has learned: the tokens left, the fault behind them, the
meanings of tag handles, the nodes of anchors, the nodes so far and the number of collections
around. -/
structure Reading where
  tokens : List Token
  fault : Option Fault
  handles : List (String × String)
  anchors : List (String × Nat)
  nodes : Array Node
  depth : Nat

/-- A step of the grammar. -/
abbrev Grammar := StateT Reading (Except Fault)

namespace Grammar

/-- The next token. Behind the last token there may be a fault. -/
def peek : Grammar (Option Token) := do
  let r ← get
  match r.tokens, r.fault with
  | t :: _, _ => return some t
  | [], some fault => throw fault
  | [], none => return none

def advance : Grammar Unit :=
  modify fun r => { r with tokens := r.tokens.tail }

def refuse {α : Type} : Grammar α :=
  throw .malformed

/-- Whether the next token is one of some; the end of the text is none of them. -/
def nextIs (ts : List Token) : Grammar Bool := do
  return (← peek).any ts.contains

/-- Takes the next token if it is the given one. -/
def accept (t : Token) : Grammar Bool := do
  if (← peek) = some t then
    advance
    return true
  else return false

/-- Takes the next token, which has to be the given one. -/
def expect (t : Token) : Grammar Unit := do
  if !(← accept t) then refuse

/-- The full name of a tag as written. -/
def tagName (t : WrittenTag) : Grammar String := do
  match t.handle with
  | none => return t.suffix
  | some handle =>
    match (← get).handles.lookup handle with
    | some meaning => return meaning ++ t.suffix
    | none => refuse

/-- What stands before the content of a node. -/
structure Properties where
  anchor : Option String
  tag : Option String

/-- Takes a tag if one comes next. -/
def tag? : Grammar (Option WrittenTag) := do
  match ← peek with
  | some (.tag t) =>
    advance
    return some t
  | _ => return none

/-- Takes an anchor if one comes next. -/
def anchor? : Grammar (Option String) := do
  match ← peek with
  | some (.anchor name) =>
    advance
    return some name
  | _ => return none

/-- Takes an anchor and a tag in either order. -/
def properties : Grammar Properties := do
  match ← anchor? with
  | some name => return ⟨some name, ← (← tag?).mapM tagName⟩
  | none =>
    match ← tag? with
    | some t =>
      let anchor ← anchor?
      return ⟨anchor, some (← tagName t)⟩
    | none => return ⟨none, none⟩

def add (node : Node) : Grammar Nat := do
  let number := (← get).nodes.size
  modify fun r => { r with nodes := r.nodes.push node }
  return number

def replace (number : Nat) (node : Node) : Grammar Unit :=
  modify fun r => { r with nodes := r.nodes.setIfInBounds number node }

/-- Adds a node under its anchor, which may be given once. -/
def addNamed (anchor : Option String) (node : Node) : Grammar Nat := do
  match anchor with
  | none => add node
  | some name =>
    if ((← get).anchors.lookup name).isSome then refuse
    let number ← add node
    modify fun r => { r with anchors := (name, number) :: r.anchors }
    return number

def aliased (name : String) : Grammar Nat := do
  match (← get).anchors.lookup name with
  | some number => return number
  | none => refuse

/-- The tag of a scalar: the one given, or the one of its text if it is plain or marked so. -/
def scalarTag (given : Option String) (text : String) (plain : Bool) : Tag :=
  match given with
  | none => if plain then plainTag text else .str
  | some name => if name = "!" then plainTag text else Tag.ofName name

/-- The tag of a collection: the one given, or the usual one. -/
def collectionTag (given : Option String) (usual : Tag) : Tag :=
  match given with
  | none => usual
  | some name => if name = "!" then usual else Tag.ofName name

/-- Where a node stands: block collections may start in a block, and after a key or value mark of a
block mapping also a sequence without indentation of its own. -/
inductive Place where
  | flow
  | block
  | blockOrBare
  deriving DecidableEq

def scalar (given : Properties) (text : String) (plain : Bool) : Grammar Nat :=
  addNamed given.anchor (.scalar (scalarTag given.tag text plain) text)

/-- Adds the omitted scalar of a node that has an anchor or a tag. -/
def omitted (given : Properties) : Grammar Nat := do
  if given.anchor.isNone && given.tag.isNone then refuse
  scalar given "" true

/-- How deep collections may be nested. -/
def depthLimit : Nat := 490

/-- Reads the parts of a collection. -/
def within {α : Type} (parts : Grammar α) : Grammar α := do
  if depthLimit ≤ (← get).depth then throw (.unbuildable .tooDeep)
  modify fun r => { r with depth := r.depth + 1 }
  let read ← parts
  modify fun r => { r with depth := r.depth - 1 }
  return read

/-- Adds a sequence; its items come after its anchor. -/
def sequence (given : Properties) (items : Grammar (List Nat)) : Grammar Nat := do
  let tag := collectionTag given.tag .seq
  let number ← addNamed given.anchor (.seq tag [])
  replace number (.seq tag (← within items))
  return number

/-- Adds a mapping; its pairs come after its anchor. -/
def mapping (given : Properties) (pairs : Grammar (List (Nat × Nat))) : Grammar Nat := do
  let tag := collectionTag given.tag .map
  let number ← addNamed given.anchor (.map tag [])
  replace number (.map tag (← within pairs))
  return number

mutual

def node (place : Place) : Nat → Grammar Nat
  | 0 => refuse
  | fuel + 1 => do
    if let some (.reference name) := ← peek then
      advance
      return ← aliased name
    let given ← properties
    match ← peek with
    | some (.scalar text plain) =>
      advance
      scalar given text plain
    | some .entry =>
      if place = .blockOrBare then sequence given (bareItems fuel) else omitted given
    | some .flowSequenceStart =>
      advance
      sequence given (flowItems fuel true)
    | some .flowMappingStart =>
      advance
      mapping given (flowPairs fuel true)
    | some .blockSequenceStart =>
      if place = .flow then omitted given
      else
        advance
        sequence given (blockItems fuel)
    | some .blockMappingStart =>
      if place = .flow then omitted given
      else
        advance
        mapping given (blockPairs fuel)
    | _ => omitted given

/-- Reads a node, or an omitted one if one of the given tokens comes next. -/
def nodeUnless (place : Place) (stops : List Token) : Nat → Grammar Nat
  | 0 => refuse
  | fuel + 1 => do
    if ← nextIs stops then add .empty else node place fuel

/-- Reads the items of a block sequence and its end. -/
def blockItems : Nat → Grammar (List Nat)
  | 0 => refuse
  | fuel + 1 => do
    if ← accept .entry then
      let item ← nodeUnless .block [.entry, .blockEnd] fuel
      return item :: (← blockItems fuel)
    expect .blockEnd
    return []

/-- Reads the items of a sequence without indentation of its own. -/
def bareItems : Nat → Grammar (List Nat)
  | 0 => refuse
  | fuel + 1 => do
    if ← accept .entry then
      let item ← nodeUnless .block [.entry, .key, .value, .blockEnd] fuel
      return item :: (← bareItems fuel)
    return []

/-- Reads the pairs of a block mapping and its end. -/
def blockPairs : Nat → Grammar (List (Nat × Nat))
  | 0 => refuse
  | fuel + 1 => do
    if ← accept .key then
      let key ← nodeUnless .blockOrBare [.key, .value, .blockEnd] fuel
      let value ←
        if ← accept .value then nodeUnless .blockOrBare [.key, .value, .blockEnd] fuel
        else add .empty
      return (key, value) :: (← blockPairs fuel)
    expect .blockEnd
    return []

/-- Reads the items of a flow sequence and its end. A key mark makes an item a mapping of one
pair. -/
def flowItems : Nat → Bool → Grammar (List Nat)
  | 0, _ => refuse
  | fuel + 1, first => do
    if ← accept .flowSequenceEnd then return []
    if !first then
      expect .comma
      if ← accept .flowSequenceEnd then return []
    let item ←
      if ← accept .key then
        let key ← nodeUnless .flow [.value, .comma, .flowSequenceEnd] fuel
        let value ←
          if ← accept .value then nodeUnless .flow [.comma, .flowSequenceEnd] fuel
          else add .empty
        add (.map .map [(key, value)])
      else node .flow fuel
    return item :: (← flowItems fuel false)

/-- Reads the pairs of a flow mapping and its end. A node without a key mark has an omitted
value. -/
def flowPairs : Nat → Bool → Grammar (List (Nat × Nat))
  | 0, _ => refuse
  | fuel + 1, first => do
    if ← accept .flowMappingEnd then return []
    if !first then
      expect .comma
      if ← accept .flowMappingEnd then return []
    let pair ←
      if ← accept .key then
        let key ← nodeUnless .flow [.value, .comma, .flowMappingEnd] fuel
        let value ←
          if ← accept .value then nodeUnless .flow [.comma, .flowMappingEnd] fuel
          else add .empty
        pure (key, value)
      else do
        let key ← node .flow fuel
        pure (key, ← add .empty)
    return pair :: (← flowPairs fuel false)

end

/-- The tag handles that need no directive. -/
def usualHandles : List (String × String) := [("!", "!"), ("!!", Tag.authority)]

/-- Takes the directives of a document: a version at most once, each handle at most once. -/
def directives : Nat → Bool → List (String × String) → Grammar (List (String × String))
  | 0, _, _ => refuse
  | fuel + 1, versioned, handles => do
    match ← peek with
    | some (.directive (.version major)) =>
      if versioned || major ≠ 1 then refuse
      advance
      directives fuel true handles
    | some (.directive (.handle name meaning)) =>
      if (handles.lookup name).isSome then refuse
      advance
      directives fuel versioned ((name, meaning) :: handles)
    | some (.directive .other) =>
      advance
      directives fuel versioned handles
    | _ => return handles

/-- Takes the marks that end documents. -/
def documentEnds : Nat → Grammar Unit
  | 0 => return ()
  | fuel + 1 => do
    if ← accept .documentEnd then documentEnds fuel

/-- Reads the only document of a text, if there is one. Behind it the directives of a second one are
still read. -/
def document (fuel : Nat) : Grammar (Option Nat) := do
  let root ← match ← peek with
    | none => pure none
    | some (.directive _) => explicit
    | some .documentStart => explicit
    | some _ => some <$> node .block fuel
  documentEnds fuel
  if (← peek).isSome then
    let _ ← directives fuel false []
    refuse
  return root
where
  /-- A document behind its directives and its start mark. -/
  explicit : Grammar (Option Nat) := do
    let handles ← directives fuel false []
    modify fun r => { r with handles := handles ++ usualHandles }
    expect .documentStart
    match ← peek with
    | none => return some (← add .empty)
    | some (.directive _) => return some (← add .empty)
    | some .documentStart => return some (← add .empty)
    | some .documentEnd => return some (← add .empty)
    | some _ => some <$> node .block fuel

end Grammar

/-- The nodes that a text denotes; a text without a document denotes none. -/
def compose (text : String) : Except Fault (Option NodeGraph) := do
  let row := tokens text
  let (root, r) ← (Grammar.document (4 * row.tokens.length + 4)).run
    ⟨row.tokens, row.fault, Grammar.usualHandles, [], #[], 0⟩
  return root.map fun root => ⟨r.nodes, root⟩

end Groundplan.Yaml
