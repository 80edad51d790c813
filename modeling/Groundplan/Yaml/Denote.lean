import Groundplan.Yaml.Node
import Groundplan.Yaml.Scalar

/-!
# The value that a document denotes

Scalars are built from their text by their tag, collections from their parts. A mapping first
takes the pairs of the mappings that its merge keys name, then its own; of equal keys the last
value stays, in the place of the first. Keys are scalars.

Every node is built once, so a node with two names is one part of two collections. A collection is
given its place in the graph of values when it is met, and is filled when all collections met
before it are filled. So a collection can be a part of itself, and of two faults the one in the
outer collection is reported.
-/

namespace Groundplan.Yaml

def Tag.isScalar : Tag → Bool
  | .null | .bool | .int | .float | .timestamp | .str | .binary => true
  | _ => false

/-- The empty collection with which a tag for collections begins. -/
def Tag.collection? : Tag → Option Collection
  | .seq => some (.list [])
  | .map => some (.map [])
  | .set => some (.set [])
  | .omap | .pairs => some (.pairs [])
  | _ => none

/-- The state between two steps: the nodes, the part that each node was built into, the collections
so far, the node of each of them, and a bound for the number of merge keys. -/
structure Building where
  nodes : Array Node
  parts : Array (Option Part)
  graph : Graph
  origins : Array Nat
  merges : Nat

/-- A step that builds parts of the value. -/
abbrev Builder := StateT Building (Except Fault)

namespace Builder

def refuse {α : Type} : Builder α :=
  throw .malformed

def nodeAt (number : Nat) : Builder Node := do
  match (← get).nodes[number]? with
  | some node => return node
  | none => refuse

def tagAt (nodes : Array Node) (number : Nat) : Tag :=
  match nodes[number]? with
  | some node => node.tag
  | none => .other

/-! ### Scalars -/

/-- How deep merges and default marks may lead. -/
def chainLimit : Nat := 985

/-- The text of a scalar, or of the scalar that a mapping holds under its default mark, given how
many levels are left. -/
def scalarText (nodes : Array Node) : Nat → Nat → Except Fault String
  | 0, _ => .error (.unbuildable .tooDeep)
  | levels + 1, number =>
    match nodes[number]? with
    | some (.scalar _ text) => .ok text
    | some (.map _ pairs) =>
      match pairs.find? fun pair => tagAt nodes pair.1 = .value with
      | some (_, value) => scalarText nodes levels value
      | none => .error .malformed
    | _ => .error .malformed

/-- The scalar that a node with a tag for scalars denotes. -/
def scalarOf (nodes : Array Node) (number : Nat) : Except Fault Scalar := do
  let text ← scalarText nodes chainLimit number
  match nodes[number]? with
  | some (.map .timestamp _) => throw (.unbuildable .timestampHolder)
  | _ => buildScalar (tagAt nodes number) text

/-! ### Parts -/

/-- Records the part that a node is built into. -/
def keep (number : Nat) (part : Part) : Builder Part := do
  modify fun s => { s with parts := s.parts.setIfInBounds number (some part) }
  return part

/-- The part that a node denotes; a collection is met here and filled later. -/
def part (number : Nat) : Builder Part := do
  let s ← get
  match s.parts[number]? with
  | some (some part) => return part
  | _ =>
    let tag := tagAt s.nodes number
    if tag.isScalar then keep number (.scalar (← scalarOf s.nodes number))
    else
      match tag.collection? with
      | some collection =>
        let place := s.graph.size
        modify fun s => { s with
          graph := s.graph.push collection, origins := s.origins.push number }
        keep number (.collection place)
      | none => refuse

/-! ### Merging -/

/-- The first pair with a merge key, without the key, and the other pairs. -/
def takeMerge? (nodes : Array Node) : List (Nat × Nat) → Option (Nat × List (Nat × Nat))
  | [] => none
  | (key, value) :: pairs =>
    if tagAt nodes key = .merge then some (value, pairs)
    else (takeMerge? nodes pairs).map fun (found, rest) => (found, (key, value) :: rest)

/-- The number of pairs with merge keys. -/
def mergeCount (nodes : Array Node) : Nat :=
  nodes.foldl (fun count node =>
    count + (node.pairs.filter fun pair => tagAt nodes pair.1 = .merge).length) 0

/-- The mappings that a merge key names: one, or those in a sequence. -/
def mergeSources (value : Nat) : Builder (List Nat) := do
  match ← nodeAt value with
  | .map _ _ => return [value]
  | .seq _ items => return items
  | .scalar _ _ => refuse

def replace (number : Nat) (node : Node) : Builder Unit :=
  modify fun s => { s with nodes := s.nodes.setIfInBounds number node }

/-- Gives a mapping other pairs; other nodes are refused. -/
def setPairs (number : Nat) (pairs : List (Nat × Nat)) : Builder Unit := do
  match ← nodeAt number with
  | .map tag _ => replace number (.map tag pairs)
  | _ => refuse

/-- A default mark that is a key is a text. -/
def settleKey (key : Nat) : Builder Unit := do
  let node ← nodeAt key
  if node.tag = .value then replace key (node.retag .str)

/-- A mapping is looked into only if there is a level left. -/
def enter (levels number : Nat) : Builder Unit := do
  match ← nodeAt number, levels with
  | .map _ _, 0 => throw (.unbuildable .deepMerge)
  | _, _ => return ()

/-- Replaces the merge keys of a mapping by the pairs that they take; `taken` were taken before.
Every merge key is removed before it is followed, so their number bounds the steps, also where
mappings merge each other. There is a limit to how deep they lead. -/
def flatten : Nat → Nat → Nat → List (Nat × Nat) → Builder Unit
  | 0, _, _, _ => return ()
  | fuel + 1, levels, number, taken => do
    let pairs := (← nodeAt number).pairs
    match takeMerge? (← get).nodes pairs with
    | none =>
      setPairs number (taken ++ pairs)
      pairs.forM fun pair => settleKey pair.1
    | some (value, rest) =>
      setPairs number rest
      let sources ← (← mergeSources value).mapM fun source => do
        enter levels source
        flatten fuel (levels - 1) source []
        return (← nodeAt source).pairs
      flatten fuel levels number (taken ++ sources.reverse.flatten)

/-! ### Collections -/

/-- A key of a mapping, and which of the things that are no number it is: they all differ, except
the one that has a word of its own. -/
structure Key where
  scalar : Scalar
  nan : Option Nat
  deriving DecidableEq

/-- Whether two keys are the same. -/
def Key.same (a b : Key) : Bool :=
  match a.nan, b.nan with
  | some m, some n => m = n
  | _, _ => a.scalar.sameKey b.scalar

/-- The key that a node denotes. -/
def key (number : Nat) : Builder Key := do
  match ← part number with
  | .collection _ => refuse
  | .scalar (.float .nan) =>
    let nodes := (← get).nodes
    match scalarText nodes chainLimit number with
    | .ok text => return ⟨.float .nan, some (if isNanWord text then 0 else number + 1)⟩
    | .error fault => throw fault
  | .scalar s => return ⟨s, none⟩

/-- Entries with one more: under a key that they have, it takes the place of the value there. -/
def putKey : List (Key × Part) → Key → Part → List (Key × Part)
  | [], key, value => [(key, value)]
  | entry :: entries, key, value =>
    if entry.1.same key then (entry.1, value) :: entries
    else entry :: putKey entries key value

/-- The entries of a mapping from its pairs. -/
def entries (pairs : List (Nat × Nat)) : Builder (List (Scalar × Part)) := do
  let found ← pairs.foldlM (fun found (first, second) => do
    let key ← key first
    let value ← part second
    return putKey found key value) []
  return found.map fun (key, value) => (key.scalar, value)

/-- The entries of a node, which has to be a mapping. -/
def mappingEntries (number : Nat) : Builder (List (Scalar × Part)) := do
  flatten ((← get).merges + 1) chainLimit number []
  match ← nodeAt number with
  | .map _ pairs => entries pairs
  | _ => refuse

/-- The items of a node, which has to be a sequence. -/
def sequenceItems (number : Nat) : Builder (List Nat) := do
  match ← nodeAt number with
  | .seq _ items => return items
  | _ => refuse

/-- The two parts of a node that has to be a mapping of one pair. -/
def pairOf (number : Nat) : Builder (Part × Part) := do
  match ← nodeAt number with
  | .map _ [(first, second)] =>
    let first ← part first
    return (first, ← part second)
  | _ => refuse

/-- The collection that a node denotes, of the same kind as an empty one. -/
def collection (number : Nat) : Collection → Builder Collection
  | .list _ => return .list (← (← sequenceItems number).mapM part)
  | .pairs _ => return .pairs (← (← sequenceItems number).mapM pairOf)
  | .set _ => return .set ((← mappingEntries number).map Prod.fst)
  | .map _ => return .map (← mappingEntries number)

/-- Fills the collections from a place on, each with those that it leads to. There is at most one
for each node. -/
def fill : Nat → Nat → Builder Unit
  | 0, _ => return ()
  | fuel + 1, place => do
    let s ← get
    match s.graph[place]?, s.origins[place]? with
    | some empty, some number =>
      let filled ← collection number empty
      modify fun s => { s with graph := s.graph.setIfInBounds place filled }
      fill fuel (place + 1)
    | _, _ => return ()

/-- The part that a document denotes, with all collections filled. -/
def document (root : Nat) : Builder Part := do
  let whole ← part root
  fill ((← get).nodes.size + 1) 0
  return whole

end Builder

def NodeGraph.value (g : NodeGraph) : Except Fault Value := do
  let (whole, s) ← (Builder.document g.root).run
    ⟨g.nodes, Array.replicate g.nodes.size none, #[], #[], Builder.mergeCount g.nodes⟩
  return .ofPart s.graph whole

/-- The value that a text denotes; a text without a document denotes null. -/
def load (text : String) : Except Fault Value := do
  match ← compose text with
  | some g => g.value
  | none => return .null

end Groundplan.Yaml
