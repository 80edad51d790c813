import Groundplan.Failure
import Groundplan.Model.Decode
import Groundplan.Yaml.Denote

/-!
# Documents

A document is a text whose value is a mapping. Four of its top-level keys have a second spelling
with dashes. A version that is not read as a text keeps the text it is written with, since `1.10`
as a number would lose its zero.
-/

namespace Groundplan.Document

/-- The second spellings of top-level keys. -/
def spellings : List (String × String) := [
  ("bounded-context", "bounded_context"), ("value-objects", "value_objects"),
  ("external-events", "external_events"), ("type-aliases", "type_aliases")]

/-- A top-level key in its usual spelling. -/
def usualKey : Scalar → Scalar
  | .str key => .str ((spellings.lookup key).getD key)
  | key => key

/-- The entries of a document under their usual keys; of two spellings of one key the last value
stays, in the place of the first. -/
def usualKeys (data : Entries) : Entries :=
  data.foldl (fun usual (key, value) => usual.put (usualKey key) value) []

/-- The text of the first scalar that stands under a key with the given text. -/
def sourceText? (nodes : Array Yaml.Node) (key : String) : List (Nat × Nat) → Option String
  | [] => none
  | (first, second) :: pairs =>
    match nodes[first]?, nodes[second]? with
    | some (.scalar _ text), some (.scalar _ value) =>
      if text = key then some value else sourceText? nodes key pairs
    | _, _ => sourceText? nodes key pairs

/-- A version that is no text is replaced by its source text, if a scalar gives it. -/
def restoreVersion (g : Yaml.NodeGraph) (root : Value) : Value :=
  match root.entries?.bind (Entries.get? · "version"), g.nodes[g.root]? with
  | some (.scalar (.str _)), _ => root
  | some _, some (.map _ pairs) =>
    match sourceText? g.nodes "version" pairs with
    | some text => root.putText "version" text
    | none => root
  | _, _ => root

/-- What a fault of the text means for a document. -/
def failureOf (source : Option String) : Yaml.Fault → Failure
  | .malformed => .document source .yaml
  | .unbuildable fault => .scalar fault

/-- The entries of a document, under their usual keys. -/
def load (source : Option String) (text : String) : Except Failure Entries := do
  match ← (Yaml.compose text).mapError (failureOf source) with
  | none => throw (.document source .root)
  | some g =>
    match (restoreVersion g (← g.value.mapError (failureOf source))).entries? with
    | some data => return usualKeys data
    | none => throw (.document source .root)

/-- The failure of a document that cannot be prepared. A number that cannot be written is a fault of
the document. -/
def namingFailure (source : Option String) (data : Entries) : Failure :=
  match (namingTrail data).obstacle with
  | some .deepValue => .deepValue
  | _ => .document source (.undecoded [⟨[], .refused Text.unwritableMessage, .map data⟩])

/-- The model that the entries of a document describe. -/
def modelOf (source : Option String) (data : Entries) : Except Failure Model :=
  match prepare? data with
  | none => .error (namingFailure source data)
  | some prepared =>
    match collectionTyped? prepared with
    | some kind => .error (.collectionType kind)
    | none =>
      match Model.decode prepared with
      | .bad faults => .error (.document source (.undecoded faults))
      | .good model =>
        match model.violation? with
        | some v => .error (.violation v)
        | none => .ok model

/-- The model that a document describes. -/
def parse (source : Option String) (text : String) : Except Failure Model := do
  modelOf source (← load source text)

def parsedNote (s : Summary) : Note :=
  ⟨.info, .parsing, "Parsed bounded context '" ++ s.context ++ "' (" ++
    Text.decimal s.aggregates ++ " aggregates, " ++ Text.decimal s.commands ++ " commands, " ++
    Text.decimal s.events ++ " events, " ++ Text.decimal s.queries ++ " queries)"⟩

/-- The notes that decoding and checking a document's entries leave. -/
def modelNotes (data : Entries) : List Note :=
  (namingTrail data).notes ++
    match prepare? data with
    | none => []
    | some prepared =>
      match collectionTyped? prepared, Model.decode prepared with
      | none, .good m => m.checkNotes ++ if m.violation?.isNone then [parsedNote m.summary] else []
      | _, _ => []

def notes (text : String) : List Note :=
  match load none text with
  | .ok data => modelNotes data
  | .error _ => []

end Groundplan.Document
