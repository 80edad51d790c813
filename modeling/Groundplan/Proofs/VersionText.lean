import Groundplan.Proofs.BuilderSteps
import Groundplan.Proofs.SectionSizes

/-!
# The text of the version

A version that is not read as a text keeps the text it is written with. Two passes over the nodes
of a document decide what that text is. Building assigns to the key the value of the last pair that
is read as `version`, after the pairs that merge keys bring were put in front. The text is taken
from the first pair whose key has the text `version` and whose value is a scalar, and merge keys are
not followed.

Where a document says its version once, both passes come to the same node. A second key, or a
version that only a merge key brings, separates them.
-/

namespace Groundplan.Yaml

namespace Builder

variable {nodes : Array Node} {s s' : Building}

/-! ### Keys that are read as a text -/

/-- Whether a node is read as a text. -/
def readsAs (nodes : Array Node) (text : String) (number : Nat) : Bool :=
  (scalarOf nodes number).toOption = some (.str text)

/-- The node under the last of the keys that are read as a text. -/
def lastUnder? (nodes : Array Node) (text : String) (pairs : List (Nat × Nat)) : Option Nat :=
  (pairs.filter fun pair => readsAs nodes text pair.1).getLast?.map Prod.snd

theorem lastUnder?_concat (nodes : Array Node) (text : String) (pairs : List (Nat × Nat))
    (pair : Nat × Nat) :
    lastUnder? nodes text (pairs ++ [pair]) =
      if readsAs nodes text pair.1 then some pair.2 else lastUnder? nodes text pairs := by
  by_cases hreads : readsAs nodes text pair.1 = true <;>
    simp [lastUnder?, List.filter_append, hreads]

/-- A scalar is built from the text of its node. -/
theorem exists_of_scalarOf {number : Nat} {x : Scalar} (h : scalarOf nodes number = .ok x) :
    ∃ text, scalarText nodes chainLimit number = .ok text ∧
      buildScalar (tagAt nodes number) text = .ok x := by
  unfold scalarOf at h
  cases htext : scalarText nodes chainLimit number with
  | error fault =>
      rw [htext] at h
      cases h
  | ok text =>
      rw [htext] at h
      simp only [bind, Except.bind] at h
      split at h
      · cases h
      · exact ⟨text, rfl, h⟩

/-- A part that a node is built into: if it is a scalar, it is the one that the node denotes. -/
def Denotes (nodes : Array Node) (number : Nat) (p : Part) : Prop :=
  ∀ x, p = .scalar x → scalarOf nodes number = .ok x

/-- A state in which the parts built so far are those that the nodes denote. -/
def Sound (nodes : Array Node) (s : Building) : Prop :=
  s.nodes = nodes ∧ ∀ number p, s.parts[number]? = some (some p) → Denotes nodes number p

theorem Sound.keep (hs : Sound nodes s) {number : Nat} {p : Part} (hp : Denotes nodes number p)
    (hnodes : s'.nodes = nodes) (hparts : s'.parts = s.parts.setIfInBounds number (some p)) :
    Sound nodes s' := by
  refine ⟨hnodes, fun other q hq => ?_⟩
  rw [hparts, Array.getElem?_setIfInBounds] at hq
  split at hq
  next heq =>
    subst heq
    split at hq
    · cases hq
      exact hp
    · cases hq
  next => exact hs.2 other q hq

theorem leads_part_denotes (number : Nat) :
    Leads (Sound nodes) (part number) fun p s => Sound nodes s ∧ Denotes nodes number p := by
  intro s p s' hs h
  rcases part_cases h with ⟨hcached, rfl⟩ | ⟨x, rfl, hx, rfl⟩ | ⟨c, -, rfl, rfl⟩
  · exact ⟨hs, hs.2 number p hcached⟩
  · have hp : Denotes nodes number (.scalar x) := by
      intro y hy
      cases hy
      rw [← hs.1, hx]
    exact ⟨hs.keep hp hs.1 rfl, hp⟩
  · have hp : Denotes nodes number (.collection s.graph.size) := fun x hx => by cases hx
    exact ⟨hs.keep hp hs.1 rfl, hp⟩

/-! ### Entries under a text -/

/-- A key that is a text is told from no other key with this text. -/
def Key.IsPlain (k : Key) : Prop :=
  ∀ text, k.scalar = .str text → k.nan = none

theorem Key.same_eq_sameKey {a b : Key} (h : a.nan = none ∨ b.nan = none) :
    a.same b = a.scalar.sameKey b.scalar := by
  unfold Key.same
  rcases h with h | h
  · rw [h]
  · rw [h]
    cases a.nan <;> rfl

theorem Key.same_eq_of_str_right {a b : Key} (hb : b.IsPlain) {text : String}
    (h : b.scalar = .str text) : a.same b = decide (a.scalar = .str text) := by
  rw [Key.same_eq_sameKey (.inr (hb text h)), h, Entries.sameKey_str_right]

theorem Key.same_eq_of_str_left {a b : Key} (ha : a.IsPlain) {text : String}
    (h : a.scalar = .str text) : a.same b = decide (b.scalar = .str text) := by
  rw [Key.same_eq_sameKey (.inl (ha text h)), h, Entries.sameKey_str_left]

/-- The parts under the keys that are a text. -/
def partsUnder (text : String) (found : List (Key × Part)) : List Part :=
  (found.filter fun entry => entry.1.scalar = .str text).map Prod.snd

theorem partsUnder_cons (text : String) (entry : Key × Part) (found : List (Key × Part)) :
    partsUnder text (entry :: found) =
      if entry.1.scalar = .str text then entry.2 :: partsUnder text found
      else partsUnder text found := by
  by_cases htext : entry.1.scalar = .str text <;> simp [partsUnder, htext]

theorem isPlain_of_mem_putKey {found : List (Key × Part)} {k : Key} {value : Part}
    (hfound : ∀ entry ∈ found, entry.1.IsPlain) (hk : k.IsPlain) :
    ∀ entry ∈ putKey found k value, entry.1.IsPlain := by
  induction found with
  | nil =>
      intro entry hentry
      rw [List.mem_singleton.1 hentry]
      exact hk
  | cons head found ih =>
      obtain ⟨hhead, hfound⟩ := List.forall_mem_cons.1 hfound
      rw [putKey]
      split
      · exact List.forall_mem_cons.2 ⟨hhead, hfound⟩
      · exact List.forall_mem_cons.2 ⟨hhead, ih hfound⟩

/-- An entry under a text replaces the one that is there; under another key it changes nothing for
the text. -/
theorem partsUnder_putKey {text : String} {found : List (Key × Part)} {k : Key} (value : Part)
    (hfound : ∀ entry ∈ found, entry.1.IsPlain) (hk : k.IsPlain)
    (hone : (partsUnder text found).length ≤ 1) :
    partsUnder text (putKey found k value) =
      if k.scalar = .str text then [value] else partsUnder text found := by
  induction found with
  | nil => by_cases htext : k.scalar = .str text <;> simp [putKey, partsUnder, htext]
  | cons head found ih =>
      obtain ⟨hhead, hfound⟩ := List.forall_mem_cons.1 hfound
      rw [partsUnder_cons] at hone
      rw [putKey, partsUnder_cons]
      by_cases htext : k.scalar = .str text
      · rw [if_pos htext, Key.same_eq_of_str_right hk htext]
        by_cases hsame : head.1.scalar = .str text
        · -- There is one entry under the text, so none comes further on.
          rw [if_pos hsame, List.length_cons] at hone
          have hnil : partsUnder text found = [] := List.length_eq_zero_iff.1 (by omega)
          simp only [hsame, decide_true, if_true, partsUnder_cons, hnil]
        · rw [if_neg hsame] at hone
          simp only [hsame, decide_false, Bool.false_eq_true, if_false, partsUnder_cons,
            ih hfound hone, htext, if_true]
      · rw [if_neg htext]
        by_cases hsame : head.1.scalar = .str text
        · rw [if_pos hsame, List.length_cons] at hone
          have hother : head.1.same k = false := by
            rw [Key.same_eq_of_str_left hhead hsame, decide_eq_false htext]
          simp only [hother, Bool.false_eq_true, if_false, partsUnder_cons, hsame, if_true,
            ih hfound (by omega), htext]
        · -- Whether the key is the one of the head or not, neither of them is the text.
          rw [if_neg hsame] at hone
          cases head.1.same k <;>
            simp only [Bool.false_eq_true, if_false, if_true, partsUnder_cons, hsame,
              ih hfound hone, htext]

/-- What is known of the entries that some pairs gave: under a text stands one part, which the last
pair under the text denotes. -/
def Gathered (nodes : Array Node) (text : String) (done : List (Nat × Nat))
    (found : List (Key × Part)) (s : Building) : Prop :=
  Sound nodes s ∧ (∀ entry ∈ found, entry.1.IsPlain) ∧
    List.Forall₂ (Denotes nodes) (lastUnder? nodes text done).toList (partsUnder text found)

theorem Gathered.length_le {text : String} {done : List (Nat × Nat)} {found : List (Key × Part)}
    (h : Gathered nodes text done found s) : (partsUnder text found).length ≤ 1 := by
  rw [← h.2.2.length_eq]
  exact Option.length_toList_le

/-- One more pair: its key counts for a text exactly if it is read as the text. -/
theorem Gathered.put {text : String} {done : List (Nat × Nat)} {found : List (Key × Part)}
    (h : Gathered nodes text done found s) {pair : Nat × Nat} {k : Key} {value : Part}
    (hs' : Sound nodes s') (hkey : scalarOf nodes pair.1 = .ok k.scalar) (hk : k.IsPlain)
    (hvalue : Denotes nodes pair.2 value) :
    Gathered nodes text (done ++ [pair]) (putKey found k value) s' := by
  refine ⟨hs', isPlain_of_mem_putKey h.2.1 hk, ?_⟩
  have hreads : readsAs nodes text pair.1 = decide (k.scalar = .str text) := by
    simp [readsAs, hkey, Except.toOption]
  rw [lastUnder?_concat, hreads, partsUnder_putKey value h.2.1 hk h.length_le]
  by_cases htext : k.scalar = .str text
  · simpa [htext] using hvalue
  · simpa [htext] using h.2.2

/-- The entries of a mapping have under a text the part of the last pair under it. -/
theorem leads_entries_gathered (text : String) (pairs : List (Nat × Nat)) :
    Leads (Sound nodes) (entries pairs) fun es s => ∃ found, Gathered nodes text pairs found s ∧
      es = found.map fun entry => (entry.1.scalar, entry.2) := by
  intro s es s' hs h
  obtain ⟨found, s₁, hfold, hdone⟩ := of_bind h
  obtain ⟨rfl, rfl⟩ := of_pure hdone
  refine ⟨found, ?_, rfl⟩
  refine Leads.foldlM (I := Gathered nodes text) (fun done pair found => ?_) pairs [] [] ?_ hfold
  · intro s found' s' hgathered hstep
    obtain ⟨k, s₁, hkey, hvalue⟩ := of_bind hstep
    obtain ⟨value, s₂, hvalue, hput⟩ := of_bind hvalue
    obtain ⟨rfl, rfl⟩ := of_pure hput
    obtain ⟨hpart, hplain⟩ := of_key hkey
    obtain ⟨hs₁, hdenotes⟩ := leads_part_denotes pair.1 hgathered.1 hpart
    obtain ⟨hs₂, hvalue⟩ := leads_part_denotes pair.2 hs₁ hvalue
    exact hgathered.put hs₂ (hdenotes _ rfl) hplain hvalue
  · exact ⟨hs, fun entry hentry => absurd hentry List.not_mem_nil, List.Forall₂.nil⟩

end Builder

/-! ### The outermost mapping -/

namespace NodeGraph

open Builder

/-- The state in which nothing was met. -/
def begun (g : NodeGraph) : Building :=
  ⟨g.nodes, Array.replicate g.nodes.size none, #[], #[], mergeCount g.nodes⟩

/-- The state in which the outermost collection was met, which begins empty, and nothing else. -/
def opened (g : NodeGraph) (empty : Collection) : Building :=
  ⟨g.nodes, (Array.replicate g.nodes.size none).setIfInBounds g.root (some (.collection 0)),
    #[empty], #[g.root], mergeCount g.nodes⟩

/-- The nodes once the merge keys of the outermost mapping are resolved. -/
def resolved (g : NodeGraph) : Except Fault (Array Node) :=
  (flatten (mergeCount g.nodes + 1) chainLimit g.root [] (g.opened (.map []))).map fun result =>
    result.2.nodes

theorem parts_begun_ne (g : NodeGraph) (number : Nat) (p : Part) :
    g.begun.parts[number]? ≠ some (some p) := by
  rw [begun, Array.getElem?_replicate]
  split <;> simp

/-- Before anything is built, what is built so far is right for whatever nodes there are. -/
theorem sound_opened (g : NodeGraph) (empty : Collection) (nodes : Array Node) :
    Sound nodes { g.opened empty with nodes } := by
  have hbegun : Sound nodes { g.begun with nodes } :=
    ⟨rfl, fun number p hp => absurd hp (g.parts_begun_ne number p)⟩
  have hroot : Denotes nodes g.root (.collection 0) := fun x hx => by cases hx
  exact hbegun.keep hroot rfl rfl

/-- A collection that begins as a mapping begins empty. -/
theorem eq_nil_of_collection? {tag : Tag} {es : List (Scalar × Part)}
    (h : tag.collection? = some (.map es)) : es = [] := by
  cases tag <;> cases h
  rfl

/-- The collection that a node denotes is a mapping only if it begins as one. -/
theorem of_collection_eq_map {number : Nat} {empty : Collection} {s s' : Building}
    {es : List (Scalar × Part)} (h : collection number empty s = .ok (.map es, s')) :
    (∃ es', empty = .map es') ∧ mappingEntries number s = .ok (es, s') := by
  cases empty with
  | list items =>
      obtain ⟨items, s₁, -, hparts⟩ := of_bind h
      obtain ⟨parts, s₂, -, hdone⟩ := of_bind hparts
      cases (of_pure hdone).1
  | pairs items =>
      obtain ⟨items, s₁, -, hparts⟩ := of_bind h
      obtain ⟨parts, s₂, -, hdone⟩ := of_bind hparts
      cases (of_pure hdone).1
  | set members =>
      obtain ⟨found, s₁, -, hdone⟩ := of_bind h
      cases (of_pure hdone).1
  | map entries =>
      obtain ⟨found, s₁, hfound, hdone⟩ := of_bind h
      obtain ⟨heq, rfl⟩ := of_pure hdone
      cases heq
      exact ⟨⟨entries, rfl⟩, hfound⟩

/-- A document denotes a scalar, or the collection at the first place, with which filling begins. -/
theorem document_cases {g : NodeGraph} {p : Part} {s : Building}
    (h : document g.root g.begun = .ok (p, s)) :
    (∃ x, p = .scalar x) ∨ ∃ empty filled s₁,
      (tagAt g.nodes g.root).collection? = some empty ∧ p = .collection 0 ∧
      collection g.root empty (g.opened empty) = .ok (filled, s₁) ∧
      s.graph[0]? = some filled := by
  obtain ⟨whole, s₁, hpart, hfill⟩ := of_bind h
  obtain ⟨u, s₂, hfilled, hdone⟩ := of_bind (of_get_bind hfill)
  obtain ⟨rfl, rfl⟩ := of_pure hdone
  rcases part_cases hpart with ⟨hcached, -⟩ | ⟨x, rfl, -, -⟩ | ⟨empty, htag, rfl, hs₁⟩
  · exact absurd hcached (g.parts_begun_ne _ _)
  · exact .inl ⟨x, rfl⟩
  · replace hs₁ : s₁ = g.opened empty := hs₁
    subst hs₁
    rcases fill_cases hfilled with ⟨hnone, -⟩ |
      ⟨empty', number, filled, s₂, hempty, hnumber, hcollection, hrest⟩
    · rcases hnone with hnone | hnone <;> cases hnone
    · cases hempty
      cases hnumber
      refine .inr ⟨empty, filled, s₂, htag, rfl, hcollection, ?_⟩
      refine keeps_fill filled _ 1 Nat.one_pos ?_ hrest
      -- The first place is there before it is filled.
      have hbefore : Holds 0 empty (g.opened empty) := rfl
      have hplace : Holds 0 empty s₂ := keeps_collection 0 empty g.root empty hbefore hcollection
      obtain ⟨hlt, -⟩ := Array.getElem?_eq_some_iff.1 hplace
      change (s₂.graph.setIfInBounds 0 filled)[0]? = some filled
      rw [Array.getElem?_setIfInBounds, if_pos rfl, if_pos hlt]

/-- A document whose value is a mapping has its outermost mapping at the first place, and the first
thing that is built are the entries there. -/
theorem exists_of_value {g : NodeGraph} {root : Value} (h : g.value = .ok root) {data : Entries}
    (hdata : root.entries? = some data) :
    ∃ es s graph, mappingEntries g.root (g.opened (.map [])) = .ok (es, s) ∧
      graph[0]? = some (.map es) ∧ root = .node graph 0 := by
  unfold value at h
  cases hrun : document g.root g.begun with
  | error fault =>
      change (document g.root g.begun >>= _) = _ at h
      rw [hrun] at h
      cases h
  | ok result =>
      obtain ⟨whole, s⟩ := result
      change (document g.root g.begun >>= _) = _ at h
      rw [hrun] at h
      cases h
      rcases document_cases hrun with ⟨x, rfl⟩ | ⟨empty, filled, s₁, htag, rfl, hfilled, hplace⟩
      · cases hdata
      · obtain ⟨es, hes, -⟩ := Value.entries?_node_eq_some_iff.1 hdata
        obtain rfl : filled = .map es := Option.some.inj (hplace.symm.trans hes)
        obtain ⟨⟨es', rfl⟩, hentries⟩ := of_collection_eq_map hfilled
        obtain rfl := eq_nil_of_collection? htag
        exact ⟨es, s₁, s.graph, hentries, hplace, rfl⟩

/-- What the entries of the outermost mapping are, in terms of the resolved nodes: under a text
stands what the last pair under it denotes. -/
theorem exists_resolved {g : NodeGraph} {root : Value} (h : g.value = .ok root) {data : Entries}
    (hdata : root.entries? = some data) (key : String) :
    ∃ nodes graph es, g.resolved = .ok nodes ∧ Extends g.nodes nodes ∧ root = .node graph 0 ∧
      graph[0]? = some (.map es) ∧
      List.Forall₂ (Denotes nodes) (lastUnder? nodes key (pairsAt nodes g.root)).toList
        ((es.filter fun entry => entry.1 = .str key).map Prod.snd) := by
  obtain ⟨es, s, graph, hentries, hplace, rfl⟩ := exists_of_value h hdata
  obtain ⟨s₁, hflatten, hentries⟩ := of_mappingEntries hentries
  obtain ⟨hext, heq⟩ := resolving_of_flatten hflatten
  have hsound := g.sound_opened (.map []) s₁.nodes
  rw [← heq] at hsound
  obtain ⟨found, hgathered, rfl⟩ := leads_entries_gathered key _ hsound hentries
  refine ⟨s₁.nodes, graph, _, ?_, hext, rfl, hplace, ?_⟩
  · rw [resolved]
    exact congrArg (Except.map fun result : PUnit × Building => result.2.nodes) hflatten
  · have hparts := hgathered.2.2
    simpa [partsUnder, List.filter_map, Function.comp_def] using hparts

theorem get?_map (es : List (Scalar × Part)) (value : Scalar × Part → Value) (key : String) :
    Entries.get? (es.map fun entry => (entry.1, value entry)) key =
      (es.filter fun entry => entry.1 = .str key).head?.map value := by
  simp [Entries.get?, List.find?_map, List.head?_filter, Function.comp_def]

/-- A scalar under a text key of the outermost mapping is its only entry under the key, and the
node under the last pair that is read as the key denotes it. -/
theorem exists_assigned {g : NodeGraph} {root : Value} (h : g.value = .ok root) {data : Entries}
    (hdata : root.entries? = some data) {key : String} {x : Scalar}
    (hkey : data.get? key = some (.scalar x)) :
    ∃ nodes graph es entry number, g.resolved = .ok nodes ∧ Extends g.nodes nodes ∧
      root = .node graph 0 ∧ graph[0]? = some (.map es) ∧
      (es.filter fun entry => entry.1 = .str key) = [entry] ∧ entry.2 = .scalar x ∧
      lastUnder? nodes key (pairsAt nodes g.root) = some number ∧
      scalarOf nodes number = .ok x := by
  obtain ⟨nodes, graph, es, hresolved, hext, rfl, hplace, hparts⟩ := exists_resolved h hdata key
  obtain ⟨es', hes', rfl⟩ := Value.entries?_node_eq_some_iff.1 hdata
  obtain rfl : es = es' := Collection.map.inj (Option.some.inj (hplace.symm.trans hes'))
  rw [get?_map es fun entry => .ofPart graph entry.2] at hkey
  generalize hfilter : (es.filter fun entry => entry.1 = .str key) = under at hkey hparts
  cases hlast : lastUnder? nodes key (pairsAt nodes g.root) with
  | none =>
      rw [hlast, Option.toList_none, List.forall₂_nil_left_iff, List.map_eq_nil_iff] at hparts
      rw [hparts] at hkey
      cases hkey
  | some number =>
      rw [hlast] at hparts
      rcases under with - | ⟨entry, - | ⟨entry', under⟩⟩
      · cases hkey
      · obtain ⟨hdenotes, -⟩ := List.forall₂_cons.1 hparts
        have hentry : entry.2 = .scalar x := by
          cases hpart : entry.2 with
          | collection place => simp [hpart, Value.ofPart] at hkey
          | scalar y => simpa [hpart, Value.ofPart] using hkey
        exact ⟨nodes, graph, es, entry, number, hresolved, hext, rfl, hplace, hfilter, hentry,
          hlast, hdenotes x hentry⟩
      · cases (List.forall₂_cons.1 hparts).2

/-! ### The pair that counts -/

/-- The pairs of the outermost mapping without those that merge keys stand for. -/
def ownPairs (g : NodeGraph) : List (Nat × Nat) :=
  unmerged g.nodes (pairsAt g.nodes g.root)

/-- A node counts for a key of the outermost mapping if it stands under the last of its own keys
that are read as the key, or if it has none and another mapping has a pair with the node. -/
def Counts (g : NodeGraph) (nodes : Array Node) (key : String) (number : Nat) : Prop :=
  lastUnder? nodes key g.ownPairs = some number ∨
    lastUnder? nodes key g.ownPairs = none ∧ ∃ other first, other ≠ g.root ∧
      (first, number) ∈ pairsAt g.nodes other ∧ readsAs nodes key first = true

theorem lastUnder?_append (nodes : Array Node) (key : String) (front back : List (Nat × Nat)) :
    lastUnder? nodes key (front ++ back) =
      (lastUnder? nodes key back).or (lastUnder? nodes key front) := by
  rw [lastUnder?, List.filter_append, List.getLast?_append, lastUnder?, lastUnder?]
  cases (back.filter fun pair => readsAs nodes key pair.1).getLast? <;> rfl

theorem exists_of_lastUnder? {nodes : Array Node} {key : String} {pairs : List (Nat × Nat)}
    {number : Nat} (h : lastUnder? nodes key pairs = some number) :
    ∃ first, (first, number) ∈ pairs ∧ readsAs nodes key first = true := by
  obtain ⟨⟨first, second⟩, hlast, rfl⟩ := Option.map_eq_some_iff.1 h
  obtain ⟨hmem, hreads⟩ := List.mem_filter.1 (List.mem_of_getLast? hlast)
  exact ⟨first, hmem, hreads⟩

theorem not_mem_of_lastUnder?_eq_none {nodes : Array Node} {key : String}
    {pairs : List (Nat × Nat)} (h : lastUnder? nodes key pairs = none) {pair : Nat × Nat}
    (hreads : readsAs nodes key pair.1 = true) : pair ∉ pairs := by
  intro hpair
  rw [lastUnder?, Option.map_eq_none_iff, List.getLast?_eq_none_iff] at h
  exact List.filter_eq_nil_iff.1 h pair hpair hreads

theorem tagAt_ne_merge_of_readsAs {nodes : Array Node} {key : String} {number : Nat}
    (h : readsAs nodes key number = true) : tagAt nodes number ≠ .merge := by
  intro hmerge
  cases hscalar : scalarOf nodes number with
  | error fault => simp [readsAs, hscalar, Except.toOption] at h
  | ok x =>
      obtain ⟨text, -, hbuild⟩ := exists_of_scalarOf hscalar
      rw [hmerge] at hbuild
      cases hbuild

theorem lastUnder?_unmerged {original nodes : Array Node} (hext : Extends original nodes)
    (key : String) (pairs : List (Nat × Nat)) :
    lastUnder? nodes key (unmerged original pairs) = lastUnder? nodes key pairs := by
  rw [lastUnder?, lastUnder?, unmerged, List.filter_filter]
  congr 3
  funext pair
  by_cases hreads : readsAs nodes key pair.1 = true
  · have hne := tagAt_ne_merge_of_readsAs hreads
    rw [ne_eq, hext.merge_iff] at hne
    simp [hreads, hne]
  · simp [hreads]

theorem counts_of_lastUnder? {g : NodeGraph} {nodes : Array Node} (hext : Extends g.nodes nodes)
    {key : String} {number : Nat}
    (h : lastUnder? nodes key (pairsAt nodes g.root) = some number) :
    g.Counts nodes key number := by
  obtain ⟨front, hfront⟩ := hext.own g.root
  rw [← lastUnder?_unmerged hext, ← hfront, lastUnder?_append] at h
  unfold Counts ownPairs
  cases hown : lastUnder? nodes key (unmerged g.nodes (pairsAt g.nodes g.root)) with
  | some found =>
      rw [hown, Option.some_or] at h
      exact .inl h
  | none =>
      rw [hown, Option.none_or] at h
      obtain ⟨first, hmem, hreads⟩ := exists_of_lastUnder? h
      have hpair : (first, number) ∈ pairsAt nodes g.root := by
        refine (List.mem_filter.1 (?_ : _ ∈ unmerged g.nodes _)).1
        rw [← hfront]
        exact List.mem_append_left _ hmem
      obtain ⟨other, hother⟩ := hext.known hpair
      refine .inr ⟨rfl, other, first, fun hroot => ?_, hother, hreads⟩
      -- A pair of the mapping itself would be one of its own pairs.
      subst hroot
      have hne := tagAt_ne_merge_of_readsAs hreads
      rw [ne_eq, hext.merge_iff] at hne
      refine not_mem_of_lastUnder?_eq_none hown hreads (List.mem_filter.2 ⟨hother, ?_⟩)
      simpa using hne

/-! ### The pair that is written first -/

/-- The text of a scalar node. -/
def textAt? (nodes : Array Node) (number : Nat) : Option String :=
  match nodes[number]? with
  | some (.scalar _ text) => some text
  | _ => none

/-- The first scalar of the outermost mapping that stands under a scalar with the text of a key. -/
def firstWritten? (g : NodeGraph) (key : String) : Option Nat :=
  ((pairsAt g.nodes g.root).find? fun pair =>
    textAt? g.nodes pair.1 = some key ∧ (textAt? g.nodes pair.2).isSome).map Prod.snd

/-- The text of the first scalar that stands under a scalar with the text of a key. -/
def firstText? (g : NodeGraph) (key : String) : Option String :=
  (g.firstWritten? key).bind (textAt? g.nodes)

theorem sourceText?_cons (nodes : Array Node) (key : String) (pair : Nat × Nat)
    (pairs : List (Nat × Nat)) :
    Document.sourceText? nodes key (pair :: pairs) =
      if textAt? nodes pair.1 = some key ∧ (textAt? nodes pair.2).isSome then textAt? nodes pair.2
      else Document.sourceText? nodes key pairs := by
  obtain ⟨first, second⟩ := pair
  rw [Document.sourceText?]
  unfold textAt?
  split
  next tag text tag' value hfirst hsecond =>
    simp only [hfirst, hsecond, Option.some.injEq, Option.isSome_some, and_true]
  next hnone =>
    refine (if_neg ?_).symm
    rintro ⟨hfirst, hsecond⟩
    split at hfirst
    next tag text hfound =>
      split at hsecond
      next tag' value hfound' => exact hnone tag text tag' value hfound hfound'
      next => cases hsecond
    next => cases hfirst

theorem sourceText?_eq_firstText? (g : NodeGraph) (key : String) :
    Document.sourceText? g.nodes key (pairsAt g.nodes g.root) = g.firstText? key := by
  unfold firstText? firstWritten?
  induction pairsAt g.nodes g.root with
  | nil => rfl
  | cons pair pairs ih =>
      rw [sourceText?_cons, List.find?_cons]
      by_cases hpair : textAt? g.nodes pair.1 = some key ∧ (textAt? g.nodes pair.2).isSome
      · simp [hpair]
      · rw [if_neg hpair, ih]
        simp only [hpair, decide_false]

/-- The first scalar that is written under a key has its text also in the resolved nodes. -/
theorem scalarText_of_firstWritten? {g : NodeGraph} {nodes : Array Node}
    (hext : Extends g.nodes nodes) {key : String} {number : Nat}
    (h : g.firstWritten? key = some number) :
    ∃ text, g.firstText? key = some text ∧ scalarText nodes chainLimit number = .ok text := by
  obtain ⟨⟨first, second⟩, hfind, rfl⟩ := Option.map_eq_some_iff.1 h
  have hsource := List.find?_some hfind
  rw [decide_eq_true_eq] at hsource
  obtain ⟨text, htext⟩ := Option.isSome_iff_exists.1 hsource.2
  refine ⟨text, by rw [firstText?, h]; exact htext, ?_⟩
  unfold textAt? at htext
  split at htext
  next tag text' hnode =>
    cases htext
    obtain ⟨tag', hnode'⟩ := hext.scalar hnode
    rw [chainLimit, scalarText, hnode']
  next => cases htext

end NodeGraph

end Groundplan.Yaml

/-! ### The version of a document -/

namespace Groundplan.Document

open Yaml.Builder

/-- The scalar that the value of a document has under the key of the version. -/
def builtVersion? (text : String) : Option Scalar :=
  match Yaml.load text with
  | .ok root =>
    match root.entries?.bind (Entries.get? · "version") with
    | some (.scalar x) => some x
    | _ => none
  | .error _ => none

theorem exists_of_builtVersion? {text : String} {x : Scalar} (h : builtVersion? text = some x) :
    ∃ g root data, Yaml.compose text = .ok (some g) ∧ g.value = .ok root ∧
      root.entries? = some data ∧ data.get? "version" = some (.scalar x) := by
  unfold builtVersion? at h
  split at h
  next root hload =>
    split at h
    next y hversion =>
      cases h
      obtain ⟨data, hdata, hget⟩ := Option.bind_eq_some_iff.1 hversion
      unfold Yaml.load at hload
      cases hgraph : Yaml.compose text with
      | error fault =>
          rw [hgraph] at hload
          cases hload
      | ok graph =>
          rw [hgraph] at hload
          cases graph with
          | none =>
              cases hload
              cases hdata
          | some g => exact ⟨g, root, data, rfl, hload, hdata, hget⟩
    next => cases h
  next => cases h

theorem usualKey_eq_version_iff (key : Scalar) :
    usualKey key = .str "version" ↔ key = .str "version" := by
  cases key with
  | str name =>
      rw [usualKey]
      cases hlookup : spellings.lookup name with
      | none => rfl
      | some usual =>
          have hspellings : ∀ pair ∈ spellings, pair.1 ≠ "version" ∧ pair.2 ≠ "version" := by
            decide
          obtain ⟨before, after, hsplit, -⟩ := List.lookup_eq_some_iff.1 hlookup
          have hmem : (name, usual) ∈ spellings := by
            rw [hsplit]
            exact List.mem_append_right _ List.mem_cons_self
          obtain ⟨hname, husual⟩ := hspellings _ hmem
          simp [hname, husual]
  | _ => rfl

/-- Under the key of the version stands what the only entry there gives. -/
theorem get?_usualKeys_version {es : List (Scalar × Part)} {entry : Scalar × Part}
    (h : (es.filter fun entry => entry.1 = .str "version") = [entry])
    (value : Scalar × Part → Value) :
    (usualKeys (es.map fun entry => (entry.1, value entry))).get? "version" =
      some (value entry) := by
  have hvalues : valuesUnder (es.map fun entry => (entry.1, value entry)) "version" =
      [value entry] := by
    simp only [valuesUnder, List.filter_map, Function.comp_def, usualKey_eq_version_iff, h,
      List.map_cons, List.map_nil]
  rw [get?_usualKeys, hvalues]
  rfl

theorem restoreVersion_eq {g : Yaml.NodeGraph} {root : Value} {data : Entries} {x : Scalar}
    (hdata : root.entries? = some data) (hversion : data.get? "version" = some (.scalar x))
    (hx : ∀ text, x ≠ .str text) :
    restoreVersion g root =
      (g.firstText? "version").elim root fun text => root.putText "version" text := by
  rw [← Yaml.NodeGraph.sourceText?_eq_firstText?]
  unfold restoreVersion
  rw [hdata, Option.bind_some, hversion]
  split
  next text hsome => cases hsome; exact absurd rfl (hx text)
  next value tag pairs _ hsome hroot =>
    rw [pairsAt_eq hroot, Yaml.Node.pairs]
    cases sourceText? g.nodes "version" pairs <;> rfl
  next hnone hmap =>
    have hpairs : pairsAt g.nodes g.root = [] := by
      unfold pairsAt
      rcases hroot : g.nodes[g.root]? with - | ⟨- | - | ⟨tag, pairs⟩⟩
      case some.map => exact (hmap _ tag pairs rfl hroot).elim
      all_goals rfl
    rw [hpairs]
    rfl

/-- The text of the node that building assigns to the version. -/
def assignedText? (text : String) : Option String := do
  let g ← (← (Yaml.compose text).toOption)
  let nodes ← g.resolved.toOption
  let number ← lastUnder? nodes "version" (pairsAt nodes g.root)
  (scalarText nodes chainLimit number).toOption

theorem load_eq_ok {text : String} {g : Yaml.NodeGraph} {root : Value} {restored : Entries}
    (source : Option String) (hgraph : Yaml.compose text = .ok (some g))
    (hvalue : g.value = .ok root) (h : (restoreVersion g root).entries? = some restored) :
    load source text = .ok (usualKeys restored) := by
  simp only [load, hgraph, hvalue, h, Except.mapError, bind, Except.bind, pure, Except.pure]

/-- What the entries of a document have as its version: the text that is written first, or the
scalar itself. -/
theorem get?_version_of_load (source : Option String) {text : String} {g : Yaml.NodeGraph}
    {graph : Graph} {es : List (Scalar × Part)} {entry : Scalar × Part} {x : Scalar}
    (hgraph : Yaml.compose text = .ok (some g)) (hvalue : g.value = .ok (.node graph 0))
    (hplace : graph[0]? = some (.map es))
    (hone : (es.filter fun entry => entry.1 = .str "version") = [entry])
    (hentry : entry.2 = .scalar x) (hx : ∀ text, x ≠ .str text) :
    ∃ data, load source text = .ok data ∧
      data.get? "version" = some ((g.firstText? "version").elim (.scalar x) .str) := by
  have hdata : (Value.node graph 0).entries? =
      some (es.map fun entry => (entry.1, .ofPart graph entry.2)) :=
    Value.entries?_node_eq_some_iff.2 ⟨es, hplace, rfl⟩
  have hget : Entries.get? (es.map fun entry => (entry.1, .ofPart graph entry.2)) "version" =
      some (.scalar x) := by
    rw [Yaml.NodeGraph.get?_map es fun entry => .ofPart graph entry.2, hone, List.head?_cons,
      Option.map_some, hentry, Value.ofPart]
  have hrestored := restoreVersion_eq (g := g) hdata hget hx
  cases hfirst : g.firstText? "version" with
  | none =>
      rw [hfirst, Option.elim_none] at hrestored
      refine ⟨_, load_eq_ok source hgraph hvalue (by rw [hrestored]; exact hdata), ?_⟩
      rw [get?_usualKeys_version hone fun entry => .ofPart graph entry.2, hentry, Value.ofPart,
        Option.elim_none]
  | some first =>
      rw [hfirst, Option.elim_some, Value.putText] at hrestored
      have hput : (graph.putText 0 "version" first)[0]? = some (.map (es.map fun entry =>
          (entry.1, if entry.1 = .str "version" then .scalar (.str first) else entry.2))) := by
        rw [Graph.putText, Array.getElem?_modify, if_pos rfl, hplace, Option.map_some]
      have hkey : entry.1 = .str "version" := by
        have hmem : entry ∈ es.filter fun entry => entry.1 = .str "version" := by
          rw [hone]
          exact List.mem_singleton_self entry
        simpa using (List.mem_filter.1 hmem).2
      have hentries := Value.entries?_node_eq_some_iff.2 ⟨_, hput, rfl⟩
      rw [List.map_map] at hentries
      refine ⟨_, load_eq_ok source hgraph hvalue (by rw [hrestored]; exact hentries), ?_⟩
      refine (get?_usualKeys_version hone fun entry => .ofPart (graph.putText 0 "version" first)
        (if entry.1 = .str "version" then .scalar (.str first) else entry.2)).trans ?_
      rw [if_pos hkey, Value.ofPart, Option.elim_some, Value.str]

/-- The version of a document that is no text. Building assigns it the value of one node: the one
under the last of the keys of the outermost mapping that are read as `version`, or one that a merge
key brings if there is no such key. What loading returns is the text of the first scalar that is
written under `version` there, or the value if there is none. So the version keeps the text of the
assigned node exactly if the first one has this text, as it has if it is the assigned node. -/
theorem version_is_first_written (source : Option String) {text : String} {x : Scalar}
    (hversion : builtVersion? text = some x) (hx : ∀ text, x ≠ .str text) :
    ∃ g nodes number written data,
      Yaml.compose text = .ok (some g) ∧ g.resolved = .ok nodes ∧
      lastUnder? nodes "version" (pairsAt nodes g.root) = some number ∧
      g.Counts nodes "version" number ∧ scalarOf nodes number = .ok x ∧
      assignedText? text = some written ∧
      load source text = .ok data ∧
      data.get? "version" = some ((g.firstText? "version").elim (.scalar x) .str) ∧
      (data.get? "version" = some (.str written) ↔ g.firstText? "version" = some written) ∧
      (g.firstWritten? "version" = some number → data.get? "version" = some (.str written)) := by
  obtain ⟨g, root, built, hgraph, hvalue, hbuilt, hget⟩ := exists_of_builtVersion? hversion
  obtain ⟨nodes, graph, es, entry, number, hresolved, hext, rfl, hplace, hone, hentry, hlast,
    hscalar⟩ := Yaml.NodeGraph.exists_assigned hvalue hbuilt hget
  obtain ⟨written, hwritten, -⟩ := exists_of_scalarOf hscalar
  obtain ⟨data, hload, hdata⟩ := get?_version_of_load source hgraph hvalue hplace hone hentry hx
  have hkept : data.get? "version" = some (.str written) ↔
      g.firstText? "version" = some written := by
    rw [hdata]
    cases hfirst : g.firstText? "version" with
    | none => simpa [Value.str] using hx written
    | some first => simp [Value.str]
  have hassigned : assignedText? text = some written := by
    simp [assignedText?, hgraph, hresolved, hlast, hwritten, Except.toOption]
  refine ⟨g, nodes, number, written, data, hgraph, hresolved, hlast,
    Yaml.NodeGraph.counts_of_lastUnder? hext hlast, hscalar, hassigned, hload, hdata, hkept, ?_⟩
  intro hfirst
  obtain ⟨first, htext, hscalarText⟩ := Yaml.NodeGraph.scalarText_of_firstWritten? hext hfirst
  obtain rfl : first = written := Except.ok.inj (hscalarText.symm.trans hwritten)
  exact hkept.2 htext

/-- A version that is said once keeps its last zero, which its value does not have. -/
theorem single_version_keeps_text :
    builtVersion? "version: 1.10\n" = some (.float (.finite false 4953959590107546 (-52))) ∧
      ∃ data, load none "version: 1.10\n" = .ok data ∧
        data.get? "version" = some (.str "1.10") := by
  have hversion : builtVersion? "version: 1.10\n" =
      some (.float (.finite false 4953959590107546 (-52))) := by decide +kernel
  have hfirst : (Yaml.compose "version: 1.10\n").toOption.join.bind
      (Yaml.NodeGraph.firstText? · "version") = some "1.10" := by decide +kernel
  obtain ⟨g, -, -, -, data, hgraph, -, -, -, -, -, hload, hdata, -, -⟩ :=
    version_is_first_written none hversion (fun text heq => by cases heq)
  rw [hgraph] at hfirst
  have htext : g.firstText? "version" = some "1.10" := hfirst
  rw [htext] at hdata
  exact ⟨hversion, data, hload, hdata⟩

/-- Two versions that differ. -/
def repeatedVersion : String := "version: 1.0\nversion: 2.10\n"

/-- A version that a merge key brings. -/
def mergedVersion : String := "base: &b\n  version: 1.10\n<<: *b\n"

/-- Of two versions the second gives the value and the first the text, and a version that a merge
key brings has no text at all. -/
theorem other_version_gives_text :
    (builtVersion? repeatedVersion = some (.float (.finite false 4728779608739021 (-51))) ∧
      assignedText? repeatedVersion = some "2.10" ∧
      ((load none repeatedVersion).toOption.bind fun data =>
        (data.get? "version").bind Value.str?) = some "1.0") ∧
    builtVersion? mergedVersion = some (.float (.finite false 4953959590107546 (-52))) ∧
      assignedText? mergedVersion = some "1.10" ∧
      ((load none mergedVersion).toOption.bind fun data =>
        (data.get? "version").bind Value.str?) = none := by
  decide +kernel

end Groundplan.Document
