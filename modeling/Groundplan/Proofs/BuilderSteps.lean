import Groundplan.Yaml.Denote
import Mathlib.Data.List.Basic

/-!
# What building a value can do

Building a value goes through three kinds of steps. Merge keys are resolved, which changes nodes and
nothing else. Parts are built, which changes no nodes. Collections are filled in the order in which
they were met, and once filled they stay as they are.

Resolving merge keys puts pairs of other mappings in front of those of a mapping. Whatever it does,
the pairs that a mapping has without merge keys stay at its end in their order, no pair is new to
the document, and scalars keep their text.
-/

namespace Groundplan.Yaml.Builder

variable {α β : Type} {s s' : Building}

/-! ### Steps in a row -/

theorem of_bind {x : Builder α} {f : α → Builder β} {b : β} {s'' : Building}
    (h : (x >>= f) s = .ok (b, s'')) :
    ∃ a s', x s = .ok (a, s') ∧ f a s' = .ok (b, s'') := by
  change (x s >>= fun r => f r.1 r.2) = _ at h
  cases hx : x s with
  | error fault =>
      rw [hx] at h
      cases h
  | ok r =>
      rw [hx] at h
      exact ⟨r.1, r.2, rfl, h⟩

theorem of_pure {a b : α} (h : (pure a : Builder α) s = .ok (b, s')) : b = a ∧ s' = s := by
  cases h
  exact ⟨rfl, rfl⟩

theorem of_refuse {a : α} (h : (refuse : Builder α) s = .ok (a, s')) : False := by
  cases h

theorem of_get_bind {f : Building → Builder α} {a : α} (h : (get >>= f) s = .ok (a, s')) :
    f s s = .ok (a, s') :=
  h

theorem of_modify {f : Building → Building} {u : PUnit}
    (h : (modify f : Builder PUnit) s = .ok (u, s')) : s' = f s := by
  cases h
  rfl

theorem of_nodeAt {number : Nat} {node : Node} (h : nodeAt number s = .ok (node, s')) :
    s.nodes[number]? = some node ∧ s' = s := by
  unfold nodeAt at h
  replace h := of_get_bind h
  cases hfound : s.nodes[number]? with
  | none =>
      rw [hfound] at h
      exact (of_refuse h).elim
  | some found =>
      rw [hfound] at h
      obtain ⟨rfl, rfl⟩ := of_pure h
      exact ⟨rfl, rfl⟩

theorem of_liftM {x : Except Fault α} {a : α} (h : (liftM x : Builder α) s = .ok (a, s')) :
    x = .ok a ∧ s' = s := by
  cases x with
  | error fault => cases h
  | ok b =>
      cases h
      exact ⟨rfl, rfl⟩

/-- Whenever a step succeeds from a state with a property, its result and the state behind it have
another one. -/
def Leads (P : Building → Prop) (b : Builder α) (Q : α → Building → Prop) : Prop :=
  ∀ ⦃s a s'⦄, P s → b s = .ok (a, s') → Q a s'

/-- A step that keeps a property of the state. -/
def Keeps (P : Building → Prop) (b : Builder α) : Prop :=
  Leads P b fun _ => P

theorem Keeps.forM {P : Building → Prop} {f : α → Builder PUnit}
    (hf : ∀ x, Keeps P (f x)) (xs : List α) : Keeps P (xs.forM f) := by
  induction xs with
  | nil =>
      intro s u s' hs h
      obtain ⟨-, rfl⟩ := of_pure h
      exact hs
  | cons x xs ih =>
      intro s u s' hs h
      obtain ⟨v, s₁, hx, h⟩ := of_bind h
      exact ih (hf x hs hx) h

theorem Leads.mapM {P : Building → Prop} {f : α → Builder β} {Q : β → Prop}
    (hf : ∀ x, Leads P (f x) fun b s => P s ∧ Q b) (xs : List α) :
    Leads P (xs.mapM f) fun bs s => P s ∧ ∀ b ∈ bs, Q b := by
  induction xs with
  | nil =>
      intro s bs s' hs h
      obtain ⟨rfl, rfl⟩ := of_pure h
      exact ⟨hs, fun b hb => absurd hb List.not_mem_nil⟩
  | cons x xs ih =>
      intro s bs s' hs h
      rw [List.mapM_cons] at h
      obtain ⟨b, s₁, hx, h⟩ := of_bind h
      obtain ⟨rest, s₂, hrest, h⟩ := of_bind h
      obtain ⟨rfl, rfl⟩ := of_pure h
      obtain ⟨hs₁, hb⟩ := hf x hs hx
      obtain ⟨hs₂, hall⟩ := ih hs₁ hrest
      exact ⟨hs₂, List.forall_mem_cons.2 ⟨hb, hall⟩⟩

theorem Keeps.mapM {P : Building → Prop} {f : α → Builder β}
    (hf : ∀ x, Keeps P (f x)) (xs : List α) : Keeps P (xs.mapM f) := by
  intro s bs s' hs h
  have hstep (x : α) : Leads P (f x) fun _ s => P s ∧ True := fun _ _ _ hs hx =>
    ⟨hf x hs hx, trivial⟩
  exact (Leads.mapM hstep xs hs h).1

/-- A loop leads from a property of what was done before to the same property of all that is done
behind it. -/
theorem Leads.foldlM {I : List α → β → Building → Prop} {step : β → α → Builder β}
    (hstep : ∀ done x b, Leads (I done b) (step b x) (I (done ++ [x]))) (rest : List α) :
    ∀ done b, Leads (I done b) (rest.foldlM step b) (I (done ++ rest)) := by
  induction rest with
  | nil =>
      intro done b s b' s' hs h
      obtain ⟨rfl, rfl⟩ := of_pure h
      rwa [List.append_nil]
  | cons x rest ih =>
      intro done b s b' s' hs h
      rw [List.foldlM_cons] at h
      obtain ⟨b₁, s₁, hx, h⟩ := of_bind h
      have hrest := ih (done ++ [x]) b₁ (hstep done x b hs hx) h
      rwa [List.append_assoc] at hrest

/-! ### Parts -/

theorem of_keep {number : Nat} {p q : Part} (h : keep number p s = .ok (q, s')) :
    q = p ∧ s' = { s with parts := s.parts.setIfInBounds number (some p) } := by
  cases h
  exact ⟨rfl, rfl⟩

/-- A node is built into a part that was built before, into a scalar, or into a collection that is
met for the first time. -/
theorem part_cases {number : Nat} {p : Part} (h : part number s = .ok (p, s')) :
    (s.parts[number]? = some (some p) ∧ s' = s) ∨
      (∃ x, p = .scalar x ∧ scalarOf s.nodes number = .ok x ∧
        s' = { s with parts := s.parts.setIfInBounds number (some p) }) ∨
      ∃ c, (tagAt s.nodes number).collection? = some c ∧ p = .collection s.graph.size ∧
        s' = { s with
          graph := s.graph.push c, origins := s.origins.push number,
          parts := s.parts.setIfInBounds number (some p) } := by
  unfold part at h
  replace h := of_get_bind h
  rcases hcached : s.parts[number]? with - | ⟨- | cached⟩ <;> simp only [hcached] at h
  case some.some =>
    obtain ⟨rfl, rfl⟩ := of_pure h
    exact .inl ⟨rfl, rfl⟩
  all_goals
    by_cases hscalar : (tagAt s.nodes number).isScalar = true
    · rw [if_pos hscalar] at h
      obtain ⟨x, s₁, hx, hkeep⟩ := of_bind h
      obtain ⟨hx, rfl⟩ := of_liftM hx
      obtain ⟨rfl, rfl⟩ := of_keep hkeep
      exact .inr (.inl ⟨x, rfl, hx, rfl⟩)
    · rw [if_neg hscalar] at h
      cases hcollection : (tagAt s.nodes number).collection? with
      | none =>
          rw [hcollection] at h
          exact (of_refuse h).elim
      | some c =>
          rw [hcollection] at h
          obtain ⟨u, s₁, hpush, hkeep⟩ := of_bind h
          obtain rfl := of_modify hpush
          obtain ⟨rfl, rfl⟩ := of_keep hkeep
          exact .inr (.inr ⟨c, rfl, rfl, rfl⟩)

/-- A key is built as a part that is a scalar; only what is no number is told apart further. -/
theorem of_key {number : Nat} {k : Key} (h : key number s = .ok (k, s')) :
    part number s = .ok (.scalar k.scalar, s') ∧ ∀ text, k.scalar = .str text → k.nan = none := by
  unfold key at h
  obtain ⟨p, s₁, hpart, h⟩ := of_bind h
  cases p with
  | collection place => exact (of_refuse h).elim
  | scalar x =>
      by_cases hx : x = .float .nan
      · subst hx
        replace h := of_get_bind h
        cases htext : scalarText s₁.nodes chainLimit number with
        | error fault =>
            simp only [htext] at h
            cases h
        | ok text =>
            simp only [htext] at h
            obtain ⟨rfl, rfl⟩ := of_pure h
            exact ⟨hpart, fun text htext => by cases htext⟩
      · have hkey : (pure ⟨x, none⟩ : Builder Key) s₁ = .ok (k, s') := by
          cases x with
          | float d =>
              cases d with
              | nan => exact absurd rfl hx
              | _ => exact h
          | _ => exact h
        obtain ⟨rfl, rfl⟩ := of_pure hkey
        exact ⟨hpart, fun text htext => rfl⟩

/-! ### Merging -/

/-- The pairs of the mapping with a number; other nodes have none. -/
def pairsAt (nodes : Array Node) (number : Nat) : List (Nat × Nat) :=
  (nodes[number]?.map Node.pairs).getD []

/-- The pairs without a merge key. -/
def unmerged (nodes : Array Node) (pairs : List (Nat × Nat)) : List (Nat × Nat) :=
  pairs.filter fun pair => tagAt nodes pair.1 ≠ .merge

/-- A pair of some mapping of a document. -/
def Known (nodes : Array Node) (pair : Nat × Nat) : Prop :=
  ∃ number, pair ∈ pairsAt nodes number

/-- What resolving merge keys leaves as it is: the text of scalars, which keys are merge keys, and
at the end of each mapping its own pairs. No pair is new. -/
structure Extends (original nodes : Array Node) : Prop where
  scalar : ∀ {number : Nat} {tag : Tag} {text : String},
    original[number]? = some (.scalar tag text) → ∃ tag', nodes[number]? = some (.scalar tag' text)
  merge_iff : ∀ number, tagAt nodes number = .merge ↔ tagAt original number = .merge
  own : ∀ number, unmerged original (pairsAt original number) <:+
    unmerged original (pairsAt nodes number)
  known : ∀ {number : Nat} {pair : Nat × Nat}, pair ∈ pairsAt nodes number → Known original pair

theorem Extends.refl (nodes : Array Node) : Extends nodes nodes where
  scalar h := ⟨_, h⟩
  merge_iff _ := Iff.rfl
  own _ := List.suffix_rfl
  known h := ⟨_, h⟩

theorem pairsAt_eq {nodes : Array Node} {number : Nat} {node : Node}
    (h : nodes[number]? = some node) : pairsAt nodes number = node.pairs := by
  rw [pairsAt, h]
  rfl

theorem tagAt_eq {nodes : Array Node} {number : Nat} {node : Node}
    (h : nodes[number]? = some node) : tagAt nodes number = node.tag := by
  rw [tagAt, h]

theorem getElem?_setIfInBounds {nodes : Array Node} {number : Nat} {node : Node}
    (h : nodes[number]? = some node) (node' : Node) (other : Nat) :
    (nodes.setIfInBounds number node')[other]? =
      if number = other then some node' else nodes[other]? := by
  obtain ⟨hlt, -⟩ := Array.getElem?_eq_some_iff.1 h
  rw [Array.getElem?_setIfInBounds, if_pos hlt]

/-- One node may be replaced by one with the same text, its own pairs at the end and known pairs. -/
theorem Extends.replace {original nodes : Array Node} (hext : Extends original nodes)
    {number : Nat} {node node' : Node} (hnode : nodes[number]? = some node)
    (hscalar : ∀ {tag text}, node = .scalar tag text → ∃ tag', node' = .scalar tag' text)
    (hmerge : node'.tag = .merge ↔ node.tag = .merge)
    (hown : unmerged original (pairsAt original number) <:+ unmerged original node'.pairs)
    (hknown : ∀ pair ∈ node'.pairs, Known original pair) :
    Extends original (nodes.setIfInBounds number node') := by
  have hget := getElem?_setIfInBounds hnode node'
  have hself : (nodes.setIfInBounds number node')[number]? = some node' := by
    rw [hget, if_pos rfl]
  have hother {other : Nat} (h : number ≠ other) :
      (nodes.setIfInBounds number node')[other]? = nodes[other]? := by
    rw [hget, if_neg h]
  have hpairs {other : Nat} (h : number ≠ other) :
      pairsAt (nodes.setIfInBounds number node') other = pairsAt nodes other := by
    rw [pairsAt, hother h, pairsAt]
  refine ⟨?scalar, ?merge, ?own, ?known⟩
  case scalar =>
    intro other tag text h
    obtain ⟨tag', htext⟩ := hext.scalar h
    by_cases heq : number = other
    · subst heq
      obtain ⟨tag'', rfl⟩ := hscalar (Option.some.inj (hnode.symm.trans htext))
      exact ⟨tag'', hself⟩
    · exact ⟨tag', by rw [hother heq, htext]⟩
  case merge =>
    intro other
    rw [← hext.merge_iff other]
    by_cases heq : number = other
    · subst heq
      rw [tagAt_eq hself, tagAt_eq hnode, hmerge]
    · rw [tagAt, hother heq, tagAt]
  case own =>
    intro other
    by_cases heq : number = other
    · subst heq
      rwa [pairsAt_eq hself]
    · rw [hpairs heq]
      exact hext.own other
  case known =>
    intro other pair hpair
    by_cases heq : number = other
    · subst heq
      rw [pairsAt_eq hself] at hpair
      exact hknown pair hpair
    · rw [hpairs heq] at hpair
      exact hext.known hpair

theorem Extends.unmerged_eq {original nodes : Array Node} (hext : Extends original nodes)
    (pairs : List (Nat × Nat)) : unmerged nodes pairs = unmerged original pairs := by
  unfold unmerged
  simp only [ne_eq, hext.merge_iff]

theorem of_takeMerge? {nodes : Array Node} {pairs rest : List (Nat × Nat)} {value : Nat}
    (h : takeMerge? nodes pairs = some (value, rest)) :
    unmerged nodes rest = unmerged nodes pairs ∧ ∀ pair ∈ rest, pair ∈ pairs := by
  induction pairs generalizing rest with
  | nil => cases h
  | cons pair pairs ih =>
      obtain ⟨first, second⟩ := pair
      rw [takeMerge?] at h
      by_cases hmerge : tagAt nodes first = .merge
      · rw [if_pos hmerge] at h
        cases h
        exact ⟨by simp [unmerged, hmerge], fun pair => List.mem_cons_of_mem _⟩
      · rw [if_neg hmerge, Option.map_eq_some_iff] at h
        obtain ⟨⟨found, others⟩, hfound, heq⟩ := h
        cases heq
        obtain ⟨hunmerged, hmem⟩ := ih hfound
        refine ⟨?_, fun pair hpair => ?_⟩
        · simpa [unmerged, hmerge] using hunmerged
        · rcases List.mem_cons.1 hpair with rfl | hpair
          · exact List.mem_cons_self
          · exact List.mem_cons_of_mem _ (hmem pair hpair)

theorem of_replace {number : Nat} {node : Node} {u : PUnit}
    (h : replace number node s = .ok (u, s')) :
    s' = { s with nodes := s.nodes.setIfInBounds number node } :=
  of_modify h

theorem of_setPairs {number : Nat} {pairs : List (Nat × Nat)} {u : PUnit}
    (h : setPairs number pairs s = .ok (u, s')) :
    ∃ tag old, s.nodes[number]? = some (.map tag old) ∧
      s' = { s with nodes := s.nodes.setIfInBounds number (.map tag pairs) } := by
  unfold setPairs at h
  obtain ⟨node, s₁, hnode, h⟩ := of_bind h
  obtain ⟨hnode, rfl⟩ := of_nodeAt hnode
  cases node with
  | map tag old => exact ⟨tag, old, hnode, of_replace h⟩
  | scalar tag text => exact (of_refuse h).elim
  | seq tag items => exact (of_refuse h).elim

theorem of_settleKey {number : Nat} {u : PUnit} (h : settleKey number s = .ok (u, s')) :
    s' = s ∨ ∃ node, s.nodes[number]? = some node ∧ node.tag = .value ∧
      s' = { s with nodes := s.nodes.setIfInBounds number (node.retag .str) } := by
  unfold settleKey at h
  obtain ⟨node, s₁, hnode, hsettle⟩ := of_bind h
  obtain ⟨hnode, rfl⟩ := of_nodeAt hnode
  by_cases htag : node.tag = .value
  · rw [if_pos htag] at hsettle
    exact .inr ⟨node, hnode, htag, of_replace hsettle⟩
  · rw [if_neg htag] at hsettle
    exact .inl (of_pure hsettle).2

theorem of_mergeSources {value : Nat} {sources : List Nat}
    (h : mergeSources value s = .ok (sources, s')) : s' = s := by
  unfold mergeSources at h
  obtain ⟨node, s₁, hnode, h⟩ := of_bind h
  obtain ⟨-, rfl⟩ := of_nodeAt hnode
  cases node with
  | map tag pairs => exact (of_pure h).2
  | seq tag items => exact (of_pure h).2
  | scalar tag text => exact (of_refuse h).elim

/-- A state behind another one, between which only merge keys were resolved. -/
def Resolving (original : Array Node) (s₀ s : Building) : Prop :=
  Extends original s.nodes ∧ s = { s₀ with nodes := s.nodes }

theorem Resolving.with_nodes {original nodes : Array Node} {s₀ : Building}
    (hs : Resolving original s₀ s) (hext : Extends original nodes) :
    Resolving original s₀ { s with nodes } := by
  refine ⟨hext, ?_⟩
  rw [hs.2]

theorem keeps_setPairs {original : Array Node} {s₀ : Building} {number : Nat}
    {pairs : List (Nat × Nat)}
    (hown : unmerged original (pairsAt original number) <:+ unmerged original pairs)
    (hknown : ∀ pair ∈ pairs, Known original pair) :
    Keeps (Resolving original s₀) (setPairs number pairs) := by
  intro s u s' hs h
  obtain ⟨tag, old, hnode, rfl⟩ := of_setPairs h
  refine hs.with_nodes (hs.1.replace hnode ?_ Iff.rfl hown hknown)
  intro tag' text heq
  cases heq

theorem keeps_settleKey (original : Array Node) (s₀ : Building) (number : Nat) :
    Keeps (Resolving original s₀) (settleKey number) := by
  intro s u s' hs h
  rcases of_settleKey h with rfl | ⟨node, hnode, htag, rfl⟩
  · exact hs
  have hpairs : (node.retag .str).pairs = pairsAt s.nodes number := by
    rw [pairsAt_eq hnode]
    cases node <;> rfl
  have htag' : (node.retag .str).tag = .str := by cases node <;> rfl
  refine hs.with_nodes (hs.1.replace hnode ?_ ?_ ?_ ?_)
  · rintro tag text rfl
    exact ⟨.str, rfl⟩
  · rw [htag, htag']
    decide
  · rw [hpairs]
    exact hs.1.own number
  · rw [hpairs]
    exact fun pair => hs.1.known

theorem of_enter {levels number : Nat} {u : PUnit} (h : enter levels number s = .ok (u, s')) :
    s' = s := by
  obtain ⟨node, s₁, hnode, hlevel⟩ := of_bind h
  obtain ⟨-, rfl⟩ := of_nodeAt hnode
  cases node with
  | map tag pairs =>
      cases levels with
      | zero => cases hlevel
      | succ levels => exact (of_pure hlevel).2
  | scalar tag text => exact (of_pure hlevel).2
  | seq tag items => exact (of_pure hlevel).2

/-- The pairs that a merge key takes from a mapping are known, once its own merge keys are
resolved. -/
theorem leads_source {original : Array Node} {s₀ : Building} {fuel : Nat}
    (hflatten : ∀ levels number taken, (∀ pair ∈ taken, Known original pair) →
      Keeps (Resolving original s₀) (flatten fuel levels number taken))
    (levels source : Nat) :
    Leads (Resolving original s₀)
      (do enter levels source
          flatten fuel (levels - 1) source []
          return (← nodeAt source).pairs)
      fun pairs s => Resolving original s₀ s ∧ ∀ pair ∈ pairs, Known original pair := by
  intro s pairs s' hs h
  obtain ⟨u, s₁, henter, hfollow⟩ := of_bind h
  obtain rfl := of_enter henter
  obtain ⟨u, s₁, hflat, hread⟩ := of_bind hfollow
  obtain ⟨node, s₂, hnode, hpairs⟩ := of_bind hread
  obtain ⟨hnode, rfl⟩ := of_nodeAt hnode
  obtain ⟨rfl, rfl⟩ := of_pure hpairs
  have hs₁ := hflatten (levels - 1) source [] (fun pair hpair => absurd hpair List.not_mem_nil) hs hflat
  refine ⟨hs₁, fun pair hpair => ?_⟩
  rw [← pairsAt_eq hnode] at hpair
  exact hs₁.1.known hpair

/-- Resolving the merge keys of a mapping extends the nodes and changes nothing else. -/
theorem keeps_flatten (original : Array Node) (s₀ : Building) (fuel : Nat) :
    ∀ levels number taken, (∀ pair ∈ taken, Known original pair) →
      Keeps (Resolving original s₀) (flatten fuel levels number taken) := by
  induction fuel with
  | zero =>
      intro levels number taken htaken s u s' hs h
      obtain ⟨-, rfl⟩ := of_pure h
      exact hs
  | succ fuel ih =>
      intro levels number taken htaken s u s' hs h
      rw [flatten] at h
      obtain ⟨node, s₁, hnode, hstep⟩ := of_bind h
      obtain ⟨hnode, rfl⟩ := of_nodeAt hnode
      have hpairs : node.pairs = pairsAt s₁.nodes number := (pairsAt_eq hnode).symm
      replace hstep := of_get_bind hstep
      cases htake : takeMerge? s₁.nodes node.pairs with
      | none =>
          -- No merge key is left, and what was taken goes in front of the pairs that are there.
          simp only [htake] at hstep
          obtain ⟨v, s₂, hset, hsettle⟩ := of_bind hstep
          refine Keeps.forM (fun pair : Nat × Nat => keeps_settleKey original s₀ pair.1) _
            (keeps_setPairs ?_ ?_ hs hset) hsettle
          · have happend : unmerged original (taken ++ node.pairs) =
                unmerged original taken ++ unmerged original node.pairs := List.filter_append ..
            rw [happend, hpairs]
            exact (hs.1.own number).trans (List.suffix_append ..)
          · intro pair hpair
            rcases List.mem_append.1 hpair with hpair | hpair
            · exact htaken pair hpair
            · exact hs.1.known (hpairs ▸ hpair)
      | some found =>
          -- A pair with a merge key is none of those that have to stay, so it can be removed first.
          obtain ⟨value, rest⟩ := found
          simp only [htake] at hstep
          obtain ⟨v, s₂, hset, hfollow⟩ := of_bind hstep
          obtain ⟨sources, s₃, hsources, hgather⟩ := of_bind hfollow
          obtain rfl := of_mergeSources hsources
          obtain ⟨found, s₄, hfound, hagain⟩ := of_bind hgather
          obtain ⟨hunmerged, hrest⟩ := of_takeMerge? htake
          rw [hs.1.unmerged_eq, hs.1.unmerged_eq, hpairs] at hunmerged
          have hs₃ : Resolving original s₀ s₃ := by
            refine keeps_setPairs ?_ (fun pair hpair => ?_) hs hset
            · rw [hunmerged]
              exact hs.1.own number
            · exact hs.1.known (hpairs ▸ hrest pair hpair)
          obtain ⟨hs₄, hall⟩ := Leads.mapM (leads_source ih levels) sources hs₃ hfound
          refine ih levels number _ (fun pair hpair => ?_) hs₄ hagain
          rcases List.mem_append.1 hpair with hpair | hpair
          · exact htaken pair hpair
          · obtain ⟨pairs, hpairs, hpair⟩ := List.mem_flatten.1 hpair
            exact hall pairs (List.mem_reverse.1 hpairs) pair hpair

theorem resolving_of_flatten {fuel levels number : Nat} {u : PUnit}
    (h : flatten fuel levels number [] s = .ok (u, s')) : Resolving s.nodes s s' :=
  keeps_flatten s.nodes s fuel levels number [] (fun _ hpair => absurd hpair List.not_mem_nil)
    ⟨Extends.refl _, rfl⟩ h

/-! ### Collections -/

/-- A collection that stands at a place. -/
def Holds (place : Nat) (c : Collection) (s : Building) : Prop :=
  s.graph[place]? = some c

theorem keeps_part (place : Nat) (c : Collection) (number : Nat) :
    Keeps (Holds place c) (part number) := by
  intro s p s' hs h
  rcases part_cases h with ⟨-, rfl⟩ | ⟨x, -, -, rfl⟩ | ⟨c', -, -, rfl⟩
  · exact hs
  · exact hs
  · obtain ⟨hlt, -⟩ := Array.getElem?_eq_some_iff.1 hs
    change (s.graph.push c')[place]? = some c
    rw [Array.getElem?_push_lt hlt, ← hs, Array.getElem?_eq_getElem hlt]

theorem keeps_entries (place : Nat) (c : Collection) (pairs : List (Nat × Nat)) :
    Keeps (Holds place c) (entries pairs) := by
  intro s found s' hs h
  obtain ⟨found', s₁, hfold, h⟩ := of_bind h
  obtain ⟨-, rfl⟩ := of_pure h
  refine Leads.foldlM (I := fun _ _ => Holds place c) (fun _ pair _ => ?_) pairs [] [] hs hfold
  intro s k s' hs h
  obtain ⟨k, s₁, hkey, h⟩ := of_bind h
  obtain ⟨p, s₂, hpart, h⟩ := of_bind h
  obtain ⟨-, rfl⟩ := of_pure h
  exact keeps_part place c pair.2 (keeps_part place c pair.1 hs (of_key hkey).1) hpart

/-- The entries of a mapping are built from its pairs once its merge keys are resolved. -/
theorem of_mappingEntries {number : Nat} {es : List (Scalar × Part)}
    (h : mappingEntries number s = .ok (es, s')) :
    ∃ s₁, flatten (s.merges + 1) chainLimit number [] s = .ok ((), s₁) ∧
      entries (pairsAt s₁.nodes number) s₁ = .ok (es, s') := by
  obtain ⟨u, s₁, hflatten, hread⟩ := of_bind (of_get_bind h)
  obtain ⟨node, s₂, hnode, hentries⟩ := of_bind hread
  obtain ⟨hnode, rfl⟩ := of_nodeAt hnode
  cases node with
  | map tag pairs =>
      refine ⟨s₂, hflatten, ?_⟩
      rw [pairsAt_eq hnode]
      exact hentries
  | scalar tag text => exact (of_refuse hentries).elim
  | seq tag items => exact (of_refuse hentries).elim

theorem keeps_mappingEntries (place : Nat) (c : Collection) (number : Nat) :
    Keeps (Holds place c) (mappingEntries number) := by
  intro s found s' hs h
  obtain ⟨s₁, hflatten, hentries⟩ := of_mappingEntries h
  refine keeps_entries place c _ ?_ hentries
  rw [(resolving_of_flatten hflatten).2]
  exact hs

theorem of_sequenceItems {number : Nat} {items : List Nat}
    (h : sequenceItems number s = .ok (items, s')) : s' = s := by
  obtain ⟨node, s₁, hnode, hitems⟩ := of_bind h
  obtain ⟨-, rfl⟩ := of_nodeAt hnode
  cases node with
  | seq tag items => exact (of_pure hitems).2
  | scalar tag text => exact (of_refuse hitems).elim
  | map tag pairs => exact (of_refuse hitems).elim

theorem keeps_pairOf (place : Nat) (c : Collection) (number : Nat) :
    Keeps (Holds place c) (pairOf number) := by
  intro s found s' hs h
  obtain ⟨node, s₁, hnode, hpair⟩ := of_bind h
  obtain ⟨-, rfl⟩ := of_nodeAt hnode
  rcases node with ⟨tag, text⟩ | ⟨tag, items⟩ | ⟨tag, - | ⟨⟨first, second⟩, - | ⟨pair, pairs⟩⟩⟩
  case map.cons.nil =>
    obtain ⟨p, s₂, hfirst, hrest⟩ := of_bind hpair
    obtain ⟨q, s₃, hsecond, hdone⟩ := of_bind hrest
    obtain ⟨-, rfl⟩ := of_pure hdone
    exact keeps_part place c second (keeps_part place c first hs hfirst) hsecond
  all_goals exact (of_refuse hpair).elim

/-- Building a collection leaves the ones that are there as they are. -/
theorem keeps_collection (place : Nat) (c : Collection) (number : Nat) (empty : Collection) :
    Keeps (Holds place c) (collection number empty) := by
  intro s filled s' hs h
  cases empty with
  | list items =>
      obtain ⟨items, s₁, hitems, hparts⟩ := of_bind h
      obtain rfl := of_sequenceItems hitems
      obtain ⟨parts, s₂, hparts, hdone⟩ := of_bind hparts
      obtain ⟨-, rfl⟩ := of_pure hdone
      exact Keeps.mapM (keeps_part place c) items hs hparts
  | pairs items =>
      obtain ⟨items, s₁, hitems, hparts⟩ := of_bind h
      obtain rfl := of_sequenceItems hitems
      obtain ⟨parts, s₂, hparts, hdone⟩ := of_bind hparts
      obtain ⟨-, rfl⟩ := of_pure hdone
      exact Keeps.mapM (keeps_pairOf place c) items hs hparts
  | set members =>
      obtain ⟨found, s₁, hfound, hdone⟩ := of_bind h
      obtain ⟨-, rfl⟩ := of_pure hdone
      exact keeps_mappingEntries place c number hs hfound
  | map entries =>
      obtain ⟨found, s₁, hfound, hdone⟩ := of_bind h
      obtain ⟨-, rfl⟩ := of_pure hdone
      exact keeps_mappingEntries place c number hs hfound

/-- One step of filling: the collection at a place is built and put there, if there is one. -/
theorem fill_cases {fuel place : Nat} {u : PUnit} (h : fill (fuel + 1) place s = .ok (u, s')) :
    ((s.graph[place]? = none ∨ s.origins[place]? = none) ∧ s' = s) ∨
      ∃ empty number filled s₁, s.graph[place]? = some empty ∧
        s.origins[place]? = some number ∧ collection number empty s = .ok (filled, s₁) ∧
        fill fuel (place + 1) { s₁ with graph := s₁.graph.setIfInBounds place filled } =
          .ok (u, s') := by
  rw [fill] at h
  replace h := of_get_bind h
  cases hempty : s.graph[place]? with
  | none =>
      simp only [hempty] at h
      exact .inl ⟨.inl rfl, (of_pure h).2⟩
  | some empty =>
      cases hnumber : s.origins[place]? with
      | none =>
          simp only [hempty, hnumber] at h
          exact .inl ⟨.inr rfl, (of_pure h).2⟩
      | some number =>
          simp only [hempty, hnumber] at h
          obtain ⟨filled, s₁, hfilled, hput⟩ := of_bind h
          obtain ⟨v, s₂, hmodify, hrest⟩ := of_bind hput
          obtain rfl := of_modify hmodify
          exact .inr ⟨empty, number, filled, s₁, rfl, rfl, hfilled, hrest⟩

/-- Filling from a place on leaves the collections before it as they are. -/
theorem keeps_fill {place : Nat} (c : Collection) (fuel : Nat) :
    ∀ next, place < next → Keeps (Holds place c) (fill fuel next) := by
  induction fuel with
  | zero =>
      intro next hnext s u s' hs h
      obtain ⟨-, rfl⟩ := of_pure h
      exact hs
  | succ fuel ih =>
      intro next hnext s u s' hs h
      rcases fill_cases h with ⟨-, rfl⟩ | ⟨empty, number, filled, s₁, -, -, hfilled, hrest⟩
      · exact hs
      refine ih (next + 1) (by omega) ?_ hrest
      change (s₁.graph.setIfInBounds next filled)[place]? = some c
      rw [Array.getElem?_setIfInBounds, if_neg (by omega)]
      exact keeps_collection place c number empty hs hfilled

end Groundplan.Yaml.Builder
