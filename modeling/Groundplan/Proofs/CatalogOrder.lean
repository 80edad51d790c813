import Groundplan.Catalog
import Mathlib.Data.List.Induction
import Mathlib.Data.List.Lex
import Mathlib.Data.List.Nodup
import Mathlib.Data.Prod.Lex
import Mathlib.Data.String.Basic

/-!
# The order of a catalog

A catalog keeps its definitions in the order in which they came, and everything that is generated
goes through them sorted by name. Sorting is by code points; texts that hold the same code points
in two ways are told apart, so that the names of a catalog have exactly one sorted order. Two
catalogs with the same definitions in different orders are therefore the same once they are sorted.

A catalog that is made from a list has one definition for each name in the list, the last one.
-/

namespace Groundplan

namespace Text

theorem rowBefore_iff (ms ns : List Nat) : rowBefore ms ns = true ↔ ms < ns := by
  induction ms generalizing ns with
  | nil => cases ns <;> simp [rowBefore]
  | cons m ms ih =>
      cases ns with
      | nil => simp [rowBefore]
      | cons n ns => simp [rowBefore, List.cons_lt_cons_iff, ih]

/-- What texts are ordered by: their code points first, their characters next. -/
def orderKey (text : String) : List Nat ×ₗ String :=
  toLex (points text, text)

theorem orderKey_injective : Function.Injective orderKey := by
  intro a b h
  exact congrArg (fun key => (ofLex key).2) h

theorem before_iff (a b : String) : before a b = true ↔ orderKey a < orderKey b := by
  simp [before, orderKey, rowBefore_iff, Prod.Lex.toLex_lt_toLex]

theorem not_before_iff (a b : String) : (!before b a) = true ↔ orderKey a ≤ orderKey b := by
  rw [Bool.not_eq_true', ← Bool.not_eq_true, before_iff, not_lt]

end Text

namespace Catalog

variable {α β : Type}

/-! ### Sorting -/

theorem sorted_perm (c : Catalog α) : c.sorted.Perm c.entries :=
  List.mergeSort_perm _ _

theorem sortedNames_perm (c : Catalog α) : c.sortedNames.Perm c.names :=
  c.sorted_perm.map Prod.fst

theorem nodup_sortedNames (c : Catalog α) : c.sortedNames.Nodup :=
  c.sortedNames_perm.nodup_iff.2 c.distinct

theorem pairwise_sorted (c : Catalog α) :
    c.sorted.Pairwise fun a b => Text.orderKey a.1 ≤ Text.orderKey b.1 := by
  -- Not being before is a total preorder, because it is the order of the keys.
  have hsorted := @List.pairwise_mergeSort _ (fun a b : String × α => !Text.before b.1 a.1)
    (fun a b c hab hbc => by
      rw [Text.not_before_iff] at hab hbc ⊢
      exact hab.trans hbc)
    (fun a b => by
      rw [Bool.or_eq_true, Text.not_before_iff, Text.not_before_iff]
      exact le_total _ _)
    c.entries
  exact hsorted.imp fun {a b} hab => (Text.not_before_iff a.1 b.1).1 hab

/-- The names of a catalog stand in strictly ascending order once they are sorted. -/
theorem pairwise_sortedNames (c : Catalog α) :
    c.sortedNames.Pairwise fun a b => Text.before a b = true := by
  have hle : c.sortedNames.Pairwise fun a b => Text.orderKey a ≤ Text.orderKey b :=
    List.pairwise_map.2 c.pairwise_sorted
  refine (hle.and c.nodup_sortedNames).imp ?_
  rintro a b ⟨hab, hne⟩
  rw [Text.before_iff]
  exact lt_of_le_of_ne hab fun h => hne (Text.orderKey_injective h)

/-! ### Catalogs that differ in their order -/

/-- Two catalogs have the same definitions under the same names, in whatever order, apart from what
`erase` takes out of a definition. -/
def Alike (erase : α → α) (c d : Catalog α) : Prop :=
  (c.entries.map (Prod.map id erase)).Perm (d.entries.map (Prod.map id erase))

theorem names_map_erase (erase : α → α) (entries : List (String × α)) :
    (entries.map (Prod.map id erase)).map Prod.fst = entries.map Prod.fst := by
  simp [Function.comp_def]

/-- Sorting forgets the order in which the definitions came. -/
theorem Alike.sorted_eq {erase : α → α} {c d : Catalog α} (h : c.Alike erase d) :
    c.sorted.map (Prod.map id erase) = d.sorted.map (Prod.map id erase) := by
  have hperm : (c.sorted.map (Prod.map id erase)).Perm (d.sorted.map (Prod.map id erase)) :=
    ((c.sorted_perm.map _).trans h).trans (d.sorted_perm.map _).symm
  have hdistinct : ((c.sorted.map (Prod.map id erase)).map Prod.fst).Nodup := by
    rw [names_map_erase]
    exact c.nodup_sortedNames
  refine @List.Perm.eq_of_pairwise _ (fun a b => Text.orderKey a.1 ≤ Text.orderKey b.1) _ _
    ?_ ?_ ?_ hperm
  · -- Equal keys are equal names, and a name occurs once.
    intro a b ha hb hab hba
    exact List.inj_on_of_nodup_map hdistinct ha (hperm.mem_iff.2 hb)
      (Text.orderKey_injective (le_antisymm hab hba))
  · exact List.pairwise_map.2 c.pairwise_sorted
  · exact List.pairwise_map.2 d.pairwise_sorted

theorem Alike.sortedNames_eq {erase : α → α} {c d : Catalog α} (h : c.Alike erase d) :
    c.sortedNames = d.sortedNames := by
  have hsorted := congrArg (List.map Prod.fst) h.sorted_eq
  rwa [names_map_erase, names_map_erase] at hsorted

/-- Whatever is made of each definition in sorted order is the same for alike catalogs, if it does
not depend on what `erase` takes out. -/
theorem Alike.map_sorted_eq {erase : α → α} {c d : Catalog α} (h : c.Alike erase d)
    {f : String × α → β} (hf : ∀ name a, f (name, erase a) = f (name, a)) :
    c.sorted.map f = d.sorted.map f := by
  have hread (entries : List (String × α)) :
      entries.map f = (entries.map (Prod.map id erase)).map f := by
    rw [List.map_map]
    exact List.map_congr_left fun entry _ => (hf entry.1 entry.2).symm
  rw [hread c.sorted, h.sorted_eq, ← hread]

theorem Alike.flatMap_sorted_eq {erase : α → α} {c d : Catalog α} (h : c.Alike erase d)
    {f : String × α → List β} (hf : ∀ name a, f (name, erase a) = f (name, a)) :
    c.sorted.flatMap f = d.sorted.flatMap f := by
  rw [List.flatMap_def, List.flatMap_def, h.map_sorted_eq hf]

theorem Alike.filterMap_sorted_eq {erase : α → α} {c d : Catalog α} (h : c.Alike erase d)
    {f : String × α → Option β} (hf : ∀ name a, f (name, erase a) = f (name, a)) :
    c.sorted.filterMap f = d.sorted.filterMap f := by
  have hmap := congrArg (List.filterMap id) (h.map_sorted_eq hf)
  rwa [List.filterMap_map, List.filterMap_map] at hmap

theorem Alike.findSome?_sorted_eq {erase : α → α} {c d : Catalog α} (h : c.Alike erase d)
    {f : String × α → Option β} (hf : ∀ name a, f (name, erase a) = f (name, a)) :
    c.sorted.findSome? f = d.sorted.findSome? f := by
  rw [← List.head?_filterMap, ← List.head?_filterMap, h.filterMap_sorted_eq hf]

/-! ### Look-up -/

theorem lookup_eq_some_iff_mem {entries : List (String × α)}
    (hdistinct : (entries.map Prod.fst).Nodup) (name : String) (a : α) :
    entries.lookup name = some a ↔ (name, a) ∈ entries := by
  induction entries with
  | nil => simp
  | cons entry entries ih =>
      obtain ⟨name', a'⟩ := entry
      simp only [List.map_cons, List.nodup_cons] at hdistinct
      by_cases hname : name = name'
      · subst hname
        have hfresh : (name, a) ∉ entries := fun hmem =>
          hdistinct.1 (List.mem_map_of_mem (f := Prod.fst) hmem)
        simp [hfresh, eq_comm]
      · have hne : (name == name') = false := by simpa using hname
        simp [List.lookup_cons, hne, hname, ih hdistinct.2]

theorem lookup_eq_none_iff_not_mem (entries : List (String × α)) (name : String) :
    entries.lookup name = none ↔ name ∉ entries.map Prod.fst := by
  simp only [List.lookup_eq_none_iff, bne_iff_ne, List.mem_map, not_exists, not_and]
  exact forall₂_congr fun entry _ => ne_comm

/-- Looking a name up does not depend on the order either. -/
theorem lookup_eq_of_perm {entries entries' : List (String × α)}
    (hdistinct : (entries.map Prod.fst).Nodup) (hperm : entries.Perm entries') (name : String) :
    entries.lookup name = entries'.lookup name := by
  have hdistinct' : (entries'.map Prod.fst).Nodup := (hperm.map Prod.fst).nodup_iff.1 hdistinct
  apply Option.ext
  intro a
  rw [lookup_eq_some_iff_mem hdistinct, lookup_eq_some_iff_mem hdistinct', hperm.mem_iff]

/-! ### Catalogs of lists -/

/-- The definition that a list has for a name: the last one under it. -/
def Counts (entries : List (String × α)) (name : String) (a : α) : Prop :=
  ∃ before after, entries = before ++ (name, a) :: after ∧ name ∉ after.map Prod.fst

theorem mem_putEntry {entries : List (String × α)} (hdistinct : (entries.map Prod.fst).Nodup)
    (name : String) (a : α) (entry : String × α) :
    entry ∈ putEntry entries name a ↔ entry = (name, a) ∨ entry.1 ≠ name ∧ entry ∈ entries := by
  induction entries with
  | nil => simp [putEntry]
  | cons first entries ih =>
      obtain ⟨name', a'⟩ := first
      rw [List.map_cons, List.nodup_cons] at hdistinct
      by_cases hname : name' = name
      · subst hname
        -- The name does not come again, so what follows is untouched.
        have hrest (hmem : entry ∈ entries) : entry.1 ≠ name' := by
          intro heq
          have hkey : entry.1 ∈ entries.map Prod.fst := List.mem_map_of_mem hmem
          exact hdistinct.1 (heq ▸ hkey)
        simp only [putEntry, if_true, List.mem_cons]
        constructor
        · rintro (rfl | hmem)
          · exact .inl rfl
          · exact .inr ⟨hrest hmem, .inr hmem⟩
        · rintro (rfl | ⟨hne, rfl | hmem⟩)
          · exact .inl rfl
          · exact absurd rfl hne
          · exact .inr hmem
      · simp only [putEntry, if_neg hname, List.mem_cons, ih hdistinct.2]
        constructor
        · rintro (rfl | rfl | ⟨hne, hmem⟩)
          · exact .inr ⟨hname, .inl rfl⟩
          · exact .inl rfl
          · exact .inr ⟨hne, .inr hmem⟩
        · rintro (rfl | ⟨hne, rfl | hmem⟩)
          · exact .inr (.inl rfl)
          · exact .inl rfl
          · exact .inr (.inr ⟨hne, hmem⟩)

theorem ofList_concat (entries : List (String × α)) (entry : String × α) :
    ofList (entries ++ [entry]) = (ofList entries).put entry.1 entry.2 := by
  simp [ofList]

theorem mem_names_ofList (entries : List (String × α)) (name : String) :
    name ∈ (ofList entries).names ↔ name ∈ entries.map Prod.fst := by
  induction entries using List.reverseRecOn with
  | nil => rfl
  | append_singleton entries entry ih =>
      rw [ofList_concat, names, put, mem_names_putEntry, List.map_append, List.mem_append, ← ih]
      simp [or_comm, names]

/-- The catalog of a list has the definitions that count in the list. -/
theorem mem_entries_ofList (entries : List (String × α)) (name : String) (a : α) :
    (name, a) ∈ (ofList entries).entries ↔ Counts entries name a := by
  -- A definition is put behind those that came before it, so the list is taken from its end.
  induction entries using List.reverseRecOn with
  | nil => simp [ofList, empty, Counts]
  | append_singleton entries entry ih =>
      obtain ⟨name', a'⟩ := entry
      rw [ofList_concat, put, mem_putEntry (ofList entries).distinct, ih]
      constructor
      · rintro (heq | ⟨hne, before, after, rfl, hafter⟩)
        · cases heq
          exact ⟨entries, [], rfl, by simp⟩
        · refine ⟨before, after ++ [(name', a')], by simp, ?_⟩
          simp only [List.map_append, List.mem_append, not_or]
          exact ⟨hafter, by simpa using hne⟩
      · rintro ⟨before, after, hsplit, hafter⟩
        rcases List.eq_nil_or_concat' after with rfl | ⟨after, last, rfl⟩
        · obtain ⟨-, hlast⟩ := List.append_inj' hsplit rfl
          cases hlast
          exact .inl rfl
        · right
          rw [← List.cons_append, ← List.append_assoc] at hsplit
          obtain ⟨rfl, hlast⟩ := List.append_inj' hsplit rfl
          cases hlast
          simp only [List.map_append, List.mem_append, not_or] at hafter
          exact ⟨by simpa using hafter.2, before, after, rfl, hafter.1⟩

end Catalog

end Groundplan
