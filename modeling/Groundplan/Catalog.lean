import Groundplan.Text.Points

/-!
# Catalogs

A catalog holds definitions under distinct names, in the order in which the names first came.
What is generated never depends on that order: it goes through the definitions sorted by name.
-/

namespace Groundplan

/-- Definitions under distinct names, in the order of their first coming. -/
structure Catalog (α : Type) where
  entries : List (String × α)
  distinct : (entries.map Prod.fst).Nodup

namespace Catalog

variable {α : Type}

/-- Replaces the definition under a name where it stands, or adds it at the end. -/
def putEntry : List (String × α) → String → α → List (String × α)
  | [], name, a => [(name, a)]
  | (name', a') :: entries, name, a =>
    if name' = name then (name, a) :: entries else (name', a') :: putEntry entries name a

theorem mem_names_putEntry (entries : List (String × α)) (name other : String) (a : α) :
    other ∈ (putEntry entries name a).map Prod.fst ↔
      other = name ∨ other ∈ entries.map Prod.fst := by
  induction entries with
  | nil => simp [putEntry]
  | cons entry entries ih =>
    obtain ⟨name', a'⟩ := entry
    by_cases h : name' = name
    · subst h
      simp [putEntry]
    · simp only [putEntry, if_neg h, List.map_cons, List.mem_cons, ih]
      constructor
      · rintro (h' | h' | h') <;> simp [h']
      · rintro (h' | h' | h') <;> simp [h']

theorem distinct_putEntry {entries : List (String × α)} (name : String) (a : α)
    (h : (entries.map Prod.fst).Nodup) : ((putEntry entries name a).map Prod.fst).Nodup := by
  induction entries with
  | nil => simp [putEntry]
  | cons entry entries ih =>
    obtain ⟨name', a'⟩ := entry
    simp only [List.map_cons, List.nodup_cons] at h
    by_cases hn : name' = name
    · subst hn
      simp only [putEntry, if_true, List.map_cons, List.nodup_cons]
      exact h
    · simp only [putEntry, if_neg hn, List.map_cons, List.nodup_cons]
      refine ⟨?_, ih h.2⟩
      rw [mem_names_putEntry]
      rintro (h' | h')
      · exact hn h'
      · exact h.1 h'

def empty : Catalog α := ⟨[], by simp⟩

def put (c : Catalog α) (name : String) (a : α) : Catalog α :=
  ⟨putEntry c.entries name a, distinct_putEntry name a c.distinct⟩

/-- The catalog of a list of definitions; the last of several under one name is kept. -/
def ofList (entries : List (String × α)) : Catalog α :=
  entries.foldl (fun c entry => c.put entry.1 entry.2) empty

def names (c : Catalog α) : List String :=
  c.entries.map Prod.fst

def get? (c : Catalog α) (name : String) : Option α :=
  c.entries.lookup name

def has (c : Catalog α) (name : String) : Bool :=
  c.names.contains name

def size (c : Catalog α) : Nat :=
  c.entries.length

/-- The definitions sorted by name, code point by code point. -/
def sorted (c : Catalog α) : List (String × α) :=
  c.entries.mergeSort fun a b => !Text.before b.1 a.1

def sortedNames (c : Catalog α) : List String :=
  c.sorted.map Prod.fst

end Catalog

end Groundplan
