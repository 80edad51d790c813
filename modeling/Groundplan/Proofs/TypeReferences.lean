import Groundplan.Proofs.ClassNames
import Groundplan.Proofs.SourceReading
import Groundplan.Proofs.Stripping

/-!
# References to the types of a model

A type expression that is the key of a value object or an aggregate refers to the class of that
definition, unless it is read as something else first: the primitives come before the definitions,
and a name that starts with a request mark stands for the type behind the mark. Both are read so
whether or not there is a definition of the whole name, and then the reference misses it always. A
name that is only similar to a mark, such as `Creator`, is no exception, but one that continues it,
such as `Updated`, is.

Of the primitives only `Decimal` has its own name for a target, and the checklist reserves it.
-/

namespace Groundplan

/-! ### Reading names -/

namespace TypeExpr

theorem dropOpening?_eq_some_iff {opening cs rest : List Char} :
    dropOpening? opening cs = some rest ↔ cs = opening ++ rest := by
  constructor
  · intro h
    induction opening generalizing cs with
    | nil => simpa [dropOpening?] using h
    | cons o opening ih =>
        cases cs with
        | nil => simp [dropOpening?] at h
        | cons c cs =>
            rw [dropOpening?] at h
            split at h
            next hsame => rw [hsame, ih h, List.cons_append]
            next => cases h
  · rintro rfl
    exact Source.dropOpening?_append opening rest

/-- An identifier consists of letters, digits and underscores, and of at least one of them. -/
theorem of_isPlainName {cs : List Char} (h : isPlainName cs = true) :
    cs ≠ [] ∧ ∀ c ∈ cs, c.isAlphanum = true ∨ c = '_' := by
  cases cs with
  | nil => cases h
  | cons c cs =>
      rw [isPlainName, Bool.and_eq_true] at h
      refine ⟨by simp, List.forall_mem_cons.2 ⟨?_, fun d hd => ?_⟩⟩
      · rw [Bool.or_eq_true, decide_eq_true_eq] at h
        exact h.1.imp Name.isAlphanum_of_isAlpha id
      · simpa using List.all_eq_true.1 h.2 d hd

theorem not_isBlank_of_isPlainName {cs : List Char} (h : isPlainName cs = true) :
    ∀ c ∈ cs, Text.isBlank c = false := by
  intro c hc
  have hbound : c.toNat < 128 := by
    rcases (of_isPlainName h).2 c hc with halphanum | rfl
    · exact Name.toNat_lt_of_isAlphanum halphanum
    · decide
  exact Name.of_ascii (fun c => c.isAlphanum = true ∨ c = '_' → Text.isBlank c = false)
    (by decide) hbound ((of_isPlainName h).2 c hc)

theorem inside?_of_not_mem {cs : List Char} (h : '<' ∉ cs) (wrapper : Wrapper) :
    inside? wrapper cs = none := by
  have hopening : '<' ∈ wrapper.opening.toList := by cases wrapper <;> decide
  unfold inside?
  cases hdrop : dropOpening? wrapper.opening.toList cs with
  | none => rfl
  | some rest =>
      rw [dropOpening?_eq_some_iff] at hdrop
      exact absurd (hdrop ▸ List.mem_append_left rest hopening) h

theorem unwrap?_of_not_mem {cs : List Char} (h : '<' ∉ cs) : unwrap? cs = none := by
  rw [unwrap?, List.findSome?_eq_none_iff]
  intro wrapper _
  split
  next inner hinside =>
    rw [inside?_of_not_mem h] at hinside
    cases hinside
  next => rfl

/-- A text without an angle bracket is a leaf. -/
theorem parse_of_not_mem {text : String} (h : '<' ∉ text.toList) :
    parse text = .leaf (Text.strip text) := by
  have hstripped : '<' ∉ Text.stripChars text.toList := fun hmem =>
    h (Text.stripChars_subset text.toList hmem)
  rw [parse, ofChars]
  simp only [unwrap?_of_not_mem hstripped]
  rfl

/-- An identifier is read as it stands. -/
theorem parse_of_isPlainName {name : String} (h : isPlainName name.toList = true) :
    parse name = .leaf name := by
  have hopening : '<' ∉ name.toList := by
    intro hmem
    rcases (of_isPlainName h).2 '<' hmem with halphanum | hunderscore
    · exact absurd halphanum (by decide)
    · exact absurd hunderscore (by decide)
  rw [parse_of_not_mem hopening, Text.strip,
    Text.stripChars_of_free (not_isBlank_of_isPlainName h), String.ofList_toList]

/-! ### Request marks -/

theorem dropRequestMark?_eq_some {name rest : List Char} (h : dropRequestMark? name = some rest) :
    rest ≠ [] ∧ ∃ mark ∈ requestMarks, name = mark.toList ++ rest := by
  obtain ⟨mark, hmark, hdrop⟩ := List.exists_of_findSome?_eq_some h
  split at hdrop
  next c cs hsome =>
    cases hdrop
    exact ⟨by simp, mark, hmark, dropOpening?_eq_some_iff.1 hsome⟩
  next => cases hdrop

/-- A name is a request if it is more than a request mark that it starts with. -/
def IsRequest (name : String) : Prop :=
  ∃ mark ∈ requestMarks, ∃ rest, rest ≠ "" ∧ name = mark ++ rest

theorem dropRequestMark?_eq_none_iff (name : String) :
    dropRequestMark? name.toList = none ↔ ¬ IsRequest name := by
  constructor
  · rintro hnone ⟨mark, hmark, rest, hne, rfl⟩
    have hdrop := List.findSome?_eq_none_iff.1 hnone mark hmark
    rw [String.toList_append, Source.dropOpening?_append] at hdrop
    split at hdrop
    next => cases hdrop
    next hempty =>
      cases hrest : rest.toList with
      | nil => exact hne (String.toList_inj.1 hrest)
      | cons c cs => exact hempty c cs (by rw [hrest])
  · intro hnot
    cases hdrop : dropRequestMark? name.toList with
    | none => rfl
    | some rest =>
        obtain ⟨hne, mark, hmark, heq⟩ := dropRequestMark?_eq_some hdrop
        refine absurd ⟨mark, hmark, String.ofList rest, ?_, ?_⟩ hnot
        · intro hempty
          rw [← String.toList_inj, String.toList_ofList] at hempty
          exact hne hempty
        · rw [← String.toList_inj, String.toList_append, String.toList_ofList, heq]

instance : DecidablePred IsRequest := fun name =>
  decidable_of_iff (¬ dropRequestMark? name.toList = none) (by
    rw [dropRequestMark?_eq_none_iff, not_not])

/-- A part of an identifier is one, unless it is empty or starts with a digit. -/
theorem isPlainName_cons {c : Char} {cs : List Char} (hc : c.isAlpha = true ∨ c = '_')
    (hcs : ∀ d ∈ cs, d.isAlphanum = true ∨ d = '_') : isPlainName (c :: cs) = true := by
  have htail : (cs.all fun d => d.isAlphanum || d = '_') = true :=
    List.all_eq_true.2 fun d hd => by simpa using hcs d hd
  rw [isPlainName, htail, Bool.and_true, Bool.or_eq_true, decide_eq_true_eq]
  exact hc

/-- What is behind a mark is never spelled as the whole name: with the mark the spelling has more
letters, and it starts with one even where the rest starts with a digit. -/
theorem typeName_ne_pascal {name rest : List Char} (hname : isPlainName name = true)
    (h : dropRequestMark? name = some rest) :
    typeName rest ≠ Name.pascal (String.ofList name) := by
  obtain ⟨hne, mark, hmark, rfl⟩ := dropRequestMark?_eq_some h
  have hmarks : ∀ mark ∈ requestMarks, mark.toList.filter Char.isAlphanum = mark.toList ∧
      mark.toList.head?.any Char.isAlpha = true := by
    decide
  obtain ⟨hletters, hhead⟩ := hmarks mark hmark
  obtain ⟨d, ds, hd⟩ : ∃ d ds, mark.toList = d :: ds := by
    refine List.exists_cons_of_ne_nil fun hempty => ?_
    simp [hempty] at hhead
  have hlower := Name.lower_pascal (String.ofList (mark.toList ++ rest))
  rw [Name.letters, String.toList_ofList, List.filter_append, hletters, hd] at hlower
  rw [hd] at hhead hname
  intro heq
  rw [hd] at heq
  rw [← heq, typeName] at hlower
  by_cases hplain : isPlainName rest = true
  · -- Both are spelled, and the spelling of the whole name has the letters of the mark as well.
    rw [if_pos hplain, Name.lower_pascal, Name.letters, String.toList_ofList] at hlower
    have hlength := congrArg List.length hlower
    simp only [List.length_map, List.length_append, List.length_cons] at hlength
    omega
  · -- The rest would start with a digit, and the spelling of the whole name starts with a letter.
    obtain ⟨c, cs, rfl⟩ := List.exists_cons_of_ne_nil hne
    have hchars : ∀ e ∈ c :: cs, e.isAlphanum = true ∨ e = '_' := fun e he =>
      (of_isPlainName hname).2 e (List.mem_append_right _ he)
    obtain ⟨hc, hcs⟩ := List.forall_mem_cons.1 hchars
    refine hplain (isPlainName_cons ?_ hcs)
    rw [if_neg hplain, String.toList_ofList] at hlower
    rcases hc with halphanum | hunderscore
    · left
      have hdalpha : d.isAlpha = true := by simpa using hhead
      have hsame : c.toLower = d.toLower := (List.cons.inj hlower).1
      rw [Name.isAlpha_of_toLower_eq halphanum (Name.isAlphanum_of_isAlpha hdalpha) hsame, hdalpha]
    · exact .inr hunderscore

/-- A name refers to the class of its own spelling unless it is a request. -/
theorem namedTarget_eq_pascal_iff {name : String} (h : isPlainName name.toList = true) :
    namedTarget name = Name.pascal name ↔ ¬ IsRequest name := by
  rw [← dropRequestMark?_eq_none_iff, namedTarget]
  cases hdrop : dropRequestMark? name.toList with
  | none =>
      rw [Option.getD_none, typeName, if_pos h, String.ofList_toList]
      simp
  | some rest =>
      have hne := typeName_ne_pascal h hdrop
      rw [String.ofList_toList] at hne
      simp [hne]

/-! ### Primitives -/

/-- Only one primitive has the spelling of its name for a target, and that is reserved. -/
theorem target_primitive_ne {name target : String} (h : primitives.lookup name = some target)
    (hfree : Name.pascal name ∉ reservedTypeNames) : target ≠ Name.pascal name := by
  have hall : ∀ entry ∈ primitives, Name.pascal entry.1 ∉ reservedTypeNames →
      entry.2 ≠ Name.pascal entry.1 := by
    decide +kernel
  have hmem : (name, target) ∈ primitives :=
    (Catalog.lookup_eq_some_iff_mem (by decide) name target).1 h
  exact hall (name, target) hmem hfree

end TypeExpr

namespace Model

/-- The key of a value object or an aggregate that is an identifier and no alias refers to the class
of its definition exactly when it is neither a primitive nor a request. -/
theorem reference_eq_class_iff {m : Model} (haccepted : m.violation? = none) {key : String}
    (hkey : key ∈ m.valueObjects.names ++ m.aggregates.names)
    (hplain : TypeExpr.isPlainName key.toList = true) (halias : key ∉ m.aliases.names) :
    Name.pascal key ∈ (Entities.types m).map Entities.EntityType.name ∧
      ((Scope.ofModel m).target key = Name.pascal key ↔
        key ∉ TypeExpr.primitives.map Prod.fst ∧ ¬ TypeExpr.IsRequest key) := by
  have hclass : Name.pascal key ∈ (m.valueObjects.names ++ m.aggregates.names).map Name.pascal :=
    List.mem_map_of_mem hkey
  have hfree : Name.pascal key ∉ reservedTypeNames := by
    refine ((m.violation?_eq_none_iff.1 haccepted) .typeNames).2 ?_
    rw [typeNames, List.append_assoc, List.map_append]
    exact List.mem_append_left _ hclass
  have halias' : (Scope.ofModel m).aliases.entries.lookup key = none :=
    (Catalog.lookup_eq_none_iff_not_mem _ key).2 halias
  refine ⟨mem_entityClasses.2 hclass, ?_⟩
  -- The key is a leaf and no alias: what remains is the table of primitives and the request marks.
  rw [Scope.target, TypeExpr.parse_of_isPlainName hplain, TypeExpr.target, TypeExpr.targetWith,
    ← Catalog.lookup_eq_none_iff_not_mem]
  cases hprimitive : TypeExpr.primitives.lookup key with
  | some target =>
      have hne := TypeExpr.target_primitive_ne hprimitive hfree
      simp [hne]
  | none =>
      simp only [Option.getD_none, halias', true_and]
      exact TypeExpr.namedTarget_eq_pascal_iff hplain

/-- A model with value objects under three keys. -/
def keyed (first second third : String) (h : [first, second, third].Nodup) : Model where
  version := "1.0"
  context := ⟨"Depot", "acme.depot", none⟩
  aggregates := .empty
  valueObjects := ⟨[first, second, third].map fun key => (key, ⟨key, none, .record []⟩), h⟩
  events := .empty
  commands := .empty
  queries := .empty
  subscriptions := []
  aliases := .empty

/-- Names that resemble requests and primitives, but are none. -/
def resembling : Model := keyed "Creator" "update_log" "Dates" (by decide)

theorem violation?_resembling : resembling.violation? = none := by
  rw [violation?_eq_none_iff]
  intro rule
  cases rule <;> decide +kernel

/-- What only resembles a request refers to its class. -/
theorem update_log_refers_to_class :
    resembling.violation? = none ∧
      "update_log" ∈ resembling.valueObjects.names ++ resembling.aggregates.names ∧
      TypeExpr.isPlainName "update_log".toList = true ∧ "update_log" ∉ resembling.aliases.names ∧
      (Scope.ofModel resembling).target "update_log" = Name.pascal "update_log" := by
  have hkey : "update_log" ∈ resembling.valueObjects.names ++ resembling.aggregates.names := by
    decide
  have hplain : TypeExpr.isPlainName "update_log".toList = true := by decide
  have halias : "update_log" ∉ resembling.aliases.names := by decide
  exact ⟨violation?_resembling, hkey, hplain, halias,
    (reference_eq_class_iff violation?_resembling hkey hplain halias).2.2
      ⟨by decide, by decide⟩⟩

/-- Definitions that references do not reach. -/
def unreached : Model := keyed "CreateOrder" "Updated" "Date" (by decide)

/-- References to definitions under the name of a request or a primitive miss their classes,
although the checklist accepts the model. -/
theorem unreached_accepted_without_references :
    unreached.violation? = none ∧
      ∀ key ∈ ["CreateOrder", "Updated", "Date"],
        key ∈ unreached.valueObjects.names ∧ TypeExpr.isPlainName key.toList = true ∧
          key ∉ unreached.aliases.names ∧
          (Scope.ofModel unreached).target key ≠ Name.pascal key := by
  constructor
  · rw [violation?_eq_none_iff]
    intro rule
    cases rule <;> decide +kernel
  · have hkeys : ∀ key ∈ ["CreateOrder", "Updated", "Date"],
        key ∈ unreached.valueObjects.names ∧ TypeExpr.isPlainName key.toList = true ∧
          key ∉ unreached.aliases.names := by
      decide +kernel
    have htargets : ∀ key ∈ ["CreateOrder", "Updated", "Date"],
        (TypeExpr.leaf key).target unreached.aliases.entries ≠ Name.pascal key := by
      decide +kernel
    intro key hkey
    obtain ⟨hmem, hplain, halias⟩ := hkeys key hkey
    refine ⟨hmem, hplain, halias, ?_⟩
    rw [Scope.target, TypeExpr.parse_of_isPlainName hplain]
    exact htargets key hkey

end Model

end Groundplan
