import Groundplan.Model.Checklist
import Groundplan.Proofs.CatalogOrder
import Groundplan.Proofs.Stripping

/-!
# What the checklist accepts

Each rule of the checklist is stated here as a condition on the model itself: on the characters of
its version and context, and on the spellings of its names in whatever order they stand. Nothing in
these conditions mentions sorting, places or the table of spellings seen so far. A model has no
violation exactly when it meets all five, and a violation is always of the first one it fails.

The search for clashes carries the spellings it has passed. It finds none exactly when the
spellings still to come are distinct among themselves, unreserved and not among those passed; this
is the invariant that lets one search run through several sections.
-/

namespace Groundplan

/-! ### The conditions -/

namespace Model

/-- The names of the types that the definitions of a model become. -/
def typeNames (m : Model) : List String :=
  (m.valueObjects.names ++ m.aggregates.names ++ m.events.names ++ m.commands.names).map Name.pascal

/-- The names of the functions that serve the commands and queries of a model. -/
def handlerNames (m : Model) : List String :=
  (m.commands.names ++ m.queries.names).map Name.field

/-- What a rule asks of a model. -/
def Meets (m : Model) : Rule → Prop
  | .versionFormat => '.' ∈ m.version.toList
  | .contextName => ∃ c ∈ m.context.name.toList, Text.isBlank c = false
  | .contextNamespace => ∃ c ∈ m.context.namespaceName.toList, Text.isBlank c = false
  | .typeNames => m.typeNames.Nodup ∧ m.typeNames.Disjoint reservedTypeNames
  | .routeHandlers => m.handlerNames.Nodup ∧ m.handlerNames.Disjoint reservedHandlerNames

instance (m : Model) : DecidablePred m.Meets
  | .versionFormat => inferInstanceAs (Decidable (_ ∈ _))
  | .contextName => List.decidableBEx _ m.context.name.toList
  | .contextNamespace => List.decidableBEx _ m.context.namespaceName.toList
  | .typeNames => inferInstanceAs (Decidable (_ ∧ ∀ name ∈ _, name ∈ _ → False))
  | .routeHandlers => inferInstanceAs (Decidable (_ ∧ ∀ name ∈ _, name ∈ _ → False))

end Model

/-! ### Clashes -/

namespace Clash

/-- The search finds nothing exactly when every spelling that is still to come is unreserved, not
yet seen and different from the others. -/
theorem find?_eq_none_iff (reserved : List String) (seen definitions : List (String × String)) :
    find? reserved seen definitions = none ↔
      (definitions.map Prod.snd).Nodup ∧ (definitions.map Prod.snd).Disjoint reserved ∧
        (definitions.map Prod.snd).Disjoint (seen.map Prod.fst) := by
  -- What has been seen grows along the way, so this is shown for every table of it.
  induction definitions generalizing seen with
  | nil => simp [find?]
  | cons definition definitions ih =>
      obtain ⟨place, spelling⟩ := definition
      simp only [List.map_cons, List.nodup_cons, List.disjoint_cons_left]
      by_cases hreserved : spelling ∈ reserved
      · simp [find?, hreserved]
      · cases hseen : seen.lookup spelling with
        | some earlier =>
            have hmem : spelling ∈ seen.map Prod.fst := by
              obtain ⟨before, after, rfl, -⟩ := List.lookup_eq_some_iff.1 hseen
              simp
            simp [find?, hreserved, hseen, hmem]
        | none =>
            have hfresh : spelling ∉ seen.map Prod.fst := by
              rw [List.lookup_eq_none_iff] at hseen
              rintro hmem
              obtain ⟨entry, hentry, rfl⟩ := List.mem_map.1 hmem
              simpa using hseen entry hentry
            -- The spelling joins the table, and the rest must now avoid it too.
            simp only [find?, List.contains_iff_mem, hreserved, if_false, hseen, ih,
              List.map_cons, List.disjoint_cons_right, hfresh, not_false_eq_true, true_and]
            tauto

end Clash

/-! ### Rules -/

namespace Model

theorem map_snd_spellings (m : Model) (spell : String → String) (sections : List Section) :
    (m.spellings spell sections).map Prod.snd = (sections.flatMap m.sectionNames).map spell := by
  simp [spellings, List.map_flatMap, Function.comp_def]

theorem typeSpellings_perm (m : Model) :
    (m.typeSpellings.map Prod.snd).Perm m.typeNames := by
  rw [typeSpellings, map_snd_spellings, typeNames]
  refine List.Perm.map _ ?_
  simp only [List.flatMap_cons, List.flatMap_nil, List.append_nil, ← List.append_assoc]
  exact ((m.valueObjects.sortedNames_perm.append m.aggregates.sortedNames_perm).append
    m.events.sortedNames_perm).append m.commands.sortedNames_perm

theorem handlerSpellings_perm (m : Model) :
    (m.handlerSpellings.map Prod.snd).Perm m.handlerNames := by
  rw [handlerSpellings, map_snd_spellings, handlerNames]
  refine List.Perm.map _ ?_
  simp only [List.flatMap_cons, List.flatMap_nil, List.append_nil]
  exact m.commands.sortedNames_perm.append m.queries.sortedNames_perm

/-- Nothing clashes exactly when the spellings are distinct and unreserved, in any order. -/
theorem find?_eq_none_iff_of_perm (reserved : List String) {definitions : List (String × String)}
    {spellings : List String} (hperm : (definitions.map Prod.snd).Perm spellings) :
    Clash.find? reserved [] definitions = none ↔
      spellings.Nodup ∧ spellings.Disjoint reserved := by
  rw [Clash.find?_eq_none_iff, hperm.nodup_iff]
  simp only [List.Disjoint, hperm.mem_iff]
  simp

/-- A rule is not violated exactly when its condition is met. -/
theorem violationOf?_eq_none_iff (m : Model) (rule : Rule) :
    m.violationOf? rule = none ↔ m.Meets rule := by
  cases rule with
  | versionFormat => simp [violationOf?, Meets]
  | contextName =>
      rw [Meets, ← Text.isEmpty_strip_eq_false_iff]
      simp [violationOf?]
  | contextNamespace =>
      rw [Meets, ← Text.isEmpty_strip_eq_false_iff]
      simp [violationOf?]
  | typeNames =>
      rw [violationOf?, Option.map_eq_none_iff, find?_eq_none_iff_of_perm _ m.typeSpellings_perm]
      rfl
  | routeHandlers =>
      rw [violationOf?, Option.map_eq_none_iff,
        find?_eq_none_iff_of_perm _ m.handlerSpellings_perm]
      rfl

theorem rule_of_violationOf? {m : Model} {rule : Rule} {v : Violation}
    (h : m.violationOf? rule = some v) : v.rule = rule := by
  cases rule with
  | versionFormat =>
      simp only [violationOf?, Option.ite_none_left_eq_some, Option.some.injEq] at h
      obtain ⟨-, rfl⟩ := h
      rfl
  | contextName =>
      simp only [violationOf?, Option.ite_none_right_eq_some, Option.some.injEq] at h
      obtain ⟨-, rfl⟩ := h
      rfl
  | contextNamespace =>
      simp only [violationOf?, Option.ite_none_right_eq_some, Option.some.injEq] at h
      obtain ⟨-, rfl⟩ := h
      rfl
  | typeNames =>
      obtain ⟨clash, -, rfl⟩ := Option.map_eq_some_iff.1 h
      rfl
  | routeHandlers =>
      obtain ⟨clash, -, rfl⟩ := Option.map_eq_some_iff.1 h
      rfl

/-- Going through rules in order stops at the first one that is not met. -/
theorem findSome?_violationOf? (m : Model) (rules : List Rule) :
    (rules.findSome? m.violationOf?).map Violation.rule =
      rules.find? fun rule => !decide (m.Meets rule) := by
  induction rules with
  | nil => rfl
  | cons rule rules ih =>
      cases hviolation : m.violationOf? rule with
      | none =>
          have hmeets : m.Meets rule := (m.violationOf?_eq_none_iff rule).1 hviolation
          simp [hviolation, hmeets, ih]
      | some v =>
          have hfails : ¬ m.Meets rule := by
            rw [← violationOf?_eq_none_iff, hviolation]
            simp
          simp [hviolation, hfails, rule_of_violationOf? hviolation]

theorem rule_of_violation? (m : Model) :
    m.violation?.map Violation.rule = Rule.all.find? fun rule => !decide (m.Meets rule) :=
  m.findSome?_violationOf? Rule.all

theorem violation?_eq_none_iff (m : Model) : m.violation? = none ↔ ∀ rule, m.Meets rule := by
  have hall (rule : Rule) : rule ∈ Rule.all := by cases rule <;> decide
  rw [violation?, List.findSome?_eq_none_iff]
  constructor
  · intro h rule
    exact (m.violationOf?_eq_none_iff rule).1 (h rule (hall rule))
  · intro h rule _
    exact (m.violationOf?_eq_none_iff rule).2 (h rule)

/-- A model passes the checklist exactly when it meets the condition of every rule; and where it
does not pass, the violation is of the first rule, in the order of checking, that is not met. -/
theorem verdict_eq_first_unmet_rule (m : Model) :
    (m.violation? = none ↔ ∀ rule, m.Meets rule) ∧
      m.violation?.map Violation.rule = Rule.all.find? fun rule => !decide (m.Meets rule) :=
  ⟨m.violation?_eq_none_iff, m.rule_of_violation?⟩

end Model

end Groundplan
