import Groundplan.Proofs.ServiceParts

/-!
# Model text stays where it is rendered

Text of a model could leave the place it is rendered in by breaking a line of a field, by closing a
docstring before its end or by opening a string of its own. Names are spelled, descriptions,
expressions and messages are put on escaped lines. So the strings of several lines that a generated
module has are the docstrings of the generator, from its first line to its last one, as long as the
types it shows are contained.

Types are the exception. Their text is neither spelled nor escaped unless it is an identifier. A
field is broken exactly if that text is, and the docstring of a query route is closed too early
exactly if that text closes it. The checklist does not look at types, so this holds of accepted
models as well.
-/

namespace Groundplan

open Source

/-! ### Types in docstrings -/

/-- The frame of a text does not matter for whether it ends a docstring. -/
theorem unquoted_iff_core (text : String) :
    Unquoted text ↔ (Reading.plain.readOn (TypeExpr.core text)).isSome = true := by
  obtain ⟨before, after, htext, hbefore, hafter⟩ := TypeExpr.exists_frame text
  have hframe : ∀ n < 128, TypeExpr.isFrame (Char.ofNat n) = true →
      isMark (Char.ofNat n) = false := by
    decide
  have hstart := readOn_plain_of_free (TypeExpr.any_eq_false_of_frame hframe hbefore)
  have hend := isSome_readOn_of_free (TypeExpr.any_eq_false_of_frame hframe hafter)
  rw [Unquoted, Reading.behindQuotes?_eq_none_iff, htext, Reading.readOn_append,
    Reading.readOn_append, hstart, Option.bind_some]
  cases Reading.plain.readOn (TypeExpr.core text) with
  | none => simp
  | some r => simp [hend r]

theorem unquoted_iff_of_core_eq {text text' : String}
    (h : TypeExpr.core text = TypeExpr.core text') : Unquoted text ↔ Unquoted text' := by
  rw [unquoted_iff_core, unquoted_iff_core, h]

namespace Routes

theorem inert_summary_queryRoute (s : Scope) (name : String) (q : Query) :
    Inert (queryRoute s name q).summary := by
  unfold queryRoute
  dsimp only
  exact inert_performed (by decide) (by decide) _ name

/-- The docstring of a query is inert exactly if the type it answers with is unquoted. -/
theorem inert_queryRoute_iff (s : Scope) (name : String) (q : Query) :
    Inert (queryRoute s name q).docstring.content ↔
      ∀ returns ∈ q.returns, Unquoted (s.meaning returns.typeText) := by
  have hsummary := inert_summary_queryRoute s name q
  have hdocstring : (queryRoute s name q).docstring =
      ⟨1, (queryRoute s name q).summary, returnsLines s q.returns⟩ := by
    unfold QueryRoute.docstring queryRoute
    rfl
  rw [hdocstring]
  generalize (queryRoute s name q).summary = summary at hsummary ⊢
  cases q.returns with
  | none =>
      -- There is only the summary.
      simp only [Option.not_mem_none, false_imp_iff, implies_true, iff_true]
      exact Docstring.inert_content hsummary (by simp [returnsLines])
  | some returns =>
      have hcore : TypeExpr.core (if returns.nullable then TypeExpr.optional
          (s.target returns.typeText) else s.target returns.typeText) =
          TypeExpr.core (s.meaning returns.typeText) := by
        split
        · rw [TypeExpr.core_optional, s.core_target]
        · exact s.core_target returns.typeText
      rw [returnsLines, Docstring.inert_content_singleton_iff hsummary (by decide) (by decide),
        unquoted_iff_of_core_eq hcore]
      simp

/-- The docstrings of queries are inert exactly if the types they answer with are unquoted. -/
theorem inert_queryRoutes_iff (m : Model) :
    (∀ r ∈ queryRoutes m, Inert r.docstring.content) ↔
      ∀ entry ∈ m.queries.entries, ∀ returns ∈ entry.2.returns,
        Unquoted ((Scope.ofModel m).meaning returns.typeText) := by
  have hroute (entry : String × Query) :=
    inert_queryRoute_iff (Scope.ofModel m) entry.1 entry.2
  rw [queryRoutes, List.forall_mem_map]
  constructor
  · intro h entry hentry
    exact (hroute entry).1 (h entry (m.queries.sorted_perm.mem_iff.2 hentry))
  · intro h entry hentry
    exact (hroute entry).2 (h entry (m.queries.sorted_perm.mem_iff.1 hentry))

end Routes

/-! ### The whole model -/

namespace Model

/-- Model text stays in its place up to types. A field stays on its lines exactly if the text does
that its type is made of. The long strings of a generated module are the docstrings of the generator
if the types it shows are made of contained texts; those of the routes module are so exactly if the
types that queries answer with are made of unquoted ones. -/
theorem text_contained_up_to_types (s : Scope) (p : Property) (m : Model) :
    ((∀ line ∈ (s.field p).lines, Unbroken line) ↔ Unbroken (s.meaning p.typeText)) ∧
      ((∀ type ∈ Entities.shownTypes m, Contained ((Scope.ofModel m).meaning type)) →
        longStrings? (Entities.sourceModule m).text =
          some ((Entities.docstrings m).map Docstring.content)) ∧
      ((∀ type ∈ Commands.shownTypes m, Contained ((Scope.ofModel m).meaning type)) →
        longStrings? (Commands.sourceModule m).text =
          some ((Commands.docstrings m).map Docstring.content)) ∧
      ((∀ type ∈ Events.shownTypes m, Contained ((Scope.ofModel m).meaning type)) →
        longStrings? (Events.sourceModule m).text =
          some ((Events.docstrings m).map Docstring.content)) ∧
      (longStrings? (Routes.sourceModule m).text =
          some ((Routes.docstrings m).map Docstring.content) ↔
        ∀ entry ∈ m.queries.entries, ∀ returns ∈ entry.2.returns,
          Unquoted ((Scope.ofModel m).meaning returns.typeText)) := by
  refine ⟨s.unbroken_field_iff p, ?_, ?_, ?_, ?_⟩
  · intro htypes
    rw [(Entities.madeOf_parts htypes).longStrings?_text, Entities.flatMap_strings_parts]
  · intro htypes
    rw [(Commands.madeOf_parts htypes).longStrings?_text, Commands.flatMap_strings_parts]
  · intro htypes
    rw [(Events.madeOf_parts htypes).longStrings?_text, Events.flatMap_strings_parts]
  · rw [Routes.longStrings?_text_iff, Routes.inert_queryRoutes_iff]

/-- A query that answers with a type of three quotes. -/
def leakingQuery : Query :=
  ⟨"Find", none, [], some ⟨"\"\"\"", false⟩⟩

/-- A model with types that leave their places. -/
def leaking : Model where
  version := "1.0"
  context := ⟨"Depot", "acme.depot", none⟩
  aggregates := .empty
  valueObjects := ⟨[("Box", ⟨"Box", none, .record [.plain "label" "\"\"\""]⟩)], by decide⟩
  events := .empty
  commands := ⟨[("Ship", ⟨"Ship", none, none, [.plain "lid" "a\nb"], [], [], []⟩)], by decide⟩
  queries := ⟨[("Find", leakingQuery)], by decide⟩
  subscriptions := []
  aliases := .empty

/-- The record of the value object. -/
def leakingRecord : Entities.RecordType :=
  ⟨"Box", "Box value object.", [], true, [.bare "label" "\"\"\""]⟩

theorem types_leaking : Entities.types leaking = [.record leakingRecord] := by
  have hsorted : leaking.valueObjects.sorted =
      [("Box", ⟨"Box", none, .record [.plain "label" "\"\"\""]⟩)] := List.mergeSort_singleton _
  have haggregates : leaking.aggregates.sorted = [] := List.mergeSort_nil
  have hrecord : Entities.recordType (Scope.ofModel leaking) "Box" none
      [.plain "label" "\"\"\""] = leakingRecord := by
    decide +kernel
  simp [Entities.types, Entities.enumerations, Entities.identifiers, Entities.records,
    Entities.aggregates, hsorted, haggregates, hrecord]

/-- The string that the last field of the record opens is never closed. -/
theorem scan?_leaking : scan? (Entities.sourceModule leaking).text = none := by
  have hfields : ∀ text ∈ ["", "model_config = ConfigDict(frozen=True)", ""],
      Run [] [text] text := runs_cons rfl (runs_cons rfl (runs_cons rfl runs_nil))
  have hdoc : (Stretch.doc ⟨1, "Box value object.", []⟩).Sound :=
    Stretch.sound_doc (inert_ofList rfl)
  have habove : ∀ s ∈ [.line "class Box(DomainModel):", .doc ⟨1, "Box value object.", []⟩] ++
      Stretch.lines 1 ["", "model_config = ConfigDict(frozen=True)", ""], s.Sound :=
    List.forall_mem_append.2 ⟨List.forall_mem_cons.2 ⟨Stretch.sound_fixed rfl,
      List.forall_mem_singleton.2 hdoc⟩, Stretch.sound_lines hfields 1⟩
  have hpart : leakingRecord.part = [.line "class Box(DomainModel):",
      .doc ⟨1, "Box value object.", []⟩] ++
        Stretch.lines 1 ["", "model_config = ConfigDict(frozen=True)", ""] ++
          [Stretch.line "    label: \"\"\""] := by
    simp [Entities.RecordType.part, leakingRecord, blockPart, Stretch.lines, Stretch.spaced,
      Declaration.stretches, Stretch.commented, Declaration.bare, Declaration.line, Initial.render,
      Entities.configLine, indentBy, padding]
  have hparts : (Entities.sourceModule leaking).allParts (Entities.parts leaking) =
      (Entities.sourceModule leaking).allParts [Entities.sharedPart] ++ [leakingRecord.part] := by
    rw [Entities.parts, types_leaking]
    rfl
  have hblocks := SourceModule.map_partText_allParts (Entities.map_partText_parts leaking)
  rw [hparts, hpart] at hblocks
  refine SourceModule.scan?_text_eq_none hblocks.symm (by simp [SourceModule.allParts]) ?_ habove
    (oneLine_ofList (by decide)) rfl rfl
  have htitle := SourceModule.inert_docstring (Entities.inert_title leaking)
  exact List.forall_mem_cons.2 ⟨isPart_doc htitle, List.forall_mem_cons.2
    ⟨Entities.isPart_imports, List.forall_mem_singleton.2 Entities.isPart_sharedPart⟩⟩

/-- The checklist accepts a model although a type breaks the line of a field, another opens a string
that is never closed, and a third closes the docstring of a query route. -/
theorem leaking_accepted_with_leaks :
    leaking.violation? = none ∧
      (∃ line ∈ ((Scope.ofModel leaking).field (.plain "lid" "a\nb")).lines, ¬ Unbroken line) ∧
      longStrings? (Entities.sourceModule leaking).text = none ∧
      longStrings? (Routes.sourceModule leaking).text ≠
        some ((Routes.docstrings leaking).map Docstring.content) := by
  refine ⟨?_, ?_, ?_, ?_⟩
  · rw [violation?_eq_none_iff]
    intro rule
    cases rule <;> decide +kernel
  · by_contra hnone
    have hlines : ∀ line ∈ ((Scope.ofModel leaking).field (.plain "lid" "a\nb")).lines,
        Unbroken line := by
      simpa using hnone
    rw [Scope.unbroken_field_iff, Property.plain, Scope.meaning,
      TypeExpr.parse_of_not_mem (by decide)] at hlines
    exact absurd hlines (by decide +kernel)
  · rw [longStrings?, scan?_leaking]
    rfl
  · intro hstrings
    rw [Routes.longStrings?_text_iff, Routes.inert_queryRoutes_iff] at hstrings
    have hquotes := hstrings ("Find", leakingQuery) List.mem_cons_self ⟨"\"\"\"", false⟩ rfl
    rw [Scope.meaning, TypeExpr.parse_of_not_mem (by decide)] at hquotes
    exact absurd hquotes (by decide +kernel)

end Model

end Groundplan
