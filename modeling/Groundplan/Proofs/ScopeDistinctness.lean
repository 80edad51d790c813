import Groundplan.Proofs.ChecklistRules
import Groundplan.Proofs.SharedSpelling
import Groundplan.Render.Entities
import Groundplan.Render.Events
import Groundplan.Render.Routes

/-!
# Distinct names in generated scopes

A scope is a place of generated source in which a name may be bound once: the body of a record or of
an enumeration, the parameters with which an event is created, and the parameters of a function
that serves a query. The names in it come from the properties of one definition, next to a few
that the scope has of its own.

What a scope has of its own never gets in the way: payload that takes the name of a standard field
is left out, and no member name is `cls`. So names collide only among the properties of one
definition, and exactly where two of them have the same words behind the leading word. The
checklist compares the names of definitions and does not look at their properties, so that it
accepts models with such collisions.

The names of a scope are those that are given to properties, values and parameters. A type is
written as it stands, and one with a line break in it can declare more; that is not looked at here.
-/

namespace Groundplan

open Source (Declaration)

/-! ### Scopes -/

/-- The names that the body of a type binds. -/
def Entities.EntityType.scope : EntityType → List String
  | .enumeration t => t.members.map EnumMember.name
  | .identifier t =>
    (t.format.map fun _ => "FORMAT").toList ++ (t.start.map fun _ => "PREFIX").toList ++ ["value"]
  | .record t => t.fields.map Declaration.name

/-- The parameters of the method that creates an event. -/
def Events.EventType.parameterNames (t : EventType) : List String :=
  "cls" :: t.parameters.map Declaration.name

namespace Model

/-- The scopes of all generated source. -/
def scopes (m : Model) : List (List String) :=
  (Entities.types m).map Entities.EntityType.scope ++
    (Commands.types m).map (fun t => t.fields.map Declaration.name) ++
    (Events.types m).map Events.EventType.fieldNames ++
    (Events.types m).map Events.EventType.parameterNames ++
    (Routes.queryRoutes m).map fun r => r.parameters.map Declaration.name

end Model

/-! ### Separation -/

/-- Whether the words of names are pairwise distinct behind a leading word. -/
def Name.Separate (lead : String) (names : List String) : Prop :=
  (names.map (ledWords lead)).Nodup

/-- Whether the words of the properties or values of a value object are pairwise distinct. -/
def ValueObject.Separates (v : ValueObject) : Prop :=
  match v.shape with
  | .record properties => Name.Separate "field" (properties.map Property.name)
  | .enumeration values => Name.Separate "value" (values.map EnumValue.name)
  | .identifier _ _ _ => True

/-- Whether the words of the names in each definition are pairwise distinct, as far as the names
come to one scope. -/
structure Model.Separates (m : Model) : Prop where
  valueObjects : ∀ entry ∈ m.valueObjects.entries, entry.2.Separates
  aggregates : ∀ entry ∈ m.aggregates.entries,
    Name.Separate "field" (entry.2.root.properties.map Property.name)
  commands : ∀ entry ∈ m.commands.entries,
    Name.Separate "field" (entry.2.payload.map Property.name)
  events : ∀ entry ∈ m.events.entries,
    Name.Separate "field" ((Events.keptPayload entry.2).map Property.name)
  queries : ∀ entry ∈ m.queries.entries,
    Name.Separate "field" ((entry.2.parameters.filter Routes.isBound).map Property.name)

namespace Name

variable {α : Type}

/-- A spelling that tells names apart as led words do gives distinct spellings to separate names. -/
theorem nodup_map_iff_separate {spell : String → String} {lead : String}
    (h : ∀ name name', spell name = spell name' ↔ ledWords lead name = ledWords lead name')
    (nameOf : α → String) (items : List α) :
    (items.map fun item => spell (nameOf item)).Nodup ↔ Separate lead (items.map nameOf) := by
  simp only [Separate, List.Nodup, List.pairwise_map, ne_eq, h]

end Name

/-! ### Scopes by kind -/

namespace Scope

@[simp]
theorem names_fields (s : Scope) (properties : List Property) :
    (properties.map s.field).map Declaration.name =
      properties.map fun p => Name.member p.name := by
  simp [field, Function.comp_def]

@[simp]
theorem names_parameters (s : Scope) (properties : List Property) :
    (properties.map s.parameter).map Declaration.name =
      properties.map fun p => Name.member p.name := by
  simp [parameter, Declaration.bare, Function.comp_def]

theorem nodup_fields_iff (s : Scope) (properties : List Property) :
    ((properties.map s.field).map Declaration.name).Nodup ↔
      Name.Separate "field" (properties.map Property.name) := by
  rw [names_fields]
  exact Name.nodup_map_iff_separate Name.member_eq_iff Property.name properties

end Scope

namespace Entities

theorem nodup_scope_enumeration_iff (name : String) (description : Option String)
    (values : List EnumValue) :
    (EntityType.enumeration (enumerationType name description values)).scope.Nodup ↔
      Name.Separate "value" (values.map EnumValue.name) := by
  have hnames : (EntityType.enumeration (enumerationType name description values)).scope =
      values.map fun value => Name.constant value.name := by
    simp [EntityType.scope, enumerationType, Function.comp_def]
  rw [hnames]
  exact Name.nodup_map_iff_separate Name.constant_eq_iff EnumValue.name values

theorem nodup_scope_identifier (t : IdentifierType) : (EntityType.identifier t).scope.Nodup := by
  cases hformat : t.format <;> cases hstart : t.start <;>
    simp [EntityType.scope, hformat, hstart]

/-- The type of a value object, whatever its shape. -/
def valueType (s : Scope) (entry : String × ValueObject) : EntityType :=
  match entry.2.shape with
  | .enumeration values => .enumeration (enumerationType entry.1 entry.2.description values)
  | .identifier underlying format start =>
    .identifier (identifierType s entry.1 entry.2.description underlying format start)
  | .record properties => .record (recordType s entry.1 entry.2.description properties)

theorem name_valueType (s : Scope) (entry : String × ValueObject) :
    (valueType s entry).name = Name.pascal entry.1 := by
  unfold valueType
  split <;> rfl

/-- The generated types are those of the value objects and of the aggregates. -/
theorem mem_types {m : Model} {t : EntityType} :
    t ∈ types m ↔
      (∃ entry ∈ m.valueObjects.entries, valueType (Scope.ofModel m) entry = t) ∨
        ∃ entry ∈ m.aggregates.entries,
          EntityType.record (aggregateType (Scope.ofModel m) entry.1 entry.2) = t := by
  simp only [types, enumerations, identifiers, records, aggregates, List.mem_append, List.mem_map,
    List.mem_filterMap, m.valueObjects.sorted_perm.mem_iff, m.aggregates.sorted_perm.mem_iff]
  constructor
  · -- A group has the value objects of one shape.
    rintro (((⟨_, ⟨entry, hentry, hgroup⟩, rfl⟩ | ⟨_, ⟨entry, hentry, hgroup⟩, rfl⟩) |
      ⟨_, ⟨entry, hentry, hgroup⟩, rfl⟩) | ⟨_, ⟨entry, hentry, rfl⟩, rfl⟩)
    on_goal 4 => exact .inr ⟨entry, hentry, rfl⟩
    all_goals
      left
      refine ⟨entry, hentry, ?_⟩
      split at hgroup
      next hshape =>
        cases hgroup
        simp [valueType, hshape]
      next => cases hgroup
  · rintro (⟨entry, hentry, rfl⟩ | ⟨entry, hentry, rfl⟩)
    · left
      cases hshape : entry.2.shape with
      | enumeration values =>
          exact .inl (.inl ⟨_, ⟨entry, hentry, by rw [hshape]⟩, by simp [valueType, hshape]⟩)
      | identifier underlying format start =>
          exact .inl (.inr ⟨_, ⟨entry, hentry, by rw [hshape]⟩, by simp [valueType, hshape]⟩)
      | record properties =>
          exact .inr ⟨_, ⟨entry, hentry, by rw [hshape]⟩, by simp [valueType, hshape]⟩
    · exact .inr ⟨_, ⟨entry, hentry, rfl⟩, rfl⟩

theorem nodup_scope_valueType_iff (s : Scope) (entry : String × ValueObject) :
    (valueType s entry).scope.Nodup ↔ entry.2.Separates := by
  cases hshape : entry.2.shape with
  | record properties =>
      simp only [valueType, ValueObject.Separates, hshape]
      exact s.nodup_fields_iff properties
  | enumeration values =>
      simp only [valueType, ValueObject.Separates, hshape]
      exact nodup_scope_enumeration_iff _ _ values
  | identifier underlying format start =>
      simp only [valueType, ValueObject.Separates, hshape, iff_true]
      exact nodup_scope_identifier _

end Entities

namespace Events

/-- Payload that is kept has no name of a standard field. -/
theorem name_ne_of_mem_keptPayload {e : Event} {p : Property} (hp : p ∈ keptPayload e)
    {field : StandardField} (hfield : field ∈ standardFields e) :
    field.name ≠ Name.member p.name := by
  have hfree : clashes e p = false := by simpa using (List.mem_filter.1 hp).2
  intro hname
  have hclash : clashes e p = true := List.any_eq_true.2 ⟨field, hfield, by simpa using hname⟩
  rw [hfree] at hclash
  cases hclash

theorem nodup_standardNames (e : Event) : ((standardFields e).map StandardField.name).Nodup := by
  cases haggregate : hasAggregate e <;> simp [standardFields, haggregate, StandardField.name]

theorem nodup_fieldNames_iff (s : Scope) (name : String) (e : Event) :
    (eventType s name e).fieldNames.Nodup ↔
      Name.Separate "field" ((keptPayload e).map Property.name) := by
  have hapart : ∀ a ∈ (standardFields e).map StandardField.name,
      ∀ b ∈ ((keptPayload e).map s.field).map Declaration.name, a ≠ b := by
    intro a ha b hb
    rw [s.names_fields] at hb
    obtain ⟨field, hfield, rfl⟩ := List.mem_map.1 ha
    obtain ⟨p, hp, rfl⟩ := List.mem_map.1 hb
    exact name_ne_of_mem_keptPayload hp hfield
  have hnames : (eventType s name e).fieldNames = (standardFields e).map StandardField.name ++
      ((keptPayload e).map s.field).map Declaration.name := rfl
  rw [hnames, List.nodup_append, ← s.nodup_fields_iff]
  exact ⟨fun h => h.2.1, fun h => ⟨nodup_standardNames e, h, hapart⟩⟩

/-- The names with which an event is created, in order. -/
theorem parameterNames_eventType (s : Scope) (name : String) (e : Event) :
    (eventType s name e).parameterNames =
      "cls" :: ((if hasAggregate e then ["aggregate_id"] else []) ++
        (keptPayload e).map fun p => Name.member p.name) := by
  simp only [EventType.parameterNames, eventType, parameters, List.map_append,
    Scope.names_parameters]
  split <;> rfl

theorem nodup_parameterNames_iff (s : Scope) (name : String) (e : Event) :
    (eventType s name e).parameterNames.Nodup ↔
      Name.Separate "field" ((keptPayload e).map Property.name) := by
  have hcls : "cls" ∉ (keptPayload e).map fun p => Name.member p.name := by
    intro hmem
    obtain ⟨p, -, hp⟩ := List.mem_map.1 hmem
    apply Name.member_not_mem_reservedMembers p.name
    rw [hp]
    decide
  rw [parameterNames_eventType, ← s.nodup_fields_iff, s.names_fields]
  cases haggregate : hasAggregate e with
  | false => simp [hcls]
  | true =>
      have hid : "aggregate_id" ∉ (keptPayload e).map fun p => Name.member p.name := by
        intro hmem
        obtain ⟨p, hkept, hp⟩ := List.mem_map.1 hmem
        have hfield : StandardField.aggregateId ∈ standardFields e := by
          simp [standardFields, haggregate]
        exact name_ne_of_mem_keptPayload hkept hfield hp.symm
      rw [if_pos rfl, List.singleton_append, List.nodup_cons, List.nodup_cons, List.mem_cons]
      exact ⟨fun h => h.2.2, fun h => ⟨not_or.2 ⟨by decide, hcls⟩, hid, h⟩⟩

end Events

/-- The name of a primitive type is a type expression without wrappers. -/
theorem TypeExpr.parse_primitive :
    ∀ name ∈ primitives.map Prod.fst, parse name = .leaf name := by
  intro name
  rw [parse, ofChars]
  revert name
  decide +kernel

theorem Routes.nodup_parameters_iff (s : Scope) (name : String) (q : Query) :
    ((queryRoute s name q).parameters.map Declaration.name).Nodup ↔
      Name.Separate "field" ((q.parameters.filter isBound).map Property.name) := by
  have hnames : (queryRoute s name q).parameters.map Declaration.name =
      (q.parameters.filter isBound).map fun p => Name.field p.name := by
    simp [queryRoute, parameter, Function.comp_def]
  rw [hnames]
  exact Name.nodup_map_iff_separate Name.field_eq_iff Property.name (q.parameters.filter isBound)

/-! ### All scopes -/

/-- A required property with a name and a type and nothing else. -/
def Property.plain (name typeText : String) : Property :=
  ⟨name, typeText, false, true, .null, none, none, none⟩

namespace Model

/-- The scopes of the entities. -/
theorem nodup_scope_types_iff (m : Model) :
    (∀ t ∈ Entities.types m, t.scope.Nodup) ↔
      (∀ entry ∈ m.valueObjects.entries, entry.2.Separates) ∧
        ∀ entry ∈ m.aggregates.entries,
          Name.Separate "field" (entry.2.root.properties.map Property.name) := by
  simp only [Entities.mem_types]
  constructor
  · intro h
    refine ⟨fun entry hentry => ?_, fun entry hentry => ?_⟩
    · exact (Entities.nodup_scope_valueType_iff _ entry).1 (h _ (.inl ⟨entry, hentry, rfl⟩))
    · exact (Scope.nodup_fields_iff _ _).1 (h _ (.inr ⟨entry, hentry, rfl⟩))
  · rintro ⟨hvalues, haggregates⟩ t (⟨entry, hentry, rfl⟩ | ⟨entry, hentry, rfl⟩)
    · exact (Entities.nodup_scope_valueType_iff _ entry).2 (hvalues entry hentry)
    · exact (Scope.nodup_fields_iff _ _).2 (haggregates entry hentry)

/-- The names in every scope of generated source are pairwise distinct exactly when the words of
the properties, payload, parameters and values of each definition are. -/
theorem scopes_nodup_iff_separates (m : Model) :
    (∀ scope ∈ m.scopes, scope.Nodup) ↔ m.Separates := by
  simp only [scopes, Commands.types, Events.types, Routes.queryRoutes, List.forall_mem_append,
    List.forall_mem_map, nodup_scope_types_iff, m.commands.sorted_perm.mem_iff,
    m.events.sorted_perm.mem_iff, m.queries.sorted_perm.mem_iff, Commands.commandType,
    Scope.nodup_fields_iff, Events.nodup_fieldNames_iff, Events.nodup_parameterNames_iff,
    Routes.nodup_parameters_iff]
  constructor
  · rintro ⟨⟨⟨⟨⟨hvalues, haggregates⟩, hcommands⟩, hevents⟩, -⟩, hqueries⟩
    exact ⟨hvalues, haggregates, hcommands, hevents, hqueries⟩
  · rintro ⟨hvalues, haggregates, hcommands, hevents, hqueries⟩
    exact ⟨⟨⟨⟨⟨hvalues, haggregates⟩, hcommands⟩, hevents⟩, hevents⟩, hqueries⟩

/-- Two properties with one field name. -/
def orderIds : List Property := [.plain "orderId" "String", .plain "order_id" "String"]

/-- A model in which definitions of every kind have two names with the same words. -/
def doubled : Model where
  version := "1.0"
  context := ⟨"Orders", "acme.orders", none⟩
  aggregates := ⟨[("Order", ⟨"Order", none, ⟨"Order", orderIds⟩, []⟩)], by decide⟩
  valueObjects := ⟨[("OrderKey", ⟨"OrderKey", none, .record orderIds⟩),
    ("Stage", ⟨"Stage", none, .enumeration [⟨"open", none⟩, ⟨"Open", none⟩]⟩)], by decide⟩
  events := ⟨[("OrderPlaced", ⟨"OrderPlaced", none, none, orderIds⟩)], by decide⟩
  commands := ⟨[("PlaceOrder", ⟨"PlaceOrder", none, none, orderIds, [], [], []⟩)], by decide⟩
  queries := ⟨[("FindOrder", ⟨"FindOrder", none, orderIds, none⟩)], by decide⟩
  subscriptions := []
  aliases := .empty

theorem filter_isBound_orderIds : orderIds.filter Routes.isBound = orderIds := by
  refine List.filter_eq_self.2 fun p hp => ?_
  have htype : p.typeText = "String" := by
    rcases List.mem_pair.1 hp with rfl | rfl <;> rfl
  rw [Routes.isBound, htype, TypeExpr.parse_primitive "String" (by decide)]
  decide

/-- The checklist accepts a model although the names in each of its scopes collide. -/
theorem doubled_accepted_with_collisions :
    doubled.violation? = none ∧ doubled.scopes.length = 7 ∧
      ∀ scope ∈ doubled.scopes, ¬ scope.Nodup := by
  have hvalues : doubled.valueObjects.sorted = doubled.valueObjects.entries :=
    List.mergeSort_of_pairwise (by decide)
  have haggregates : doubled.aggregates.sorted = doubled.aggregates.entries :=
    List.mergeSort_singleton _
  have hcommands : doubled.commands.sorted = doubled.commands.entries :=
    List.mergeSort_singleton _
  have hevents : doubled.events.sorted = doubled.events.entries := List.mergeSort_singleton _
  have hqueries : doubled.queries.sorted = doubled.queries.entries := List.mergeSort_singleton _
  have hbound : (doubled.queries.entries.map fun entry =>
      Routes.queryRoute (Scope.ofModel doubled) entry.1 entry.2).map
        (fun r => r.parameters.map Declaration.name) =
      [((orderIds.filter Routes.isBound).map (Routes.parameter (Scope.ofModel doubled))).map
        Declaration.name] := rfl
  have hscopes : doubled.scopes = [
      ["OPEN", "OPEN"], ["order_id", "order_id"], ["order_id", "order_id"],
      ["order_id", "order_id"], ["event_id", "occurred_at", "order_id", "order_id"],
      ["cls", "order_id", "order_id"], ["order_id", "order_id"]] := by
    rw [scopes, Entities.types, Entities.enumerations, Entities.identifiers, Entities.records,
      Entities.aggregates, Commands.types, Events.types, Routes.queryRoutes, hvalues, haggregates,
      hcommands, hevents, hqueries, hbound, filter_isBound_orderIds]
    rfl
  refine ⟨?_, ?_, ?_⟩
  · rw [violation?_eq_none_iff]
    intro rule
    cases rule <;> decide
  · rw [hscopes]
    rfl
  · rw [hscopes]
    decide

end Model

end Groundplan
