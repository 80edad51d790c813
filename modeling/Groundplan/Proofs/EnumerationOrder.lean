import Groundplan.Proofs.FieldLines
import Groundplan.Proofs.ScopeDistinctness
import Groundplan.Proofs.SourceReading

/-!
# Enumerations come before the defaults that name their members

A default of a field that names a member of an enumeration is evaluated when the class of the field
is created, so the enumeration has to stand above it. The name of the enumeration comes from the
type of the property, by way of aliases and options; the members it may have come from the model;
and the enumeration itself is written from the model again. In a model that passes the checklist
the three agree: the type names of a model are distinct, so one block and no other is that of the
enumeration, and the groups of types put it above all records.

What is said here of blocks is read from their text. They are the blocks that are written for the
types of a model; a class that the text of a field's type brings with it is not one of them.
-/

namespace Groundplan

open Source

/-! ### Defaults -/

/-- The default in an initial value: the value by itself, or the first argument if it has no
keyword. -/
def Source.defaultOf? : Initial → Option Expr
  | .none => none
  | .value e => some e
  | .call _ (⟨none, e⟩ :: _) => some e
  | .call _ _ => none

namespace Scope

theorem keyword_of_mem_details {s : Scope} {p : Property} {a : Argument} (h : a ∈ s.details p) :
    a.keyword ≠ none := by
  rcases List.mem_append.1 h with h | h
  · rcases List.mem_append.1 h with h | h
    · split at h
      · cases h
      · rw [List.mem_singleton.1 h]
        exact nofun
    · split at h
      · cases h
      · cases h
      · rw [List.mem_singleton.1 h]
        exact nofun
  · obtain ⟨c, -, rfl⟩ := List.mem_map.1 h
    exact nofun

/-- The default of a field is the argument that gives it its default. -/
theorem defaultArgument_of_defaultOf? {s : Scope} {p : Property} {e : Expr}
    (h : defaultOf? (s.initial p) = some e) : s.defaultArgument p = some (.positional e) := by
  have hdetails : ∀ a ∈ s.details p, a.keyword ≠ none := fun a => keyword_of_mem_details
  unfold initial at h
  split at h
  · cases h
  next hdefault _ =>
    cases h
    exact hdefault
  next =>
    -- The call starts with the default if there is one; the details all have keywords.
    cases hdefault : s.defaultArgument p with
    | none =>
        cases hlist : s.details p with
        | nil => simp [hdefault, hlist, defaultOf?] at h
        | cons a details =>
            obtain ⟨keyword, value⟩ := a
            have hkeyword := hdetails ⟨keyword, value⟩ (by simp [hlist])
            cases keyword with
            | none => exact absurd rfl hkeyword
            | some keyword => simp [hdefault, hlist, defaultOf?] at h
    | some a =>
        obtain ⟨keyword, value⟩ := a
        cases keyword with
        | none =>
            simp only [hdefault, Option.toList_some, List.singleton_append, defaultOf?,
              Option.some.injEq] at h
            rw [h]
            rfl
        | some keyword => simp [hdefault, defaultOf?] at h

theorem defaultFate_of_defaultArgument {s : Scope} {p : Property} {type member : String}
    (h : s.defaultArgument p = some (.positional (.member type member))) :
    s.defaultFate p = .kept (.member type member) := by
  unfold defaultArgument at h
  split at h
  next hkept =>
    cases h
    exact hkept
  next => split_ifs at h <;> cases h

/-- The members that the scope of a model has come from one of its enumerations. -/
theorem exists_of_get?_members {m : Model} {type : String} {members : List String}
    (h : (ofModel m).members.get? type = some members) :
    ∃ name v values, (name, v) ∈ m.valueObjects.entries ∧ v.shape = .enumeration values ∧
      Name.pascal name = type ∧ (values.map fun value => Name.constant value.name) = members := by
  rw [Catalog.get?, Catalog.lookup_eq_some_iff_mem (ofModel m).members.distinct, ofModel,
    Catalog.mem_entries_ofList] at h
  obtain ⟨before, after, hsplit, -⟩ := h
  have hmem : (type, members) ∈ m.valueObjects.sorted.filterMap enumeration? := by
    rw [hsplit]
    simp
  obtain ⟨⟨name, v⟩, hentry, hdeclared⟩ := List.mem_filterMap.1 hmem
  rw [m.valueObjects.sorted_perm.mem_iff] at hentry
  obtain ⟨inner, description, shape⟩ := v
  cases shape with
  | enumeration values =>
      cases hdeclared
      exact ⟨name, _, values, hentry, rfl, rfl, rfl⟩
  | record properties => cases hdeclared
  | identifier underlying format start => cases hdeclared

end Scope

/-! ### Types in order -/

namespace Entities

/-- Three groups that divide a list hold what the list holds. -/
theorem perm_groups {α β : Type} {f g h : α → Option β} {k : α → β} {as : List α}
    (hgroups : ∀ a ∈ as, (f a = some (k a) ∧ g a = none ∧ h a = none) ∨
      (f a = none ∧ g a = some (k a) ∧ h a = none) ∨
      (f a = none ∧ g a = none ∧ h a = some (k a))) :
    (as.filterMap f ++ as.filterMap g ++ as.filterMap h).Perm (as.map k) := by
  induction as with
  | nil => exact .nil
  | cons a as ih =>
      obtain ⟨hfirst, hrest⟩ := List.forall_mem_cons.1 hgroups
      have hperm : (k a :: (as.filterMap f ++ as.filterMap g ++ as.filterMap h)).Perm
          (k a :: as.map k) := (ih hrest).cons _
      rcases hfirst with ⟨hf, hg, hh⟩ | ⟨hf, hg, hh⟩ | ⟨hf, hg, hh⟩
      · simpa [hf, hg, hh] using hperm
      · rw [List.append_assoc] at hperm
        simpa [hf, hg, hh] using List.perm_middle.trans hperm
      · simpa [hf, hg, hh] using List.perm_middle.trans hperm

/-- The types are those of the value objects and the aggregates, in another order. -/
theorem types_perm (m : Model) :
    (types m).Perm (m.valueObjects.sorted.map (valueType (Scope.ofModel m)) ++
      m.aggregates.sorted.map fun entry =>
        .record (aggregateType (Scope.ofModel m) entry.1 entry.2)) := by
  refine List.Perm.append ?_ ?_
  · rw [enumerations, identifiers, records, List.map_filterMap, List.map_filterMap,
      List.map_filterMap]
    refine perm_groups fun entry _ => ?_
    obtain ⟨name, inner, description, shape⟩ := entry
    cases shape with
    | enumeration values => exact .inl ⟨rfl, rfl, rfl⟩
    | identifier underlying format start => exact .inr (.inl ⟨rfl, rfl, rfl⟩)
    | record properties => exact .inr (.inr ⟨rfl, rfl, rfl⟩)
  · rw [aggregates, List.map_map]
    exact .refl _

/-- In a model that passes the checklist no two types have one name. -/
theorem nodup_names_types {m : Model} (h : m.violation? = none) :
    ((types m).map EntityType.name).Nodup := by
  have hdistinct : m.typeNames.Nodup := ((m.violation?_eq_none_iff.1 h) .typeNames).1
  have hnames : ((types m).map EntityType.name).Perm
      ((m.valueObjects.names ++ m.aggregates.names).map Name.pascal) := by
    refine ((types_perm m).map EntityType.name).trans ?_
    rw [List.map_append, List.map_append, List.map_map, List.map_map]
    refine List.Perm.append ?_ ?_
    · have hvalues : EntityType.name ∘ valueType (Scope.ofModel m) = Name.pascal ∘ Prod.fst :=
        funext fun entry => name_valueType _ entry
      rw [hvalues, ← List.map_map]
      exact m.valueObjects.sortedNames_perm.map _
    · have haggregates : (EntityType.name ∘ fun entry : String × Aggregate =>
          .record (aggregateType (Scope.ofModel m) entry.1 entry.2)) = Name.pascal ∘ Prod.fst := rfl
      rw [haggregates, ← List.map_map]
      exact m.aggregates.sortedNames_perm.map _
  rw [hnames.nodup_iff]
  rw [Model.typeNames, List.append_assoc _ _ m.commands.names, List.map_append] at hdistinct
  exact hdistinct.of_append_left

/-- In a model that passes the checklist a type is known by its name. -/
theorem index_eq_of_name_eq {m : Model} (h : m.violation? = none) {i k : Nat} {t t' : EntityType}
    (hi : (types m)[i]? = some t) (hk : (types m)[k]? = some t') (hname : t.name = t'.name) :
    k = i := by
  have hname_at {n : Nat} {u : EntityType} (hn : (types m)[n]? = some u) :
      ((types m).map EntityType.name)[n]? = some u.name := by
    rw [List.getElem?_map, hn, Option.map_some]
  have hbound := (List.getElem?_eq_some_iff.1 (hname_at hk)).1
  refine (List.getElem?_inj hbound (nodup_names_types h)).1 ?_
  rw [hname_at hk, hname_at hi, hname]

/-- Every enumeration stands above every record. -/
theorem enumeration_before_record {m : Model} {i j : Nat} {e : EnumerationType} {t : RecordType}
    (hi : (types m)[i]? = some (.enumeration e)) (hj : (types m)[j]? = some (.record t)) :
    i < j := by
  have hgroups : types m = (enumerations m).map .enumeration ++
      ((identifiers (Scope.ofModel m) m).map .identifier ++
        ((records (Scope.ofModel m) m).map .record ++
          (aggregates (Scope.ofModel m) m).map .record)) := by
    simp only [types, List.append_assoc]
  rw [hgroups] at hi hj
  have hfirst : i < ((enumerations m).map EntityType.enumeration).length := by
    by_contra hlater
    rw [List.getElem?_append_right (Nat.le_of_not_lt hlater)] at hi
    simpa using List.mem_of_getElem? hi
  by_contra hbefore
  rw [List.getElem?_append_left (lt_of_le_of_lt (Nat.le_of_not_lt hbefore) hfirst)] at hj
  simpa using List.mem_of_getElem? hj

/-! ### Blocks -/

/-- The name of the enumeration that a block of source defines. -/
def enumerationName? (block : String) : Option String :=
  (className? block).filter fun name => begins ("class " ++ name ++ "(str, Enum):") block

/-- Whether a line of a block assigns a member. -/
def AssignsMember (member block : String) : Prop :=
  ∃ line ∈ linesOf block, begins ("    " ++ member ++ " = ") line = true

theorem isPlain_of_mem_types {m : Model} {t : EntityType} (h : t ∈ types m) :
    Name.IsPlain t.name := by
  rcases mem_types.1 h with ⟨entry, -, rfl⟩ | ⟨entry, -, rfl⟩
  · rw [name_valueType]
    exact Name.isPlain_pascal entry.1
  · exact Name.isPlain_pascal entry.1

theorem className?_block {t : EntityType} (hname : Name.IsPlain t.name) :
    className? t.block = some t.name := by
  cases t with
  | enumeration t =>
      exact className?_joinLines hname "str, Enum):"
        (by simp [String.append_assoc, EntityType.name]) _
  | identifier t =>
      exact className?_joinLines hname "DomainModel):"
        (by simp [String.append_assoc, EntityType.name]) _
  | record t =>
      exact className?_joinLines hname "DomainModel):"
        (by simp [String.append_assoc, EntityType.name]) _

theorem className?_shared : className? (joinLines shared) = none :=
  between?_eq_none
    (begins_joinLines_eq_false (c := 'c') (by decide) (by decide) (by decide) _) '('

theorem enumerationName?_block {t : EnumerationType} (hname : Name.IsPlain t.name) :
    enumerationName? t.block = some t.name := by
  have hclass : className? t.block = some t.name := className?_block (t := .enumeration t) hname
  have hbegins : begins ("class " ++ t.name ++ "(str, Enum):") t.block = true :=
    begins_joinLines "" (by simp) _
  rw [enumerationName?, hclass, Option.filter_some, if_pos hbegins]

/-- The name of a member is spelled and its comment is flat. -/
theorem of_mem_members {name : String} {description : Option String} {values : List EnumValue}
    {member : EnumMember} (h : member ∈ (enumerationType name description values).members) :
    Name.IsPlain member.name ∧ ∀ comment ∈ member.comment, OneLine comment := by
  obtain ⟨value, -, rfl⟩ := List.mem_map.1 h
  dsimp only
  refine ⟨Name.isPlain_constant value.name, fun comment hcomment => ?_⟩
  rw [Option.mem_def] at hcomment
  split at hcomment
  · cases hcomment
  · cases hcomment
  · cases hcomment
    exact oneLine_flatten _

theorem oneLine_memberLines {name : String} {description : Option String} {values : List EnumValue}
    {member : EnumMember} (h : member ∈ (enumerationType name description values).members) :
    ∀ line ∈ member.lines, OneLine line := by
  obtain ⟨hname, hcomment⟩ := of_mem_members h
  intro line hline
  rcases List.mem_append.1 hline with hline | hline
  · obtain ⟨comment, hmem, rfl⟩ := Option.map_eq_some_iff.1 (Option.mem_toList.1 hline)
    exact .append (by decide) (hcomment comment hmem)
  · rw [List.mem_singleton.1 hline]
    exact .append (.append (oneLine_of_isPlain hname) (by decide))
      (oneLine_of_unbroken (unbroken_literal member.value))

/-- The lines below the first line of an enumeration. -/
theorem oneLine_enumerationLines (name : String) (description : Option String)
    (values : List EnumValue) :
    ∀ line ∈ docstring (enumerationType name description values).summary [] ++
      spaced ((enumerationType name description values).members.flatMap EnumMember.lines),
      OneLine line := by
  have hsummary : OneLine (enumerationType name description values).summary := by
    simp only [enumerationType]
    exact oneLine_docLineOr ((oneLine_of_isPlain (Name.isPlain_pascal name)).append (by decide))
  intro line hline
  rcases List.mem_append.1 hline with hline | hline
  · exact oneLine_docstring hsummary (by simp) line hline
  · rcases of_mem_spaced hline with rfl | hline
    · decide
    · obtain ⟨member, hmember, hline⟩ := List.mem_flatMap.1 hline
      exact oneLine_memberLines hmember line hline

/-- An enumeration has a line for each of its members. -/
theorem assignsMember_block {name : String} {description : Option String}
    {values : List EnumValue} {member : EnumMember}
    (h : member ∈ (enumerationType name description values).members) :
    AssignsMember member.name (enumerationType name description values).block := by
  have hheader : OneLine ("class " ++ Name.pascal name ++ "(str, Enum):") :=
    .append (.append (by decide) (oneLine_of_isPlain (Name.isPlain_pascal name))) (by decide)
  have hassign : member.name ++ " = " ++ Text.literal member.value ∈
      (enumerationType name description values).members.flatMap EnumMember.lines :=
    List.mem_flatMap.2 ⟨member, h, List.mem_append_right _ (List.mem_singleton.2 rfl)⟩
  refine ⟨_, mem_linesOf_block hheader (oneLine_enumerationLines name description values)
    (List.mem_append_right _ (mem_spaced_of_mem hassign)) (by simp), ?_⟩
  rw [padding_one, ← String.append_assoc, ← String.append_assoc]
  exact begins_append _ _

/-! ### Defaults and enumerations -/

/-- Whether a generated record has the field of a property: the record of a value object has those
of its properties, and the record of an aggregate has those of its root. -/
def RendersField (m : Model) (t : RecordType) (p : Property) : Prop :=
  (∃ name v properties, (name, v) ∈ m.valueObjects.entries ∧ v.shape = .record properties ∧
    p ∈ properties ∧ recordType (Scope.ofModel m) name v.description properties = t) ∨
  ∃ name a, (name, a) ∈ m.aggregates.entries ∧ p ∈ a.root.properties ∧
    aggregateType (Scope.ofModel m) name a = t

theorem RendersField.mem_types {m : Model} {t : RecordType} {p : Property}
    (h : RendersField m t p) : .record t ∈ types m := by
  refine Entities.mem_types.2 ?_
  rcases h with ⟨name, v, properties, hentry, hshape, -, rfl⟩ | ⟨name, a, hentry, -, rfl⟩
  · exact .inl ⟨(name, v), hentry, by simp only [valueType, hshape]⟩
  · exact .inr ⟨(name, a), hentry, rfl⟩

/-- A default that names a member comes from an enumeration that is written with that member. -/
theorem exists_enumeration_of_defaultOf? {m : Model} {p : Property} {type member : String}
    (h : defaultOf? ((Scope.ofModel m).field p).initial = some (.member type member)) :
    ∃ e : EnumerationType, .enumeration e ∈ types m ∧ e.name = type ∧
      AssignsMember member e.block := by
  have hfate : (Scope.ofModel m).defaultFate p = .kept (.member type member) :=
    Scope.defaultFate_of_defaultArgument (Scope.defaultArgument_of_defaultOf? h)
  obtain ⟨-, -, members, hmembers, hmember⟩ := Scope.of_fateOf_eq_member hfate
  obtain ⟨name, v, values, hentry, hshape, rfl, rfl⟩ := Scope.exists_of_get?_members hmembers
  obtain ⟨written, hwritten, rfl⟩ : ∃ written ∈
      (enumerationType name v.description values).members, written.name = member := by
    rw [← List.mem_map]
    simpa [enumerationType, Function.comp_def] using hmember
  refine ⟨enumerationType name v.description values, ?_, rfl, assignsMember_block hwritten⟩
  exact Entities.mem_types.2 (.inl ⟨(name, v), hentry, by simp only [valueType, hshape]⟩)

theorem blocks_sourceModule (m : Model) :
    (sourceModule m).blocks = joinLines shared :: (types m).map EntityType.block :=
  rfl

/-- The blocks behind the first are those of the types. -/
theorem getElem?_blocks_succ {m : Model} {k : Nat} {block : String} :
    (sourceModule m).blocks[k + 1]? = some block ↔
      ∃ t, (types m)[k]? = some t ∧ t.block = block := by
  rw [blocks_sourceModule, List.getElem?_cons_succ, List.getElem?_map, Option.map_eq_some_iff]

/-- A block that defines a class is the block of the type of that name. -/
theorem of_className?_eq_some {m : Model} {k : Nat} {block name : String}
    (hk : (sourceModule m).blocks[k]? = some block) (hname : className? block = some name) :
    ∃ n t, k = n + 1 ∧ (types m)[n]? = some t ∧ t.name = name := by
  cases k with
  | zero =>
      rw [blocks_sourceModule, List.getElem?_cons_zero, Option.some.injEq] at hk
      rw [← hk, className?_shared] at hname
      cases hname
  | succ n =>
      obtain ⟨t, ht, rfl⟩ := getElem?_blocks_succ.1 hk
      rw [className?_block (isPlain_of_mem_types (List.mem_of_getElem? ht))] at hname
      exact ⟨n, t, rfl, ht, Option.some.inj hname⟩

/-- Whether a block finds a member of an enumeration above it: one block defines a class of the
name, it is an enumeration that assigns the member, and it stands above the block wherever that
occurs. -/
def FindsMember (blocks : List String) (block type member : String) : Prop :=
  ∃ i : Nat,
    (∃ enumeration, blocks[i]? = some enumeration ∧ enumerationName? enumeration = some type ∧
      AssignsMember member enumeration) ∧
    (∀ (k : Nat) other, blocks[k]? = some other → className? other = some type → k = i) ∧
    block ∈ blocks ∧ ∀ j : Nat, blocks[j]? = some block → i < j

end Entities

namespace Model

/-- A property whose type is an alias of an enumeration and whose default names a member of it. -/
def stage : Property :=
  ⟨"stage", "Stage", false, true, .scalar (.str "in-review"), some "The stage.", none, none⟩

/-- A model in which a record comes before the enumeration that its default needs, in the document
and in order of name. -/
def drafting : Model where
  version := "1.0"
  context := ⟨"Orders", "acme.orders", none⟩
  aggregates := .empty
  valueObjects := ⟨[("Draft", ⟨"Draft", none, .record [stage]⟩),
    ("order_status", ⟨"order_status", none, .enumeration [⟨"open", none⟩, ⟨"InReview", none⟩]⟩)],
    by decide⟩
  events := .empty
  commands := .empty
  queries := .empty
  subscriptions := []
  aliases := ⟨[("Stage", "OrderStatus")], by decide⟩

theorem baseTarget_stage : (Scope.ofModel drafting).baseTarget stage.typeText = "OrderStatus" := by
  have hstage : TypeExpr.parse "Stage" = .leaf "Stage" :=
    TypeExpr.parse_of_isPlainName (by decide)
  have hstatus : TypeExpr.parse "OrderStatus" = .leaf "OrderStatus" :=
    TypeExpr.parse_of_isPlainName (by decide)
  have htarget : (TypeExpr.leaf "Stage").base.target drafting.aliases.entries =
      TypeExpr.plainTarget (TypeExpr.parse "OrderStatus") := rfl
  rw [Scope.baseTarget, stage, hstage]
  refine htarget.trans ?_
  rw [hstatus]
  decide

theorem defaultFate_stage :
    (Scope.ofModel drafting).defaultFate stage = .kept (.member "OrderStatus" "IN_REVIEW") := by
  have hsorted : drafting.valueObjects.sorted = drafting.valueObjects.entries :=
    List.mergeSort_of_pairwise (by decide)
  have hmembers : (Scope.ofModel drafting).members.get? "OrderStatus" =
      some ["OPEN", "IN_REVIEW"] := by
    rw [Scope.ofModel, hsorted]
    decide +kernel
  have htext : (Scope.ofModel drafting).fateOf "OrderStatus" stage.default =
      (Scope.ofModel drafting).memberFate "OrderStatus" "in-review" := rfl
  rw [Scope.defaultFate, baseTarget_stage, htext, Scope.memberFate, hmembers]
  decide +kernel

theorem defaultOf?_stage : defaultOf? ((Scope.ofModel drafting).field stage).initial =
    some (.member "OrderStatus" "IN_REVIEW") := by
  have hdetails : (Scope.ofModel drafting).details stage =
      [.named "description" (.text "The stage.")] := by
    decide +kernel
  rw [Scope.field, Scope.initial, Scope.defaultArgument, defaultFate_stage, hdetails]
  rfl

end Model

end Groundplan
