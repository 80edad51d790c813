import Groundplan.Proofs.FieldArguments
import Groundplan.Proofs.NameCapture

/-!
# Fields whose type is an alias

An alias names a type, and a property may have the name for its type in place of what it stands for.
Both have the same target, so the field has the same type hint. What else is said of the field is
decided by the form of the type: which constraints it admits, which default it can hold, whether it
may start as an empty list. That is taken partly from the text of the type and partly from the
target without the outer options of the text, and an alias has neither a list nor an option in its
text.

So an alias is as good as what it stands for, unless that is an option or a list. For those the
constraints are lost, and so are the empty list of a list and the default of an option. The field is
the same exactly if there is nothing to lose. Besides, the alias counts for one level of the type.
-/

namespace Groundplan

open Source

/-- Whether a text is an option or a list. -/
def TypeExpr.IsOptionOrList (text : String) : Prop :=
  IsOption (Text.strip text) ∨ (parse text).isList = true

/-- The property with another type. -/
def Property.retyped (p : Property) (typeText : String) : Property :=
  { p with typeText := typeText }

namespace Scope

open TypeExpr (IsWrapped IsOption IsOptionOrList)

/-- A type is an alias, and what it stands for. -/
structure Names (s : Scope) (typeText meaning : String) : Prop where
  leaf : ¬ IsWrapped (Text.strip typeText)
  own : Text.strip typeText ∉ TypeExpr.primitives.map Prod.fst
  get : s.aliases.get? (Text.strip typeText) = some meaning

/-- Nothing is lost of a property when its type is given by an alias. An option or a list must not
have constraints that it admits, a list must not start empty, and of the default of an option nothing
may be kept, with the alias or without it. -/
structure LosesNothing (s : Scope) (p : Property) (meaning : String) : Prop where
  constraints : IsOptionOrList meaning →
    ∀ c ∈ s.unaliased.constraints (p.retyped meaning), c.admitted = false
  empty : startsEmpty (p.retyped meaning) = false
  default : IsOption (Text.strip meaning) →
    (∀ e, s.defaultFate p ≠ .kept e) ∧
      ∀ e, s.unaliased.defaultFate (p.retyped meaning) ≠ .kept e

/-! ### The type -/

section Alias

variable {s : Scope} {text meaning : String}

theorem Names.parse_eq (h : s.Names text meaning) :
    TypeExpr.parse text = .leaf (Text.strip text) :=
  TypeExpr.parse_of_not_isWrapped h.leaf

theorem Names.target_eq (h : s.Names text meaning) :
    s.target text = s.unaliased.target meaning := by
  have hprimitive := (Catalog.lookup_eq_none_iff_not_mem _ _).2 h.own
  rw [target, h.parse_eq]
  exact TypeExpr.target_leaf_of_alias hprimitive h.get

theorem Names.baseTarget_eq (h : s.Names text meaning) :
    s.baseTarget text = s.unaliased.target meaning := by
  rw [← h.target_eq, baseTarget, target, h.parse_eq]
  rfl

theorem Names.isList_eq_false (h : s.Names text meaning) :
    (TypeExpr.parse text).isList = false := by
  rw [h.parse_eq]
  rfl

/-- An alias is one level above what it stands for. -/
theorem Names.levels_eq (h : s.Names text meaning) :
    s.levels text = s.unaliased.levels meaning + 1 := by
  have hunaliased : s.unaliased.aliasLevels (TypeExpr.parse meaning).tree.name = 0 := by
    unfold aliasLevels
    split
    · rfl
    · rfl
  rw [s.levels_eq, s.unaliased.levels_eq, hunaliased, h.parse_eq, TypeExpr.tree, TypeTree.levels,
    TypeTree.name, aliasLevels, if_neg h.own, h.get]
  exact Nat.zero_add _

end Alias

/-! ### Constraints -/

section Alias

variable {s : Scope} {p : Property} {meaning : String}

/-- An alias for an option or a list admits no constraint. -/
theorem Names.demands_eq_nil (h : s.Names p.typeText meaning)
    (hform : IsOptionOrList meaning) : s.demands p = [] := by
  have hheads : ∀ base ∈ ["int", "Decimal", "str"],
      base.toList.head? ≠ some 'O' ∧ base.toList.head? ≠ some 'l' := by
    decide
  rw [demands_eq_nil_iff]
  intro c hc
  rw [← Bool.not_eq_true]
  intro hadmitted
  rcases (of_mem_constraints hc).2 hadmitted with hbase | hlist
  · rw [h.baseTarget_eq] at hbase
    by_cases hoption : IsOption (Text.strip meaning)
    · exact (hheads _ hbase).1 (head?_target_of_isOption _ hoption)
    · have hhead := s.unaliased.head?_baseTarget_of_isList (hform.resolve_left hoption)
      rw [baseTarget_of_not_isOption _ hoption] at hhead
      exact (hheads _ hbase).2 hhead
  · rw [h.isList_eq_false] at hlist
    cases hlist

/-- All that an alias for an option can keep is a member of an enumeration, and that is named like
an option. -/
theorem Names.of_kept (h : s.Names p.typeText meaning) (hoption : IsOption (Text.strip meaning))
    {e : Expr} (hkept : s.defaultFate p = .kept e) :
    ∃ text, p.default = .scalar (.str text) ∧
      e = .member (s.unaliased.target meaning) (Name.constant text) := by
  have hhead := s.unaliased.head?_target_of_isOption hoption
  have hheads : ∀ base ∈ ["bool", "int", "Decimal", "str"], base.toList.head? ≠ some 'O' := by
    decide
  have hother : ∀ base ∈ ["bool", "int", "Decimal", "str"], s.baseTarget p.typeText ≠ base := by
    intro base hmem heq
    rw [← h.baseTarget_eq, heq] at hhead
    exact hheads base hmem hhead
  obtain ⟨x, hvalue, ⟨-, -, heq, -⟩ | ⟨-, -, heq, -⟩ | ⟨-, heq, -⟩ | ⟨-, -, heq, -⟩ |
    ⟨text, rfl, rfl⟩⟩ := fateOf_kept_cases hkept
  · exact absurd heq (hother _ (by decide))
  · exact absurd heq (hother _ (by decide))
  · exact absurd heq (hother _ (by decide))
  · exact absurd heq (hother _ (by decide))
  · exact ⟨text, hvalue, by rw [h.baseTarget_eq]⟩

/-- What an alias for an option keeps of a default is not kept without the alias. -/
theorem Names.render_ne_of_kept (h : s.Names p.typeText meaning)
    (hoption : IsOption (Text.strip meaning)) {e : Expr} (hkept : s.defaultFate p = .kept e) :
    (initialOf (some (.positional e)) (labels (Name.member p.name) p)).render ≠
      (s.unaliased.initial (p.retyped meaning)).render := by
  obtain ⟨text, hvalue, rfl⟩ := h.of_kept hoption hkept
  have hhead : (Expr.member (s.unaliased.target meaning) (Name.constant text)).render.toList.head? =
      some 'O' := by
    rw [Expr.render, String.append_assoc]
    exact head?_append_of_head? (head?_target_of_isOption _ hoption) _
  -- The text goes on with the option, or else with a keyword or something of another form.
  have happart (hdefault : ∀ a, s.unaliased.defaultArgument (p.retyped meaning) = some a →
      StartsApart 'O' a.render) :
      (initialOf (some (.positional (.member (s.unaliased.target meaning) (Name.constant text))))
        (labels (Name.member p.name) p)).render ≠
        (s.unaliased.initial (p.retyped meaning)).render := by
    refine render_initialOf_ne_of_head hhead (by decide) fun a ha => ?_
    rcases List.mem_append.1 ha with ha | ha
    · exact hdefault a (Option.mem_toList.1 ha)
    · exact startsApart_of_mem_details (s := s.unaliased) (p := p.retyped meaning) ha
  cases hdefault : s.unaliased.defaultArgument (p.retyped meaning) with
  | none =>
      refine happart fun a ha => ?_
      rw [hdefault] at ha
      cases ha
  | some a =>
      rw [hdefault] at happart
      rcases defaultArgument_of_text (p := p.retyped meaning) hvalue hdefault with rfl | hother
      · by_cases hdemands : s.unaliased.demands (p.retyped meaning) = []
        · -- Both are members with one name, of types that differ in length.
          intro htext
          rw [initial_eq, hdefault, hdemands, List.append_nil] at htext
          have hmember := render_eq_of_initialOf htext
          simp only [Expr.render, String.append_left_inj] at hmember
          have hlt := s.unaliased.length_baseTarget_lt hoption
          rw [hmember] at hlt
          exact absurd hlt (Nat.lt_irrefl _)
        · refine happart fun a ha => ?_
          rw [← Option.some.inj ha]
          exact ((startsApart_baseTarget hdemands).append ".").append (Name.constant text)
      · exact happart fun b hb => Option.some.inj hb ▸ hother

theorem Names.startsEmpty_eq_false (h : s.Names p.typeText meaning) : startsEmpty p = false := by
  unfold startsEmpty
  split
  · exact h.isList_eq_false
  · rfl

/-- What is kept of a default depends on the options around the type only. -/
theorem Names.defaultFate_eq (h : s.Names p.typeText meaning)
    (hplain : ¬ IsOption (Text.strip meaning)) :
    s.defaultFate p = s.unaliased.defaultFate (p.retyped meaning) := by
  rw [defaultFate, h.baseTarget_eq, ← baseTarget_of_not_isOption _ hplain]
  rfl

theorem Names.constraints_eq (h : s.Names p.typeText meaning)
    (hplain : ¬ IsOption (Text.strip meaning)) (hlist : ¬ (TypeExpr.parse meaning).isList = true) :
    s.constraints p = s.unaliased.constraints (p.retyped meaning) := by
  refine constraints_congr rfl ?_ ?_
  · rw [h.baseTarget_eq]
    exact (baseTarget_of_not_isOption _ hplain).symm
  · rw [h.isList_eq_false]
    exact (Bool.eq_false_iff.2 hlist).symm

/-- What is neither an option nor a list loses nothing. -/
theorem losesNothing_of_form (hform : ¬ IsOptionOrList meaning) : s.LosesNothing p meaning := by
  obtain ⟨hplain, hlist⟩ := not_or.1 hform
  refine ⟨(absurd · hform), ?_, (absurd · hplain)⟩
  unfold startsEmpty
  split
  · exact Bool.eq_false_iff.2 hlist
  · rfl

/-- Where nothing is kept of the default with the alias, the same text shows that nothing is
lost. -/
theorem losesNothing_of_not_kept (hnone : ∀ e, s.defaultFate p ≠ .kept e)
    (htext : (initialOf (unset p) (labels (Name.member p.name) p)).render =
      (s.unaliased.initial (p.retyped meaning)).render) : s.LosesNothing p meaning := by
  have hunset : textSize (unset p).toList ≤ 6 := by
    unfold unset
    split <;> decide
  have hnone' : ∀ e, s.unaliased.defaultFate (p.retyped meaning) ≠ .kept e := fun e hkept =>
    render_unset_ne_of_kept hkept htext
  rw [initial_eq] at htext
  have hsize := textSize_le_of_render_eq (fun a => keyword_of_mem_unset) htext
  rw [defaultArgument_of_not_kept hnone'] at hsize
  cases hempty : startsEmpty (p.retyped meaning) with
  | true =>
      have hfactory : textSize [.named "default_factory" (.constant .list)] = 22 := by decide
      rw [hempty, if_pos rfl, Option.toList_some, hfactory] at hsize
      omega
  | false =>
      have hdemands : s.unaliased.demands (p.retyped meaning) = [] := by
        rw [hempty] at hsize
        exact eq_nil_of_textSize_le (Nat.le_of_add_le_add_left hsize)
      exact ⟨fun _ => (demands_eq_nil_iff _ _).1 hdemands, hempty, fun _ => ⟨hnone, hnone'⟩⟩

/-- With an alias for an option or a list, the same text shows that nothing is lost. -/
theorem Names.losesNothing_of_render_eq (h : s.Names p.typeText meaning)
    (hform : IsOptionOrList meaning)
    (htext : (s.initial p).render = (s.unaliased.initial (p.retyped meaning)).render) :
    s.LosesNothing p meaning := by
  rw [initial_eq s p, h.demands_eq_nil hform, List.append_nil] at htext
  by_cases hkept : ∃ e, s.defaultFate p = .kept e
  · obtain ⟨e, hkept⟩ := hkept
    rw [defaultArgument_of_kept hkept] at htext
    have hplain : ¬ IsOption (Text.strip meaning) := fun hoption =>
      h.render_ne_of_kept hoption hkept htext
    have hkept' := (h.defaultFate_eq hplain).symm.trans hkept
    rw [initial_eq, defaultArgument_of_kept hkept'] at htext
    have hsize := textSize_le_of_render_eq (fun a ha => by cases ha; rfl) htext
    have hdemands := eq_nil_of_textSize_le (Nat.le_of_add_le_add_left hsize)
    exact ⟨fun _ => (demands_eq_nil_iff _ _).1 hdemands, startsEmpty_of_kept hkept',
      (absurd · hplain)⟩
  · have hnone := not_exists.1 hkept
    rw [defaultArgument_of_not_kept hnone, h.startsEmpty_eq_false] at htext
    exact losesNothing_of_not_kept hnone htext

theorem LosesNothing.defaultArgument_eq (hnothing : s.LosesNothing p meaning)
    (h : s.Names p.typeText meaning) :
    s.defaultArgument p = s.unaliased.defaultArgument (p.retyped meaning) := by
  by_cases hoption : IsOption (Text.strip meaning)
  · obtain ⟨hnone, hnone'⟩ := hnothing.default hoption
    rw [defaultArgument_of_not_kept hnone, defaultArgument_of_not_kept hnone',
      h.startsEmpty_eq_false, hnothing.empty]
    rfl
  · unfold defaultArgument
    rw [h.defaultFate_eq hoption, h.startsEmpty_eq_false, hnothing.empty]
    rfl

theorem LosesNothing.demands_eq (hnothing : s.LosesNothing p meaning)
    (h : s.Names p.typeText meaning) :
    s.demands p = s.unaliased.demands (p.retyped meaning) := by
  by_cases hform : IsOptionOrList meaning
  · rw [h.demands_eq_nil hform]
    exact ((demands_eq_nil_iff _ _).2 (hnothing.constraints hform)).symm
  · obtain ⟨hplain, hlist⟩ := not_or.1 hform
    rw [demands, demands, h.constraints_eq hplain hlist]

/-- The text of the initial value is the same exactly if nothing is lost. -/
theorem Names.render_initial_eq_iff (h : s.Names p.typeText meaning) :
    (s.initial p).render = (s.unaliased.initial (p.retyped meaning)).render ↔
      s.LosesNothing p meaning := by
  constructor
  · intro htext
    by_cases hform : IsOptionOrList meaning
    · exact h.losesNothing_of_render_eq hform htext
    · exact losesNothing_of_form hform
  · intro hnothing
    rw [initial_eq, initial_eq, hnothing.defaultArgument_eq h, hnothing.demands_eq h]
    rfl

theorem Names.hint_eq (h : s.Names p.typeText meaning) :
    s.hint p = s.unaliased.hint (p.retyped meaning) := by
  rw [hint, h.target_eq]
  rfl

/-- The lines of the field are the same exactly if nothing is lost. -/
theorem Names.lines_eq_iff (h : s.Names p.typeText meaning) :
    (s.field p).lines = (s.unaliased.field (p.retyped meaning)).lines ↔
      s.LosesNothing p meaning := by
  have hline : (s.field p).line = (s.unaliased.field (p.retyped meaning)).line ↔
      s.LosesNothing p meaning := by
    rw [line_field, line_field, h.hint_eq, ← h.render_initial_eq_iff]
    exact String.append_right_inj _
  have hcomment : (s.unaliased.field (p.retyped meaning)).comment = (s.field p).comment := rfl
  rw [← hline]
  unfold Declaration.lines
  rw [hcomment]
  split <;> simp

/-! ### Fields that cannot be rendered -/

/-- An alias for an option or a list demands nothing, so nothing that cannot be written. -/
theorem Names.demandsUnwritable_eq_false (h : s.Names p.typeText meaning)
    (hform : IsOptionOrList meaning) : s.demandsUnwritable p = false := by
  have hnone := (demands_eq_nil_iff s p).1 (h.demands_eq_nil hform)
  refine List.any_eq_false.2 fun c hc => ?_
  rw [hnone c hc]
  exact Bool.false_ne_true

theorem LosesNothing.demandsUnwritable_eq (hnothing : s.LosesNothing p meaning)
    (h : s.Names p.typeText meaning) :
    s.demandsUnwritable p = s.unaliased.demandsUnwritable (p.retyped meaning) := by
  by_cases hform : IsOptionOrList meaning
  · rw [h.demandsUnwritable_eq_false hform]
    refine (List.any_eq_false.2 fun c hc => ?_).symm
    rw [hnothing.constraints hform c hc]
    exact Bool.false_ne_true
  · obtain ⟨hplain, hlist⟩ := not_or.1 hform
    rw [demandsUnwritable, demandsUnwritable, h.constraints_eq hplain hlist]

theorem Names.rendered_eq_of_levels_lt (h : s.Names p.typeText meaning)
    (hlevels : s.unaliased.levels meaning < TypeExpr.depthLimit) :
    s.rendered p = s.unaliased.rendered (p.retyped meaning) ↔
      p.default.display? = none ∨ s.LosesNothing p meaning := by
  have hdeep : ¬ TypeExpr.depthLimit < s.levels p.typeText := by
    rw [h.levels_eq]
    omega
  have hdeep' : ¬ TypeExpr.depthLimit < s.unaliased.levels (p.retyped meaning).typeText :=
    Nat.not_lt_of_lt hlevels
  have hdefault : (p.retyped meaning).default = p.default := rfl
  rw [rendered_eq, rendered_eq, if_neg hdeep, if_neg hdeep', hdefault]
  unfold Value.display?
  cases p.default.display with
  | error why => exact iff_of_true rfl (.inl rfl)
  | ok shown =>
      have hshown : (Except.ok shown : Except Unshowable String).toOption ≠ none :=
        Option.some_ne_none shown
      rw [or_iff_right hshown]
      constructor
      · intro heq
        by_contra hlost
        -- What is lost is lost of an option or a list, and there the alias demands nothing.
        have hform := not_not.1 fun hform => hlost (losesNothing_of_form hform)
        change (if _ then _ else _) = (if _ then _ else _) at heq
        rw [if_neg (by simp [h.demandsUnwritable_eq_false hform])] at heq
        split at heq
        · cases heq
        · exact hlost (h.lines_eq_iff.1 (Except.ok.inj heq))
      · intro hnothing
        rw [hnothing.demandsUnwritable_eq h, h.lines_eq_iff.2 hnothing]

end Alias

/-- An alias gives a field the type hint of what it stands for. The field is rendered the same way
exactly if nothing is lost, as it is for everything but options and lists. Where the default cannot
be written or the type is too deep in any case, there is no field either way. At the limit of depth
the alias is one level too many. -/
theorem rendered_alias_eq_iff (s : Scope) {p : Property} {meaning : String}
    (h : s.Names p.typeText meaning) :
    s.hint p = s.unaliased.hint (p.retyped meaning) ∧
      (¬ IsOptionOrList meaning → s.LosesNothing p meaning) ∧
      (s.rendered p = s.unaliased.rendered (p.retyped meaning) ↔
        TypeExpr.depthLimit < s.unaliased.levels meaning ∨
          s.unaliased.levels meaning < TypeExpr.depthLimit ∧
            (p.default.display? = none ∨ s.LosesNothing p meaning)) := by
  have htype : (p.retyped meaning).typeText = meaning := rfl
  refine ⟨h.hint_eq, losesNothing_of_form, ?_⟩
  rcases Nat.lt_trichotomy (s.unaliased.levels meaning) TypeExpr.depthLimit with hlt | heq | hgt
  · rw [h.rendered_eq_of_levels_lt hlt, or_iff_right (Nat.not_lt_of_lt hlt), and_iff_right hlt]
  · have hleft : TypeExpr.depthLimit < s.levels p.typeText := by
      rw [h.levels_eq]
      omega
    have hright : ¬ TypeExpr.depthLimit < s.unaliased.levels meaning := by omega
    rw [rendered_eq, rendered_eq, htype, if_pos hleft, if_neg hright]
    refine iff_of_false (fun hsame => ?_) (by omega)
    have hdefault : (p.retyped meaning).default = p.default := rfl
    rw [hdefault] at hsame
    cases hshown : p.default.display with
    | error why =>
        rw [hshown] at hsame
        cases why <;> cases hsame
    | ok shown =>
        rw [hshown] at hsame
        change _ = (if _ then _ else _) at hsame
        split at hsame <;> cases hsame
  · have hleft : TypeExpr.depthLimit < s.levels p.typeText := by
      rw [h.levels_eq]
      omega
    rw [rendered_eq, rendered_eq, htype, if_pos hleft, if_pos hgt]
    exact iff_of_true rfl (.inl hgt)

/-- A scope with a name for amounts and one for lists of texts. -/
def shorthand : Scope :=
  ⟨⟨[("Money", "Decimal"), ("Tags", "List<String>")], by decide⟩, .empty⟩

/-- A total with two places and a default. -/
def total : Property :=
  ⟨"total", "Money", false, true, .scalar (.int 0), none,
    some ⟨none, none, none, none, none, some 2⟩, none⟩

/-- Tags, at least one. -/
def tags : Property :=
  ⟨"tags", "Tags", false, true, .null, none, some ⟨none, none, some 1, none, none, none⟩, none⟩

/-- The places and the default of an amount are seen through its name. -/
theorem total_rendered_through_alias :
    shorthand.Names total.typeText "Decimal" ∧
      shorthand.rendered total = shorthand.unaliased.rendered (total.retyped "Decimal") := by
  have hnames : shorthand.Names total.typeText "Decimal" :=
    ⟨by decide +kernel, by decide +kernel, by decide +kernel⟩
  have hparse := TypeExpr.parse_primitive "Decimal" (by decide)
  obtain ⟨-, hplain, hiff⟩ := rendered_alias_eq_iff shorthand hnames
  refine ⟨hnames, hiff.2 (.inr ⟨?_, .inr (hplain ?_)⟩)⟩
  · rw [levels, hparse]
    decide
  · rintro (⟨inner, heq⟩ | hlist)
    · have hwrapped : TypeExpr.IsWrapped (Text.strip "Decimal") := ⟨.option, inner, heq⟩
      exact absurd hwrapped (by decide +kernel)
    · rw [hparse] at hlist
      cases hlist

/-- Tags are constrained where their type is seen to be a list. -/
theorem rendered_tags (s : Scope) {typeText : String} (htarget : s.target typeText = "list[str]")
    (hbase : s.baseTarget typeText = "list[str]")
    (hlevels : s.levels typeText ≤ TypeExpr.depthLimit) :
    s.rendered (tags.retyped typeText) =
      .ok [if (TypeExpr.parse typeText).isList then "tags: list[str] = Field(min_length=1)"
        else "tags: list[str]"] := by
  have hconstraints : s.constraints (tags.retyped typeText) =
      [⟨"minLength", "min_length", .integer 1, (TypeExpr.parse typeText).isList⟩] := by
    have hbase' : s.baseTarget (tags.retyped typeText).typeText = "list[str]" := hbase
    unfold constraints
    rw [hbase']
    rfl
  have hwritable : s.demandsUnwritable (tags.retyped typeText) = false := by
    have hone : (Text.decimalInt? 1).isNone = false := by decide +kernel
    rw [demandsUnwritable, hconstraints, List.any_cons, List.any_nil, Bool.or_false]
    exact Bool.and_eq_false_imp.2 fun _ => hone
  have hline : (s.field (tags.retyped typeText)).line =
      "tags: list[str]" ++ (initialOf none (s.demands (tags.retyped typeText))).render := by
    have hname : Name.member (tags.retyped typeText).name = "tags" := by
      show Name.member "tags" = "tags"
      decide +kernel
    have hhint : s.hint (tags.retyped typeText) = "list[str]" := htarget
    have hdefault : s.defaultArgument (tags.retyped typeText) = none := rfl
    have hlabels : labels "tags" (tags.retyped typeText) = [] := rfl
    have hstart : "tags" ++ ": " ++ "list[str]" = "tags: list[str]" := by decide
    rw [line_field, initial_eq, hname, hhint, hdefault, hlabels, hstart, List.nil_append]
  have hlines : (s.field (tags.retyped typeText)).lines =
      [(s.field (tags.retyped typeText)).line] := rfl
  have hdemands : s.demands (tags.retyped typeText) =
      if (TypeExpr.parse typeText).isList then [.named "min_length" (.integer 1)] else [] := by
    rw [demands, hconstraints]
    cases (TypeExpr.parse typeText).isList <;> rfl
  have htype : (tags.retyped typeText).typeText = typeText := rfl
  have hshown : (tags.retyped typeText).default.display = .ok "None" := rfl
  have htext : ∀ isList : Bool, "tags: list[str]" ++
      (initialOf none (if isList then [.named "min_length" (.integer 1)] else [])).render =
        if isList then "tags: list[str] = Field(min_length=1)" else "tags: list[str]" := by
    decide +kernel
  rw [rendered_eq, htype, if_neg (Nat.not_lt_of_le hlevels), hshown, hwritable, hlines, hline,
    hdemands, htext]
  rfl

/-- The name of a list of texts hides that there has to be one. -/
theorem tags_without_minimum :
    shorthand.Names tags.typeText "List<String>" ∧
      shorthand.rendered tags = .ok ["tags: list[str]"] ∧
      shorthand.unaliased.rendered (tags.retyped "List<String>") =
        .ok ["tags: list[str] = Field(min_length=1)"] := by
  have hnames : shorthand.Names tags.typeText "List<String>" :=
    ⟨by decide +kernel, by decide +kernel, by decide +kernel⟩
  have hparse := TypeExpr.parse_list_string
  have htarget : shorthand.unaliased.target "List<String>" = "list[str]" := by
    rw [target, hparse]
    decide
  have hbase : shorthand.unaliased.baseTarget "List<String>" = "list[str]" := by
    rw [baseTarget, hparse]
    decide
  have hlevels : shorthand.unaliased.levels "List<String>" = 1 := by
    rw [levels, hparse]
    decide
  have halias := shorthand.rendered_tags (hnames.target_eq.trans htarget)
    (hnames.baseTarget_eq.trans htarget) (by rw [hnames.levels_eq, hlevels]; decide)
  have hlist := shorthand.unaliased.rendered_tags htarget hbase (by rw [hlevels]; decide)
  rw [hnames.isList_eq_false] at halias
  rw [hparse] at hlist
  exact ⟨hnames, halias, hlist⟩

end Scope

end Groundplan
