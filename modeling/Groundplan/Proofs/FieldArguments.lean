import Groundplan.Proofs.InitialText
import Groundplan.Proofs.Presentation
import Groundplan.Proofs.TypeClassifiers

/-!
# The arguments of fields

What is said of a field besides its type is a default and a list of details, and both depend on the
type. A default is kept in the form that the type has for it, and otherwise the field starts with an
empty list, with nothing or not at all. A constraint is a detail if the type inside the options
admits it. Here is what can become of each of them, and how the texts of fields differ that differ
in them.
-/

namespace Groundplan

open Source

namespace TypeExpr

theorem length_targetWith_base_le (named : String → String) (expr : TypeExpr) :
    (targetWith named expr.base).length ≤ (targetWith named expr).length := by
  induction expr with
  | leaf => exact Nat.le_refl _
  | wrapped text wrapper inner ih =>
      cases wrapper with
      | option =>
          refine Nat.le_trans ih ?_
          rw [targetWith, Wrapper.around, String.length_append, String.length_append]
          omega
      | list | vec | paged => exact Nat.le_refl _

end TypeExpr

namespace Scope

open TypeExpr (IsOption)

/-! ### Targets -/

theorem target_of_option (s : Scope) {text inner : String}
    (h : Text.strip text = Wrapper.option.opening ++ inner ++ ">") :
    s.target text = "Optional[" ++ (s.target inner ++ "]") := by
  rw [target, TypeExpr.parse_of_wrapped h, ← String.append_assoc]
  rfl

theorem head?_target_of_isOption (s : Scope) {text : String} (h : IsOption (Text.strip text)) :
    (s.target text).toList.head? = some 'O' := by
  obtain ⟨inner, heq⟩ := h
  rw [s.target_of_option heq]
  exact head?_append_of_head? (by decide) _

theorem head?_baseTarget_of_isList (s : Scope) {text : String}
    (h : (TypeExpr.parse text).isList = true) : (s.baseTarget text).toList.head? = some 'l' := by
  obtain ⟨wrapper, hwrapper, inner, heq⟩ := (TypeExpr.isList_parse_iff text).1 h
  rw [← TypeExpr.strip_baseText] at heq
  have htarget : s.baseTarget text = "list[" ++ (s.target inner ++ "]") := by
    rw [baseTarget, ← TypeExpr.parse_baseText, TypeExpr.parse_of_wrapped heq, TypeExpr.target,
      TypeExpr.targetWith, TypeExpr.around_of_mem hwrapper, String.append_assoc]
    rfl
  rw [htarget]
  exact head?_append_of_head? (by decide) _

theorem baseTarget_of_not_isOption (s : Scope) {text : String} (h : ¬ IsOption (Text.strip text)) :
    s.baseTarget text = s.target text := by
  rw [baseTarget, TypeExpr.base_parse_of_not_isOption h, target]

theorem length_baseTarget_lt (s : Scope) {text : String} (h : IsOption (Text.strip text)) :
    (s.baseTarget text).length < (s.target text).length := by
  obtain ⟨inner, heq⟩ := h
  have hinner : (s.baseTarget text).length ≤ (s.target inner).length := by
    rw [baseTarget, TypeExpr.base_parse_of_option heq]
    exact TypeExpr.length_targetWith_base_le _ _
  rw [s.target_of_option heq, String.length_append, String.length_append]
  have hclosing : "]".length = 1 := by decide
  omega

/-! ### Constraints -/

/-- The keywords of the arguments of a field, besides that of an empty list. -/
def fieldKeywords : List String :=
  ["alias", "description", "ge", "le", "min_length", "max_length", "pattern", "decimal_places"]

section Constraints

variable {s s' : Scope} {p p' : Property}

/-- A constraint is judged by the type without its options and by whether that is a list. -/
theorem constraints_congr (hrules : p.rules = p'.rules)
    (hbase : s.baseTarget p.typeText = s'.baseTarget p'.typeText)
    (hlist : (TypeExpr.parse p.typeText).isList = (TypeExpr.parse p'.typeText).isList) :
    s.constraints p = s'.constraints p' := by
  unfold constraints
  rw [hrules, hbase, hlist]

/-- Each constraint has its keyword and is admitted by the types it is made for. -/
theorem of_mem_constraints {c : Constraint} (h : c ∈ s.constraints p) :
    c.keyword ∈ fieldKeywords ∧
      (c.admitted = true →
        s.baseTarget p.typeText ∈ ["int", "Decimal", "str"] ∨
          (TypeExpr.parse p.typeText).isList = true) := by
  unfold constraints at h
  split at h
  · cases h
  next rules _ =>
    simp only [List.mem_filterMap, id_eq, exists_eq_right, List.mem_cons, List.not_mem_nil,
      or_false, eq_comm (a := some c), Option.map_eq_some_iff] at h
    rcases h with ⟨x, -, rfl⟩ | ⟨x, -, rfl⟩ | ⟨n, -, rfl⟩ | ⟨n, -, rfl⟩ | ⟨text, -, rfl⟩ |
      ⟨n, -, rfl⟩
    all_goals
      refine ⟨by simp [fieldKeywords], ?_⟩
      simp only [Bool.or_eq_true, decide_eq_true_eq, List.mem_cons, List.not_mem_nil, or_false]
      tauto

theorem exists_of_mem_details {a : Argument} (h : a ∈ s.details p) :
    ∃ keyword ∈ fieldKeywords, ∃ e, a = .named keyword e := by
  rcases List.mem_append.1 h with h | h
  · rcases List.mem_append.1 h with h | h
    · split at h
      · cases h
      · exact ⟨"alias", by decide, _, List.mem_singleton.1 h⟩
    · split at h
      · cases h
      · cases h
      · exact ⟨"description", by decide, _, List.mem_singleton.1 h⟩
  · obtain ⟨c, hc, rfl⟩ := List.mem_map.1 h
    exact ⟨c.keyword, (of_mem_constraints (List.mem_filter.1 hc).1).1, c.value, rfl⟩

end Constraints

/-- The arguments for the constraints that the type of a property admits. -/
def demands (s : Scope) (p : Property) : List Argument :=
  ((s.constraints p).filter Constraint.admitted).map fun c => .named c.keyword c.value

theorem demands_eq_nil_iff (s : Scope) (p : Property) :
    s.demands p = [] ↔ ∀ c ∈ s.constraints p, c.admitted = false := by
  simp [demands, List.filter_eq_nil_iff]

/-- What a type admits constraints for does not look like an option. -/
theorem startsApart_baseTarget {s : Scope} {p : Property} (h : s.demands p ≠ []) :
    StartsApart 'O' (s.baseTarget p.typeText) := by
  have hbases : ∀ base ∈ ["int", "Decimal", "str"], StartsApart 'O' base := by decide
  rw [Ne, demands_eq_nil_iff] at h
  push Not at h
  obtain ⟨c, hc, hadmitted⟩ := h
  rcases (of_mem_constraints hc).2 (by simpa using hadmitted) with hbase | hlist
  · exact hbases _ hbase
  · rw [StartsApart, s.head?_baseTarget_of_isList hlist]
    decide

theorem textSize_demands {s : Scope} {p : Property} (h : s.demands p ≠ []) :
    5 ≤ textSize (s.demands p) := by
  have hlengths : ∀ keyword ∈ fieldKeywords, 2 ≤ keyword.length := by decide
  obtain ⟨a, rest, heq⟩ := List.exists_cons_of_ne_nil h
  have hmem : a ∈ s.demands p := by
    rw [heq]
    exact List.mem_cons_self
  obtain ⟨keyword, hkeyword, e, rfl⟩ := exists_of_mem_details (List.mem_append_right _ hmem)
  have hrender : (Argument.named keyword e).render = keyword ++ "=" ++ e.render := rfl
  have hequals : "=".length = 1 := by decide
  have hlength := hlengths keyword hkeyword
  rw [heq, textSize, hrender, String.length_append, String.length_append]
  omega

/-! ### Defaults -/

/-- A default is kept in the form that the type has for it. -/
theorem fateOf_kept_cases {s : Scope} {base : String} {value : Value} {e : Expr}
    (h : s.fateOf base value = .kept e) :
    ∃ x, value = .scalar x ∧
      ((∃ b, x = .bool b ∧ base = "bool" ∧ e = Expr.ofBool b) ∨
        (∃ n, x = .int n ∧ base = "int" ∧ e = .integer n) ∨
        (∃ text, base = "Decimal" ∧ e = .decimal text) ∨
        (∃ text, x = .str text ∧ base = "str" ∧ e = .text text) ∨
        ∃ text, x = .str text ∧ e = .member base (Name.constant text)) := by
  unfold fateOf at h
  split at h
  case h_1 => cases h
  case h_2 b =>
    split_ifs at h with hbase
    cases h
    exact ⟨_, rfl, .inl ⟨b, rfl, hbase, rfl⟩⟩
  case h_3 n =>
    split_ifs at h with hdecimal hint
    · cases h
      exact ⟨_, rfl, .inr (.inr (.inl ⟨_, hdecimal, rfl⟩))⟩
    · cases h
      exact ⟨_, rfl, .inr (.inl ⟨n, rfl, hint, rfl⟩)⟩
  case h_4 x =>
    split_ifs at h with hdecimal
    cases h
    exact ⟨_, rfl, .inr (.inr (.inl ⟨_, hdecimal, rfl⟩))⟩
  case h_5 text =>
    split_ifs at h with hdecimal hstr
    · cases h
      exact ⟨_, rfl, .inr (.inr (.inl ⟨_, hdecimal, rfl⟩))⟩
    · cases h
      exact ⟨_, rfl, .inr (.inr (.inr (.inl ⟨text, rfl, hstr, rfl⟩)))⟩
    · unfold memberFate at h
      split at h
      next => cases h
      next =>
        split_ifs at h
        cases h
        exact ⟨_, rfl, .inr (.inr (.inr (.inr ⟨text, rfl, rfl⟩)))⟩
  case h_6 => cases h

/-- Nothing that is kept of a default looks as if there were none. -/
theorem render_ne_of_kept {s : Scope} {base : String} {value : Value} {e : Expr}
    (h : s.fateOf base value = .kept e) : e.render ≠ "None" := by
  have hchar {c : Char} (hc : c ∉ "None".toList) {text : String} (hmem : c ∈ text.toList) :
      text ≠ "None" := fun heq => hc (heq ▸ hmem)
  obtain ⟨-, -, ⟨b, -, -, rfl⟩ | ⟨n, -, -, rfl⟩ | ⟨text, -, rfl⟩ | ⟨text, -, -, rfl⟩ |
    ⟨text, -, rfl⟩⟩ := fateOf_kept_cases h
  · cases b <;> decide
  · intro heq
    have hdigit (m : Nat) : 'N' ∉ (Text.decimal m).toList := fun hmem => by
      have := Nat.isDigit_of_mem_toDigits (by decide) (by decide) (String.toList_ofList ▸ hmem)
      exact absurd this (by decide)
    have hmem : 'N' ∈ (Text.decimalInt n).toList := by
      rw [show Text.decimalInt n = "None" from heq]
      decide
    cases n with
    | ofNat n => exact hdigit n hmem
    | negSucc n =>
        rw [Text.decimalInt, String.toList_append, List.mem_append] at hmem
        exact hmem.elim (by decide) (hdigit (n + 1))
  · exact hchar (c := 'D') (by decide) (by simp [Expr.render])
  · exact hchar (c := '"') (by decide) (by simp [Expr.render, Text.literal, Text.literalChars])
  · exact hchar (c := '.') (by decide) (by simp [Expr.render])

/-- What a field starts with where nothing is kept of its default. -/
def unset (p : Property) : Option Argument :=
  if p.required then none else some (.positional (.constant .none))

theorem defaultArgument_of_kept {s : Scope} {p : Property} {e : Expr}
    (h : s.defaultFate p = .kept e) : s.defaultArgument p = some (.positional e) := by
  rw [defaultArgument, h]

theorem defaultArgument_of_not_kept {s : Scope} {p : Property}
    (h : ∀ e, s.defaultFate p ≠ .kept e) :
    s.defaultArgument p =
      if startsEmpty p then some (.named "default_factory" (.constant .list)) else unset p := by
  unfold defaultArgument
  split
  next e hkept => exact absurd hkept (h e)
  next => rfl

theorem startsEmpty_of_kept {s : Scope} {p : Property} {e : Expr}
    (h : s.defaultFate p = .kept e) : startsEmpty p = false := by
  obtain ⟨x, hvalue, -⟩ := fateOf_kept_cases h
  rw [startsEmpty, hvalue]
  rfl

theorem keyword_of_mem_unset {p : Property} {a : Argument} (h : a ∈ unset p) :
    a.keyword = none := by
  unfold unset at h
  split_ifs at h
  · cases h
  · cases h
    rfl

/-- Of a text, a member of an enumeration is kept or else something that does not look like an
option. -/
theorem defaultArgument_of_text {s : Scope} {p : Property} {text : String}
    (hvalue : p.default = .scalar (.str text)) {a : Argument} (h : s.defaultArgument p = some a) :
    a = .positional (.member (s.baseTarget p.typeText) (Name.constant text)) ∨
      StartsApart 'O' a.render := by
  by_cases hkept : ∃ e, s.defaultFate p = .kept e
  · obtain ⟨e, hkept⟩ := hkept
    rw [defaultArgument_of_kept hkept, Option.some.injEq] at h
    rw [← h]
    obtain ⟨x, hx, hcases⟩ := fateOf_kept_cases hkept
    obtain rfl : x = .str text := by
      rw [hvalue] at hx
      cases hx
      rfl
    rcases hcases with ⟨b, hb, -⟩ | ⟨n, hn, -⟩ | ⟨digits, -, rfl⟩ | ⟨text', -, -, rfl⟩ |
      ⟨text', htext, rfl⟩
    · cases hb
    · cases hn
    · have hopening : StartsApart 'O' "Decimal(" := by decide
      exact .inr ((hopening.append (Text.literal digits)).append ")")
    · refine .inr ?_
      rw [StartsApart, Argument.positional, Argument.render, Expr.render, Text.literal,
        String.toList_ofList]
      rfl
    · cases htext
      exact .inl rfl
  · have hempty : startsEmpty p = false := by
      rw [startsEmpty, hvalue]
      rfl
    rw [defaultArgument_of_not_kept (not_exists.1 hkept), hempty, unset] at h
    simp only [Bool.false_eq_true, if_false] at h
    split_ifs at h
    cases h
    exact .inr (by decide)

/-! ### Texts of fields -/

theorem initial_eq (s : Scope) (p : Property) :
    s.initial p =
      initialOf (s.defaultArgument p) (labels (Name.member p.name) p ++ s.demands p) := by
  rfl

theorem line_field (s : Scope) (p : Property) :
    (s.field p).line = Name.member p.name ++ ": " ++ s.hint p ++ (s.initial p).render := by
  unfold Declaration.line field
  dsimp only

theorem startsApart_of_mem_details {s : Scope} {p : Property} {a : Argument}
    (h : a ∈ s.details p) : StartsApart 'O' a.render := by
  have hkeywords : ∀ keyword ∈ fieldKeywords, StartsApart 'O' keyword := by decide
  obtain ⟨keyword, hkeyword, e, rfl⟩ := exists_of_mem_details h
  exact ((hkeywords keyword hkeyword).append "=").append e.render

/-- A default that is kept is told from none. -/
theorem render_unset_ne_of_kept {s : Scope} {p : Property} {e : Expr}
    (hkept : s.defaultFate p = .kept e) :
    (initialOf (unset p) (labels (Name.member p.name) p)).render ≠ (s.initial p).render := by
  have hpositional : textSize [.positional e] = e.render.length + 2 := rfl
  have hunset : textSize (Option.toList (some (.positional (.constant .none)))) = 6 := by decide
  intro htext
  rw [initial_eq, defaultArgument_of_kept hkept] at htext
  have hsize := textSize_le_of_render_eq (fun a => keyword_of_mem_unset) htext
  rw [Option.toList_some, hpositional] at hsize
  unfold unset at htext hsize
  split_ifs at htext hsize
  · exact absurd hsize (by simp [textSize])
  · rw [hunset] at hsize
    by_cases hdemands : s.demands p = []
    · rw [hdemands, List.append_nil] at htext
      exact Scope.render_ne_of_kept hkept (render_eq_of_initialOf htext).symm
    · have := textSize_demands hdemands
      omega

/-! ### Fields that cannot be rendered -/

/-- What rendering a property as a field comes to. -/
def rendered (s : Scope) (p : Property) : Except Failure (List String) :=
  (s.fieldTrail p).result (s.field p).lines

/-- Whether the type of a property admits a constraint with a number that cannot be written. -/
def demandsUnwritable (s : Scope) (p : Property) : Bool :=
  (s.constraints p).any fun c => c.admitted && c.isUnwritable

theorem rendered_eq (s : Scope) (p : Property) :
    s.rendered p =
      if TypeExpr.depthLimit < s.levels p.typeText then .error .deepType
      else p.default.display.mapError (fun why => .ofObstacle why.obstacle) >>= fun _ =>
        if s.demandsUnwritable p = true then .error .unwritableNumber
        else .ok (s.field p).lines := by
  have htype : (s.typeTrail p.typeText).obstacle =
      if TypeExpr.depthLimit < s.levels p.typeText then some .deepType else none := by
    unfold typeTrail TypeExpr.isTooDeep levels
    simp only [decide_eq_true_eq]
    split <;> rfl
  have hconstraints : (s.constraintTrail p).obstacle =
      if s.demandsUnwritable p = true then some .unwritableNumber else none := by
    unfold constraintTrail demandsUnwritable
    split <;> rfl
  unfold rendered Trail.result fieldTrail
  rw [Trail.obstacle_append, Trail.obstacle_append, htype, hconstraints]
  by_cases hdeep : TypeExpr.depthLimit < s.levels p.typeText
  · rw [if_pos hdeep, if_pos hdeep]
    rfl
  · rw [if_neg hdeep, if_neg hdeep]
    unfold defaultTrail
    cases p.default.display with
    | error why => rfl
    | ok shown =>
        by_cases hdemand : s.demandsUnwritable p = true
        · rw [if_pos hdemand]
          exact (if_pos hdemand).symm
        · rw [if_neg hdemand]
          exact (if_neg hdemand).symm

end Scope

end Groundplan
