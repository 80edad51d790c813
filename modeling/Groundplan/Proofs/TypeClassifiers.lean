import Mathlib.Logic.Function.Iterate
import Groundplan.Proofs.TypeGrammar

/-!
# What is said about a type and what it is

Constraints, defaults and query parameters are decided by questions about a type expression: what is
inside its options, whether that is a list, whether it comes down to a primitive. The answers are
taken from the text of the expression alone, and they agree with its target. Taking the options off
takes `Optional` off the target as often, a list has a list for a target, and what comes down to a
primitive has the same target whatever the aliases are. This holds of every text, also of one whose
brackets do not match.

Taking options off has no limit, while a type that is nested too deep has no target. What is inside
of many options may therefore have a target that the whole has not. Asking for a primitive has a
limit of its own on nested lists, which belongs to the rendering of query parameters.
-/

namespace Groundplan

namespace TypeExpr

/-- Whether a text has the form of an expression in an option. -/
def IsOption (text : String) : Prop :=
  ∃ inner, text = Wrapper.option.opening ++ inner ++ ">"

/-- The text of an expression inside all outer options. -/
def baseText (text : String) : String :=
  (parse text).base.text

/-- Options are taken off a text one after another. -/
inductive Peels : Nat → String → String → Prop where
  | done {text : String} : Peels 0 text (Text.strip text)
  | option {count : Nat} {text inner base : String}
      (htext : Text.strip text = Wrapper.option.opening ++ inner ++ ">")
      (hinner : Peels count inner base) : Peels (count + 1) text base

/-- A text that is the name of a primitive inside lists and options. -/
inductive HoldsPrimitive : String → Prop where
  | primitive {text : String} (h : Text.strip text ∈ primitives.map Prod.fst) : HoldsPrimitive text
  | wrapped {text inner : String} {wrapper : Wrapper}
      (hwrapper : wrapper ∈ [Wrapper.list, .vec, .option])
      (htext : Text.strip text = wrapper.opening ++ inner ++ ">")
      (hinner : HoldsPrimitive inner) : HoldsPrimitive text

/-- A target made of lists and options around that of a primitive. -/
inductive FromPrimitive : String → Prop where
  | primitive {name target : String} (h : (name, target) ∈ primitives) : FromPrimitive target
  | list {inner : String} (h : FromPrimitive inner) : FromPrimitive ("list[" ++ inner ++ "]")
  | optional {inner : String} (h : FromPrimitive inner) :
      FromPrimitive ("Optional[" ++ inner ++ "]")

/-! ### Options -/

theorem text_parse (text : String) : (parse text).text = Text.strip text := by
  by_cases hwrapped : IsWrapped (Text.strip text)
  · obtain ⟨wrapper, inner, heq⟩ := hwrapped
    rw [parse_of_wrapped heq, TypeExpr.text]
  · rw [parse_of_not_isWrapped hwrapped, TypeExpr.text]

theorem base_parse_of_option {text inner : String}
    (h : Text.strip text = Wrapper.option.opening ++ inner ++ ">") :
    (parse text).base = (parse inner).base := by
  rw [parse_of_wrapped h, base]

theorem base_parse_of_not_isOption {text : String} (h : ¬ IsOption (Text.strip text)) :
    (parse text).base = parse text := by
  by_cases hwrapped : IsWrapped (Text.strip text)
  · obtain ⟨wrapper, inner, heq⟩ := hwrapped
    rw [parse_of_wrapped heq]
    cases wrapper with
    | option => exact absurd ⟨inner, heq⟩ h
    | list | vec | paged => rfl
  · rw [parse_of_not_isWrapped hwrapped, base]
    rintro _ _ ⟨⟩

/-- What holds of the texts in no option, and of an option if it holds of what is inside, holds of
every text. -/
theorem option_induction {motive : String → Prop}
    (plain : ∀ text, ¬ IsOption (Text.strip text) → motive text)
    (option : ∀ text inner, Text.strip text = Wrapper.option.opening ++ inner ++ ">" →
      motive inner → motive text) (text : String) : motive text := by
  induction text using text_induction with
  | leaf text hleaf => exact plain text fun ⟨inner, heq⟩ => hleaf ⟨.option, inner, heq⟩
  | wrapped text wrapper inner heq ih =>
      by_cases hwrapper : wrapper = .option
      · subst hwrapper
        exact option text inner heq ih
      · refine plain text fun ⟨inner', heq'⟩ => hwrapper ?_
        have hsame := congrArg String.toList (heq.symm.trans heq')
        simp only [String.toList_append, List.append_assoc] at hsame
        exact wrapper_eq_of_opening hsame

/-- The text inside the options of an expression is read as what is inside them. -/
theorem parse_baseText (text : String) : parse (baseText text) = (parse text).base := by
  induction text using option_induction with
  | plain text h => rw [baseText, base_parse_of_not_isOption h, text_parse, parse_strip]
  | option text inner heq ih => rwa [baseText, base_parse_of_option heq]

theorem strip_baseText (text : String) : Text.strip (baseText text) = baseText text := by
  induction text using option_induction with
  | plain text h => rw [baseText, base_parse_of_not_isOption h, text_parse, Text.strip_strip]
  | option text inner heq ih => rwa [baseText, base_parse_of_option heq]

/-- All options are taken off. -/
theorem not_isOption_baseText (text : String) : ¬ IsOption (baseText text) := by
  induction text using option_induction with
  | plain text h => rwa [baseText, base_parse_of_not_isOption h, text_parse]
  | option text inner heq ih => rwa [baseText, base_parse_of_option heq]

/-- The options around a primitive do not matter. -/
theorem isPrimitive_base (expr : TypeExpr) : expr.base.isPrimitive = expr.isPrimitive := by
  induction expr with
  | leaf => rfl
  | wrapped text wrapper inner ih =>
      cases wrapper with
      | option => exact ih
      | list | vec | paged => rfl

theorem baseText_nested {name : String} (hname : baseText name = name) (count : Nat) :
    baseText (TypeTree.nested .option name count).print = name := by
  induction count with
  | zero => exact hname
  | succ count ih =>
      rw [TypeTree.nested, TypeTree.print, baseText, base_parse_of_option (strip_wrapped _ _)]
      exact ih

theorem exists_peels (text : String) : ∃ count, Peels count text (baseText text) := by
  induction text using option_induction with
  | plain text h =>
      rw [baseText, base_parse_of_not_isOption h, text_parse]
      exact ⟨0, .done⟩
  | option text inner heq ih =>
      obtain ⟨count, hinner⟩ := ih
      rw [baseText, base_parse_of_option heq]
      exact ⟨count + 1, .option heq hinner⟩

theorem base_base (expr : TypeExpr) : expr.base.base = expr.base := by
  induction expr with
  | leaf => rfl
  | wrapped text wrapper inner ih =>
      cases wrapper with
      | option => exact ih
      | list | vec | paged => rfl

section Peeling

variable {count : Nat} {text base : String}

/-- Each option is one `Optional` around the target. -/
theorem Peels.targetWith_eq (h : Peels count text base) (named : String → String) :
    targetWith named (parse text) =
      Wrapper.option.around^[count] (targetWith named (parse base)) := by
  induction h with
  | done => rw [parse_strip, Function.iterate_zero_apply]
  | option htext hinner ih =>
      rw [parse_of_wrapped htext, targetWith, ih, Function.iterate_succ_apply']

theorem Peels.depthWith_eq (h : Peels count text base) (named : String → Nat) :
    depthWith named (parse text) = depthWith named (parse base) + count := by
  induction h with
  | done => rw [parse_strip, Nat.add_zero]
  | option htext hinner ih => rw [parse_of_wrapped htext, depthWith, ih, Nat.add_assoc]

end Peeling

/-! ### Lists and primitives -/

/-- A list stands inside the options exactly if the text there has the form of one. -/
theorem isList_parse_iff (text : String) :
    (parse text).isList = true ↔
      ∃ wrapper ∈ [Wrapper.list, .vec], ∃ inner,
        baseText text = wrapper.opening ++ inner ++ ">" := by
  rw [isList, ← parse_baseText, ← strip_baseText]
  constructor
  · intro h
    by_cases hwrapped : IsWrapped (Text.strip (baseText text))
    · obtain ⟨wrapper, inner, heq⟩ := hwrapped
      rw [parse_strip, parse_of_wrapped heq] at h
      refine ⟨wrapper, ?_, inner, heq⟩
      cases wrapper with
      | list | vec => decide
      | option | paged => cases h
    · rw [parse_strip, parse_of_not_isWrapped hwrapped] at h
      cases h
  · rintro ⟨wrapper, hwrapper, inner, heq⟩
    rw [parse_strip, parse_of_wrapped heq]
    cases wrapper with
    | list | vec => rfl
    | option | paged => simp at hwrapper

/-- An expression comes down to a primitive exactly if its text does. -/
theorem isPrimitive_parse_iff (text : String) :
    (parse text).isPrimitive = true ↔ HoldsPrimitive text := by
  have hnames (name : String) :
      (primitives.lookup name).isSome = true ↔ name ∈ primitives.map Prod.fst := by
    rw [Option.isSome_iff_ne_none, Ne, Catalog.lookup_eq_none_iff_not_mem, not_not]
  constructor
  · intro h
    induction text using text_induction with
    | leaf text hleaf =>
        rw [parse_of_not_isWrapped hleaf] at h
        exact .primitive ((hnames _).1 h)
    | wrapped text wrapper inner heq ih =>
        rw [parse_of_wrapped heq] at h
        cases wrapper with
        | list | vec | option => exact .wrapped (by decide) heq (ih h)
        | paged => cases h
  · intro h
    induction h with
    | primitive h =>
        rw [← parse_strip, parse_primitive _ h]
        exact (hnames _).2 h
    | @wrapped text inner wrapper hwrapper htext hinner ih =>
        rw [parse_of_wrapped htext]
        cases wrapper with
        | list | vec | option => exact ih
        | paged => simp at hwrapper

theorem around_of_mem {wrapper : Wrapper} (h : wrapper ∈ [Wrapper.list, .vec]) (inner : String) :
    wrapper.around inner = "list[" ++ inner ++ "]" := by
  cases wrapper with
  | list | vec => rfl
  | option | paged => simp at h

theorem isSome_lookup_of_isPrimitive {expr : TypeExpr} (h : expr.isPrimitive = true) :
    (primitives.lookup expr.tree.name).isSome := by
  induction expr with
  | leaf name => exact h
  | wrapped text wrapper inner ih =>
      cases wrapper with
      | list | vec | option => exact ih h
      | paged => cases h

/-- Neither the target nor the depth of what comes down to a primitive needs to know a name. -/
theorem targetWith_of_isPrimitive {expr : TypeExpr} (h : expr.isPrimitive = true)
    (named named' : String → String) : targetWith named expr = targetWith named' expr := by
  obtain ⟨target, hlookup⟩ := Option.isSome_iff_exists.1 (isSome_lookup_of_isPrimitive h)
  rw [targetWith_eq, targetWith_eq, hlookup, Option.getD_some, Option.getD_some]

theorem depthWith_of_isPrimitive {expr : TypeExpr} (h : expr.isPrimitive = true)
    (named : String → Nat) : depthWith named expr = expr.tree.levels := by
  rw [depthWith_eq, if_pos (isSome_lookup_of_isPrimitive h), Nat.add_zero]

theorem fromPrimitive_targetWith {expr : TypeExpr} (h : expr.isPrimitive = true)
    (named : String → String) : FromPrimitive (targetWith named expr) := by
  induction expr with
  | leaf name =>
      obtain ⟨target, hlookup⟩ := Option.isSome_iff_exists.1 h
      rw [targetWith, hlookup, Option.getD_some]
      exact .primitive ((Catalog.lookup_eq_some_iff_mem (by decide) name target).1 hlookup)
  | wrapped text wrapper inner ih =>
      cases wrapper with
      | list | vec => exact .list (ih h)
      | option => exact .optional (ih h)
      | paged => cases h

end TypeExpr

namespace Scope

open TypeExpr (Peels IsOption HoldsPrimitive FromPrimitive baseText)

/-- The text inside the options of a type, and whether that is a list or comes down to a primitive,
are what they are said to be, and they agree with the target of the type. -/
theorem classifiers_agree_with_target (s : Scope) (text : String) :
    baseText (baseText text) = baseText text ∧
      (∃ count, Peels count text (baseText text) ∧ ¬ IsOption (baseText text) ∧
        s.target text = Wrapper.option.around^[count] (s.target (baseText text)) ∧
        s.levels text = s.levels (baseText text) + count) ∧
      ((TypeExpr.parse text).isList = true ↔
        ∃ wrapper ∈ [Wrapper.list, .vec], ∃ inner,
          baseText text = wrapper.opening ++ inner ++ ">") ∧
      ((TypeExpr.parse text).isList = true →
        ∃ inner, s.target (baseText text) = "list[" ++ inner ++ "]") ∧
      ((TypeExpr.parse text).isPrimitive = true ↔ HoldsPrimitive text) ∧
      ((TypeExpr.parse text).isPrimitive = true →
        FromPrimitive (s.target text) ∧
          ∀ s' : Scope, s'.target text = s.target text ∧ s'.levels text = s.levels text) ∧
      ∀ other, s.outcome other =
        if TypeExpr.depthLimit < s.levels other then .error .deepType
        else .ok (s.target other) := by
  refine ⟨?_, ?_, TypeExpr.isList_parse_iff text, ?_, TypeExpr.isPrimitive_parse_iff text, ?_,
    s.outcome_eq⟩
  · rw [baseText, TypeExpr.parse_baseText, TypeExpr.base_base, baseText]
  · obtain ⟨count, hpeels⟩ := TypeExpr.exists_peels text
    exact ⟨count, hpeels, TypeExpr.not_isOption_baseText text, hpeels.targetWith_eq _,
      hpeels.depthWith_eq _⟩
  · intro hlist
    obtain ⟨wrapper, hwrapper, inner, heq⟩ := (TypeExpr.isList_parse_iff text).1 hlist
    rw [← TypeExpr.strip_baseText] at heq
    refine ⟨s.target inner, ?_⟩
    rw [← TypeExpr.around_of_mem hwrapper, target, TypeExpr.parse_of_wrapped heq]
    rfl
  · intro hprimitive
    refine ⟨TypeExpr.fromPrimitive_targetWith hprimitive _, fun s' =>
      ⟨TypeExpr.targetWith_of_isPrimitive hprimitive _ _, ?_⟩⟩
    rw [levels, levels, TypeExpr.depth, TypeExpr.depth,
      TypeExpr.depthWith_of_isPrimitive hprimitive, TypeExpr.depthWith_of_isPrimitive hprimitive]

/-- A primitive in too many options is one, and it has a target, but the whole has none. -/
theorem deep_options_without_target :
    baseText (TypeTree.nested .option "String" 1200).print = "String" ∧
      (TypeExpr.parse (TypeTree.nested .option "String" 1200).print).isPrimitive = true ∧
      bare.outcome "String" = .ok "str" ∧
      bare.outcome (TypeTree.nested .option "String" 1200).print = .error .deepType := by
  have hparse := TypeExpr.parse_primitive "String" (by decide)
  have hbase : baseText (TypeTree.nested .option "String" 1200).print = "String" := by
    refine TypeExpr.baseText_nested ?_ 1200
    rw [baseText, hparse]
    rfl
  have hwritten := TypeTree.written_nested .option
    (by decide +kernel : Text.strip "String" = "String") (by decide) 1200
  have hdeep : TypeExpr.depthLimit < (TypeTree.nested .option "String" 1200).levels := by
    rw [TypeTree.levels_nested]
    decide
  refine ⟨hbase, ?_, ?_, bare.outcome_of_deep hwritten hdeep⟩
  · rw [← TypeExpr.isPrimitive_base, ← TypeExpr.parse_baseText, hbase, hparse]
    rfl
  · rw [outcome_eq, levels, target, hparse]
    rfl

end Scope

end Groundplan
