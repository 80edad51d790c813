import Groundplan.Proofs.TypeReferences

/-!
# What the target of a type keeps of its text

A target is put together from wrappers, primitives and the names of classes, all of which are
letters, digits, underscores and brackets. A leaf that is no identifier is not spelled anew: apart
from a request mark it stands in the target as it was written. Up to such characters at the ends, a
target is therefore the text of one leaf, that of the expression or that of the alias it is.

Only the ends are lost. Characters of the frame inside of a leaf are kept with what is around them.
-/

namespace Groundplan

namespace TypeExpr

/-! ### Text within a frame -/

/-- The characters that names, wrappers and their brackets consist of. -/
def isFrame (c : Char) : Bool :=
  c.isAlphanum || c = '_' || c = '[' || c = ']'

/-- What is left of a text without the frame at its ends. -/
def core (text : String) : List Char :=
  (text.toList.dropWhile isFrame).rdropWhile isFrame

theorem toNat_lt_of_isFrame {c : Char} (h : isFrame c = true) : c.toNat < 128 := by
  simp only [isFrame, Bool.or_eq_true, decide_eq_true_eq] at h
  rcases h with ((h | rfl) | rfl) | rfl
  · exact Name.toNat_lt_of_isAlphanum h
  all_goals decide

/-- A text is its core within a frame. -/
theorem exists_frame (text : String) :
    ∃ before after, text.toList = before ++ core text ++ after ∧
      (∀ c ∈ before, isFrame c = true) ∧ ∀ c ∈ after, isFrame c = true := by
  refine ⟨text.toList.takeWhile isFrame, (text.toList.dropWhile isFrame).rtakeWhile isFrame, ?_,
    fun c => List.mem_takeWhile_imp, fun c => List.mem_rtakeWhile_imp⟩
  rw [core, List.append_assoc, List.rdropWhile_append_rtakeWhile, List.takeWhile_append_dropWhile]

theorem any_eq_false_of_frame {kind : Char → Bool}
    (hkind : ∀ n < 128, isFrame (Char.ofNat n) = true → kind (Char.ofNat n) = false)
    {cs : List Char} (h : ∀ c ∈ cs, isFrame c = true) : cs.any kind = false := by
  refine List.any_eq_false.2 fun c hc => ?_
  rw [Name.of_ascii (fun c => isFrame c = true → kind c = false) hkind
    (toNat_lt_of_isFrame (h c hc)) (h c hc)]
  decide

/-- For characters that are in no frame it is enough to look at the core. -/
theorem free_iff_core {kind : Char → Bool}
    (hkind : ∀ n < 128, isFrame (Char.ofNat n) = true → kind (Char.ofNat n) = false)
    (text : String) : Text.Free kind text ↔ (core text).any kind = false := by
  obtain ⟨before, after, htext, hbefore, hafter⟩ := exists_frame text
  rw [Text.Free, htext, List.any_append, List.any_append, any_eq_false_of_frame hkind hbefore,
    any_eq_false_of_frame hkind hafter, Bool.false_or, Bool.or_false]

theorem free_iff_of_core_eq {kind : Char → Bool}
    (hkind : ∀ n < 128, isFrame (Char.ofNat n) = true → kind (Char.ofNat n) = false)
    {text text' : String} (h : core text = core text') :
    Text.Free kind text ↔ Text.Free kind text' := by
  rw [free_iff_core hkind, free_iff_core hkind, h]

theorem core_eq_nil {text : String} (h : text.toList.all isFrame = true) : core text = [] := by
  rw [core, List.dropWhile_eq_nil_iff.2 (List.all_eq_true.1 h)]
  rfl

theorem core_append_left {before : String} (h : before.toList.all isFrame = true) (text : String) :
    core (before ++ text) = core text := by
  rw [core, String.toList_append, List.dropWhile_append_of_pos (List.all_eq_true.1 h), core]

theorem core_append_right {after : String} (h : after.toList.all isFrame = true) (text : String) :
    core (text ++ after) = core text := by
  rw [core, String.toList_append, Text.dropEnds_append_right (List.all_eq_true.1 h), core]

/-! ### The core of a target -/

theorem core_around (wrapper : Wrapper) (inner : String) :
    core (wrapper.around inner) = core inner := by
  have hclosing : "]".toList.all isFrame = true := by decide
  cases wrapper with
  | list => exact (core_append_right hclosing _).trans (core_append_left (by decide) inner)
  | vec => exact (core_append_right hclosing _).trans (core_append_left (by decide) inner)
  | option => exact (core_append_right hclosing _).trans (core_append_left (by decide) inner)
  | paged => exact (core_append_right hclosing _).trans (core_append_left (by decide) inner)

theorem core_optional (target : String) : core (optional target) = core target := by
  unfold optional
  split
  · rfl
  · exact core_around .option target

/-- An identifier has no core, and neither has the class it refers to. -/
theorem core_typeName (name : List Char) : core (typeName name) = core (String.ofList name) := by
  unfold typeName
  split
  next hplain =>
    rw [core_eq_nil, core_eq_nil] <;> rw [List.all_eq_true]
    · intro c hc
      rw [String.toList_ofList] at hc
      rcases (of_isPlainName hplain).2 c hc with halphanum | rfl
      · simp [isFrame, halphanum]
      · decide
    · intro c hc
      simp [isFrame, Name.isAlphanum_pascal _ c hc]
  next => rfl

theorem core_namedTarget (name : String) : core (namedTarget name) = core name := by
  rw [namedTarget, core_typeName]
  cases hdrop : dropRequestMark? name.toList with
  | none => rw [Option.getD_none, String.ofList_toList]
  | some rest =>
      obtain ⟨-, mark, hmark, heq⟩ := dropRequestMark?_eq_some hdrop
      have hframe : ∀ mark ∈ requestMarks, mark.toList.all isFrame = true := by decide
      have hname : name = mark ++ String.ofList rest := by
        rw [← String.toList_inj, String.toList_append, String.toList_ofList, heq]
      rw [Option.getD_some, hname, core_append_left (hframe mark hmark)]

/-- The leaf inside all wrappers. -/
def innermost : TypeExpr → String
  | .leaf name => name
  | .wrapped _ _ inner => inner.innermost

/-- The text that the target of an expression is made of: the leaf, or the leaf of what it stands
for if it is an alias. -/
def meaning (aliases : List (String × String)) (expr : TypeExpr) : String :=
  if (primitives.lookup expr.innermost).isSome then expr.innermost
  else
    match aliases.lookup expr.innermost with
    | some text => (parse text).innermost
    | none => expr.innermost

theorem core_targetWith (named : String → String) (expr : TypeExpr) :
    core (targetWith named expr) =
      core ((primitives.lookup expr.innermost).getD (named expr.innermost)) := by
  induction expr with
  | leaf name => rfl
  | wrapped text wrapper inner ih => rw [targetWith, core_around, ih, innermost]

/-- A primitive has no core, and neither has its target. -/
theorem core_primitive {name target : String} (h : primitives.lookup name = some target) :
    core target = core name := by
  have hframe : ∀ entry ∈ primitives,
      (entry.1.toList.all isFrame && entry.2.toList.all isFrame) = true := by
    decide
  have hentry := hframe (name, target)
    ((Catalog.lookup_eq_some_iff_mem (by decide) name target).1 h)
  rw [Bool.and_eq_true] at hentry
  rw [core_eq_nil hentry.1, core_eq_nil hentry.2]

theorem core_plainTarget (expr : TypeExpr) : core expr.plainTarget = core expr.innermost := by
  rw [plainTarget, core_targetWith]
  cases hprimitive : primitives.lookup expr.innermost with
  | some target => exact core_primitive hprimitive
  | none => exact core_namedTarget expr.innermost

/-- Up to its frame, a target is the text of one leaf. -/
theorem core_target (aliases : List (String × String)) (expr : TypeExpr) :
    core (expr.target aliases) = core (expr.meaning aliases) := by
  rw [target, core_targetWith, meaning]
  -- Primitives come first, then aliases, then names: the three ways to read a leaf.
  cases hprimitive : primitives.lookup expr.innermost with
  | some target => exact core_primitive hprimitive
  | none =>
      simp only [Option.getD_none, Option.isSome_none, Bool.false_eq_true, if_false]
      cases aliases.lookup expr.innermost with
      | some text => exact core_plainTarget (parse text)
      | none => exact core_namedTarget expr.innermost

theorem innermost_base (expr : TypeExpr) : expr.base.innermost = expr.innermost := by
  induction expr with
  | leaf name => rfl
  | wrapped text wrapper inner ih =>
      cases wrapper with
      | option => exact ih
      | list => rfl
      | vec => rfl
      | paged => rfl

theorem meaning_base (aliases : List (String × String)) (expr : TypeExpr) :
    expr.base.meaning aliases = expr.meaning aliases := by
  rw [meaning, meaning, innermost_base]

end TypeExpr

namespace Scope

/-- The text that the target of a type expression is made of. -/
def meaning (s : Scope) (typeText : String) : String :=
  (TypeExpr.parse typeText).meaning s.aliases.entries

theorem core_target (s : Scope) (typeText : String) :
    TypeExpr.core (s.target typeText) = TypeExpr.core (s.meaning typeText) :=
  TypeExpr.core_target s.aliases.entries _

theorem core_baseTarget (s : Scope) (typeText : String) :
    TypeExpr.core (s.baseTarget typeText) = TypeExpr.core (s.meaning typeText) := by
  rw [baseTarget, TypeExpr.core_target, TypeExpr.meaning_base, meaning]

theorem core_hint (s : Scope) (p : Property) :
    TypeExpr.core (s.hint p) = TypeExpr.core (s.meaning p.typeText) := by
  unfold hint
  split
  · exact core_target s p.typeText
  · rw [TypeExpr.core_optional, core_target]

end Scope

end Groundplan
