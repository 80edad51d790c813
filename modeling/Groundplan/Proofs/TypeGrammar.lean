import Groundplan.Failure
import Groundplan.Proofs.TypeReferences
import Groundplan.Render.Field

/-!
# The grammar of type expressions

A type is a leaf inside any number of wrappers, and it is written with one pair of angle brackets
for each of them and with blanks anywhere around an inner type. Reading looks only at the first and
the last characters of a text. That is enough: the opening of a wrapper and the last bracket belong
together, and what stands between them is the inner type with its blanks. So every text writes
exactly one type.

The target of a leaf is that of a primitive, or else what an alias stands for, or else a name of the
model's own. What an alias stands for is read without aliases, so that a table of aliases may go in
circles. Only the number of levels is limited: a type that is nested too deep has no target.
-/

namespace Groundplan

namespace TypeExpr

/-! ### Reading one level -/

/-- Whether a text has the form of an expression in a wrapper. -/
def IsWrapped (text : String) : Prop :=
  ∃ (wrapper : Wrapper) (inner : String), text = wrapper.opening ++ inner ++ ">"

theorem inside?_eq_some_iff {wrapper : Wrapper} {cs inner : List Char} :
    inside? wrapper cs = some inner ↔ cs = wrapper.opening.toList ++ inner ++ ['>'] := by
  unfold inside?
  constructor
  · intro h
    split at h
    next rest hdrop =>
      split_ifs at h with hlast
      cases h
      rw [dropOpening?_eq_some_iff.1 hdrop, List.append_assoc,
        List.dropLast_append_getLast? '>' hlast]
    next => cases h
  · rintro rfl
    rw [List.append_assoc, Source.dropOpening?_append]
    simp

/-- The openings of two wrappers differ in their first characters. -/
theorem wrapper_eq_of_opening {wrapper wrapper' : Wrapper} {rest rest' : List Char}
    (h : wrapper.opening.toList ++ rest = wrapper'.opening.toList ++ rest') :
    wrapper = wrapper' := by
  have hhead : ∀ (wrapper : Wrapper) (rest : List Char),
      (wrapper.opening.toList ++ rest).head? = wrapper.opening.toList.head? := by
    intro wrapper rest
    cases wrapper <;> rfl
  have hheads : wrapper.opening.toList.head? = wrapper'.opening.toList.head? := by
    rw [← hhead wrapper rest, h, hhead]
  revert hheads
  cases wrapper <;> cases wrapper' <;> decide

theorem unwrap?_eq_none_iff {cs : List Char} :
    unwrap? cs = none ↔ ∀ wrapper, inside? wrapper cs = none := by
  have hall : ∀ wrapper : Wrapper, wrapper ∈ Wrapper.all := by
    intro wrapper
    cases wrapper <;> decide
  rw [unwrap?, List.findSome?_eq_none_iff]
  constructor
  · intro h wrapper
    have hnone := h wrapper (hall wrapper)
    split at hnone
    next => cases hnone
    next hinside => exact hinside
  · intro h wrapper _
    split
    next hinside =>
      rw [h wrapper] at hinside
      cases hinside
    next => rfl

theorem inside?_of_unwrap? {cs : List Char} {wrapper : Wrapper}
    {inner : { inner : List Char // inner.length < cs.length }}
    (h : unwrap? cs = some (wrapper, inner)) : inside? wrapper cs = some inner.1 := by
  obtain ⟨wrapper', -, hsome⟩ := List.exists_of_findSome?_eq_some h
  split at hsome
  next hinside =>
    cases hsome
    exact hinside
  next => cases hsome

/-- Only one wrapper can be around a text, and it leaves one inner text. -/
theorem unwrap?_of_inside? {cs inner : List Char} {wrapper : Wrapper}
    (h : inside? wrapper cs = some inner) : ∃ hlt, unwrap? cs = some (wrapper, ⟨inner, hlt⟩) := by
  cases hunwrap : unwrap? cs with
  | none =>
      rw [unwrap?_eq_none_iff.1 hunwrap wrapper] at h
      cases h
  | some found =>
      obtain ⟨wrapper', inner', hlt⟩ := found
      have hinside := inside?_of_unwrap? hunwrap
      have hsame : wrapper.opening.toList ++ (inner ++ ['>']) =
          wrapper'.opening.toList ++ (inner' ++ ['>']) := by
        rw [← List.append_assoc, ← List.append_assoc, ← inside?_eq_some_iff.1 h]
        exact inside?_eq_some_iff.1 hinside
      obtain rfl := wrapper_eq_of_opening hsame
      rw [h] at hinside
      cases hinside
      exact ⟨hlt, rfl⟩

theorem inside?_toList_iff {text inner : String} {wrapper : Wrapper} :
    inside? wrapper text.toList = some inner.toList ↔ text = wrapper.opening ++ inner ++ ">" := by
  rw [inside?_eq_some_iff, ← String.toList_inj, String.toList_append, String.toList_append]
  exact Iff.rfl

theorem unwrap?_toList_eq_none_iff {text : String} :
    unwrap? text.toList = none ↔ ¬ IsWrapped text := by
  rw [unwrap?_eq_none_iff]
  constructor
  · rintro h ⟨wrapper, inner, htext⟩
    have hnone := h wrapper
    rw [inside?_toList_iff.2 htext] at hnone
    cases hnone
  · intro h wrapper
    cases hinside : inside? wrapper text.toList with
    | none => rfl
    | some inner =>
        refine absurd ⟨wrapper, String.ofList inner, inside?_toList_iff.1 ?_⟩ h
        rw [String.toList_ofList, hinside]

instance : DecidablePred IsWrapped := fun text =>
  decidable_of_iff (¬ unwrap? text.toList = none) (by rw [unwrap?_toList_eq_none_iff, not_not])

/-- A text in a wrapper is read as the wrapper around what is inside. -/
theorem parse_of_wrapped {text inner : String} {wrapper : Wrapper}
    (h : Text.strip text = wrapper.opening ++ inner ++ ">") :
    parse text = .wrapped (Text.strip text) wrapper (parse inner) := by
  have hinside := inside?_toList_iff.2 h
  rw [Text.strip, String.toList_ofList] at hinside
  obtain ⟨hlt, hunwrap⟩ := unwrap?_of_inside? hinside
  rw [parse, ofChars]
  simp only [hunwrap]
  rfl

/-- A text in no wrapper is read as a leaf. -/
theorem parse_of_not_isWrapped {text : String} (h : ¬ IsWrapped (Text.strip text)) :
    parse text = .leaf (Text.strip text) := by
  have hunwrap := unwrap?_toList_eq_none_iff.2 h
  rw [Text.strip, String.toList_ofList] at hunwrap
  rw [parse, ofChars]
  simp only [hunwrap]
  rfl

/-- What holds of leaves, and of a text in a wrapper if it holds of what is inside, holds of every
text. -/
theorem text_induction {motive : String → Prop}
    (leaf : ∀ text, ¬ IsWrapped (Text.strip text) → motive text)
    (wrapped : ∀ text wrapper inner, Text.strip text = Wrapper.opening wrapper ++ inner ++ ">" →
      motive inner → motive text) (text : String) : motive text := by
  induction hexpr : parse text generalizing text with
  | leaf name =>
      refine leaf text fun ⟨wrapper, inner, heq⟩ => ?_
      rw [parse_of_wrapped heq] at hexpr
      cases hexpr
  | wrapped whole wrapper inner ih =>
      by_cases hwrapped : IsWrapped (Text.strip text)
      · obtain ⟨wrapper', inside, heq⟩ := hwrapped
        rw [parse_of_wrapped heq] at hexpr
        cases hexpr
        exact wrapped text _ inside heq (ih inside rfl)
      · exact leaf text hwrapped

/-- Blanks around a text do not change how it is read. -/
theorem parse_between {before after : String} (hbefore : Text.AllBlank before)
    (hafter : Text.AllBlank after) (text : String) :
    parse (before ++ text ++ after) = parse text := by
  have hstrip := Text.strip_between hbefore hafter text
  by_cases hwrapped : IsWrapped (Text.strip text)
  · obtain ⟨wrapper, inner, heq⟩ := hwrapped
    rw [parse_of_wrapped heq, parse_of_wrapped (hstrip.trans heq), hstrip]
  · rw [parse_of_not_isWrapped hwrapped, parse_of_not_isWrapped (hstrip ▸ hwrapped), hstrip]

theorem strip_wrapped (wrapper : Wrapper) (inner : String) :
    Text.strip (wrapper.opening ++ inner ++ ">") = wrapper.opening ++ inner ++ ">" := by
  have hclosing : ">".toList = ['>'] := rfl
  rw [Text.strip, Text.stripChars_eq_self, String.ofList_toList]
  · rw [String.toList_append, String.toList_append]
    cases wrapper <;> rfl
  · rw [String.toList_append, hclosing, List.getLast?_concat]
    rfl

end TypeExpr

/-! ### Written types -/

/-- A type: a leaf inside of wrappers. -/
inductive TypeTree where
  | leaf (name : String)
  | wrapped (wrapper : Wrapper) (inner : TypeTree)
  deriving DecidableEq, Repr

namespace TypeTree

/-- The name of the leaf. -/
def name : TypeTree → String
  | .leaf name => name
  | .wrapped _ inner => inner.name

/-- The number of wrappers. -/
def levels : TypeTree → Nat
  | .leaf _ => 0
  | .wrapped _ inner => inner.levels + 1

/-- The wrappers of a type around the target of its leaf. -/
def around (image : String) : TypeTree → String
  | .leaf _ => image
  | .wrapped wrapper inner => wrapper.around (inner.around image)

/-- The texts of a type: blanks may stand around each inner type, and a leaf has none at its ends
and is in no wrapper. -/
inductive Written : TypeTree → String → Prop where
  | leaf {name : String} (hstripped : Text.strip name = name)
      (hleaf : ¬ TypeExpr.IsWrapped name) : Written (.leaf name) name
  | wrapped {wrapper : Wrapper} {tree : TypeTree} {text before after : String}
      (hinner : Written tree text) (hbefore : Text.AllBlank before)
      (hafter : Text.AllBlank after) :
      Written (.wrapped wrapper tree) (wrapper.opening ++ (before ++ text ++ after) ++ ">")

/-- The text of a type without blanks. -/
def print : TypeTree → String
  | .leaf name => name
  | .wrapped wrapper inner => wrapper.opening ++ inner.print ++ ">"

theorem written_print {tree : TypeTree} (hstripped : Text.strip tree.name = tree.name)
    (hleaf : ¬ TypeExpr.IsWrapped tree.name) : tree.Written tree.print := by
  induction tree with
  | leaf name => exact .leaf hstripped hleaf
  | wrapped wrapper inner ih =>
      have hblank : Text.AllBlank "" := by decide
      have hwritten := @Written.wrapped wrapper inner inner.print "" "" (ih hstripped hleaf) hblank
        hblank
      rwa [String.empty_append, String.append_empty] at hwritten

/-- A leaf in a number of wrappers of one kind. -/
def nested (wrapper : Wrapper) (name : String) : Nat → TypeTree
  | 0 => .leaf name
  | count + 1 => .wrapped wrapper (nested wrapper name count)

theorem name_nested (wrapper : Wrapper) (name : String) (count : Nat) :
    (nested wrapper name count).name = name := by
  induction count with
  | zero => rfl
  | succ count ih => exact ih

theorem written_nested (wrapper : Wrapper) {name : String} (hstripped : Text.strip name = name)
    (hleaf : ¬ TypeExpr.IsWrapped name) (count : Nat) :
    (nested wrapper name count).Written (nested wrapper name count).print := by
  have hname := name_nested wrapper name count
  exact written_print (by rw [hname, hstripped]) (by rwa [hname])

theorem levels_nested (wrapper : Wrapper) (name : String) (count : Nat) :
    (nested wrapper name count).levels = count := by
  induction count with
  | zero => rfl
  | succ count ih => rw [nested, levels, ih]

end TypeTree

namespace TypeExpr

/-- An expression without the texts of its parts. -/
def tree : TypeExpr → TypeTree
  | .leaf name => .leaf name
  | .wrapped _ wrapper inner => .wrapped wrapper inner.tree

theorem parse_strip (text : String) : parse (Text.strip text) = parse text := by
  obtain ⟨before, after, hbefore, hafter, htext⟩ := Text.exists_blanks text
  conv_rhs => rw [htext]
  exact (parse_between hbefore hafter (Text.strip text)).symm

/-- A written type is read as it was meant, level by level. -/
theorem tree_parse_of_written {tree : TypeTree} {text : String} (h : tree.Written text) :
    (parse text).tree = tree := by
  induction h with
  | leaf hstripped hleaf =>
      rw [← hstripped] at hleaf
      rw [parse_of_not_isWrapped hleaf, hstripped]
      rfl
  | @wrapped wrapper tree text before after hinner hbefore hafter ih =>
      rw [parse_of_wrapped (strip_wrapped wrapper _), TypeExpr.tree, parse_between hbefore hafter,
        ih]

/-- Every text is written as the type it is read as, up to the blanks around it. -/
theorem written_parse (text : String) : (parse text).tree.Written (Text.strip text) := by
  induction text using text_induction with
  | leaf text hleaf =>
      rw [parse_of_not_isWrapped hleaf]
      exact .leaf (Text.strip_strip text) hleaf
  | wrapped text wrapper inner heq ih =>
      obtain ⟨before, after, hbefore, hafter, hinner⟩ := Text.exists_blanks inner
      have hwritten : (TypeTree.wrapped wrapper (parse inner).tree).Written
          (wrapper.opening ++ (before ++ Text.strip inner ++ after) ++ ">") :=
        .wrapped ih hbefore hafter
      rw [← hinner, ← heq] at hwritten
      rw [parse_of_wrapped heq]
      exact hwritten

/-! ### Targets and depths -/

/-- The target of an expression is that of its leaf inside the wrappers. -/
theorem targetWith_eq (named : String → String) (expr : TypeExpr) :
    targetWith named expr =
      expr.tree.around ((primitives.lookup expr.tree.name).getD (named expr.tree.name)) := by
  induction expr with
  | leaf name => rfl
  | wrapped text wrapper inner ih => rw [targetWith, ih, tree, TypeTree.around, TypeTree.name]

theorem depthWith_eq (named : String → Nat) (expr : TypeExpr) :
    depthWith named expr =
      expr.tree.levels +
        if (primitives.lookup expr.tree.name).isSome then 0 else named expr.tree.name := by
  induction expr with
  | leaf name => rw [depthWith, tree, TypeTree.levels, Nat.zero_add, TypeTree.name]
  | wrapped text wrapper inner ih =>
      rw [depthWith, ih, tree, TypeTree.levels, TypeTree.name]
      omega

section Leaves

variable {aliases : List (String × String)} {name : String}

theorem target_leaf_of_primitive {target : String} (h : primitives.lookup name = some target) :
    (leaf name).target aliases = target := by
  rw [TypeExpr.target, targetWith, h, Option.getD_some]

theorem target_leaf_of_alias (h : primitives.lookup name = none) {meaning : String}
    (halias : aliases.lookup name = some meaning) :
    (leaf name).target aliases = (parse meaning).target [] := by
  rw [TypeExpr.target, targetWith, h, Option.getD_none, halias]
  rfl

theorem target_leaf_of_own (h : primitives.lookup name = none)
    (halias : aliases.lookup name = none) : (leaf name).target aliases = namedTarget name := by
  rw [TypeExpr.target, targetWith, h, Option.getD_none, halias]

end Leaves

theorem dropRequestMark?_append {mark : String} (hmark : mark ∈ requestMarks) {rest : String}
    (hrest : rest ≠ "") : dropRequestMark? (mark ++ rest).toList = some rest.toList := by
  have hlengths : ∀ mark ∈ requestMarks, mark.toList.length = 6 := by decide
  cases hdrop : dropRequestMark? (mark ++ rest).toList with
  | none => exact absurd ⟨mark, hmark, rest, hrest, rfl⟩ ((dropRequestMark?_eq_none_iff _).1 hdrop)
  | some rest' =>
      -- The marks are equally long, so what is behind them is the same.
      obtain ⟨-, mark', hmark', heq⟩ := dropRequestMark?_eq_some hdrop
      rw [String.toList_append] at heq
      have hlength := (hlengths mark hmark).trans (hlengths mark' hmark').symm
      rw [(List.append_inj heq hlength).2]

end TypeExpr

namespace Scope

/-- The scope without its aliases. -/
def unaliased (s : Scope) : Scope :=
  { s with aliases := .empty }

/-- A type name of the model's own as it is emitted: respelled if it is an identifier. -/
def Emits (name image : String) : Prop :=
  if TypeExpr.isPlainName name.toList then image = Name.pascal name else image = name

/-- What the leaf of a type stands for. -/
inductive Denotes (s : Scope) : String → String → Prop where
  | primitive {name target : String} (h : (name, target) ∈ TypeExpr.primitives) :
      Denotes s name target
  | aliased {name meaning : String} (hname : name ∉ TypeExpr.primitives.map Prod.fst)
      (h : s.aliases.get? name = some meaning) : Denotes s name (s.unaliased.target meaning)
  | request {mark rest image : String} (hmark : mark ∈ TypeExpr.requestMarks) (hrest : rest ≠ "")
      (hname : mark ++ rest ∉ TypeExpr.primitives.map Prod.fst)
      (halias : s.aliases.get? (mark ++ rest) = none) (himage : Emits rest image) :
      Denotes s (mark ++ rest) image
  | own {name image : String} (hname : name ∉ TypeExpr.primitives.map Prod.fst)
      (halias : s.aliases.get? name = none) (hown : ¬ TypeExpr.IsRequest name)
      (himage : Emits name image) : Denotes s name image

theorem emits_iff {name image : String} :
    Emits name image ↔ image = TypeExpr.typeName name.toList := by
  rw [Emits, TypeExpr.typeName, String.ofList_toList]
  split <;> rfl

/-- A leaf stands for one target, and that is the one it has. -/
theorem denotes_iff (s : Scope) (name image : String) :
    s.Denotes name image ↔ image = (TypeExpr.leaf name).target s.aliases.entries := by
  have hnone : ∀ name : String, name ∉ TypeExpr.primitives.map Prod.fst ↔
      TypeExpr.primitives.lookup name = none := fun name =>
    (Catalog.lookup_eq_none_iff_not_mem _ name).symm
  constructor
  · intro h
    cases h with
    | primitive h =>
        have hlookup := (Catalog.lookup_eq_some_iff_mem (by decide) name image).2 h
        exact (TypeExpr.target_leaf_of_primitive hlookup).symm
    | aliased hname h => exact (TypeExpr.target_leaf_of_alias ((hnone name).1 hname) h).symm
    | request hmark hrest hname halias himage =>
        rw [TypeExpr.target_leaf_of_own ((hnone _).1 hname) halias, TypeExpr.namedTarget,
          TypeExpr.dropRequestMark?_append hmark hrest, Option.getD_some]
        exact emits_iff.1 himage
    | own hname halias hown himage =>
        rw [TypeExpr.target_leaf_of_own ((hnone _).1 hname) halias, TypeExpr.namedTarget,
          (TypeExpr.dropRequestMark?_eq_none_iff name).2 hown, Option.getD_none]
        exact emits_iff.1 himage
  · rintro rfl
    cases hprimitive : TypeExpr.primitives.lookup name with
    | some target =>
        rw [TypeExpr.target_leaf_of_primitive hprimitive]
        exact .primitive ((Catalog.lookup_eq_some_iff_mem (by decide) name target).1 hprimitive)
    | none =>
        cases halias : s.aliases.entries.lookup name with
        | some meaning =>
            rw [TypeExpr.target_leaf_of_alias hprimitive halias]
            exact .aliased ((hnone name).2 hprimitive) halias
        | none =>
            rw [TypeExpr.target_leaf_of_own hprimitive halias]
            by_cases hrequest : TypeExpr.IsRequest name
            · obtain ⟨mark, hmark, rest, hrest, rfl⟩ := hrequest
              refine .request hmark hrest ((hnone _).2 hprimitive) halias (emits_iff.2 ?_)
              rw [TypeExpr.namedTarget, TypeExpr.dropRequestMark?_append hmark hrest,
                Option.getD_some]
            · refine .own ((hnone _).2 hprimitive) halias hrequest (emits_iff.2 ?_)
              rw [TypeExpr.namedTarget, (TypeExpr.dropRequestMark?_eq_none_iff name).2 hrequest,
                Option.getD_none]

/-- The levels that an alias adds to those around it: one, and those of what it stands for. -/
def aliasLevels (s : Scope) (name : String) : Nat :=
  if name ∈ TypeExpr.primitives.map Prod.fst then 0
  else
    match s.aliases.get? name with
    | some meaning => (TypeExpr.parse meaning).tree.levels + 1
    | none => 0

theorem target_eq_around (s : Scope) (text : String) :
    s.target text = (TypeExpr.parse text).tree.around
      ((TypeExpr.leaf (TypeExpr.parse text).tree.name).target s.aliases.entries) :=
  TypeExpr.targetWith_eq _ (TypeExpr.parse text)

/-- The levels of a type, with those that an alias adds. -/
def levels (s : Scope) (text : String) : Nat :=
  (TypeExpr.parse text).depth s.aliases.entries

theorem levels_eq (s : Scope) (text : String) :
    s.levels text =
      (TypeExpr.parse text).tree.levels + s.aliasLevels (TypeExpr.parse text).tree.name := by
  rw [levels, TypeExpr.depth, TypeExpr.depthWith_eq, aliasLevels]
  generalize (TypeExpr.parse text).tree.name = name
  congr 1
  cases hprimitive : TypeExpr.primitives.lookup name with
  | some target =>
      have hmem := (Catalog.lookup_eq_some_iff_mem (by decide) name target).1 hprimitive
      rw [if_pos (List.mem_map_of_mem hmem)]
      rfl
  | none =>
      rw [if_neg ((Catalog.lookup_eq_none_iff_not_mem _ name).1 hprimitive), Catalog.get?]
      cases s.aliases.entries.lookup name with
      | some meaning => simp [TypeExpr.depthWith_eq]
      | none => rfl

/-- What reading a type comes to. -/
def outcome (s : Scope) (text : String) : Except Failure String :=
  (s.typeTrail text).result (s.target text)

/-- A type has its target, unless it is nested too deep. -/
theorem outcome_eq (s : Scope) (text : String) :
    s.outcome text =
      if TypeExpr.depthLimit < s.levels text then .error .deepType else .ok (s.target text) := by
  unfold outcome typeTrail TypeExpr.isTooDeep levels
  split
  next h => rw [if_pos (of_decide_eq_true h)]; rfl
  next h => rw [if_neg fun hdeep => h (decide_eq_true hdeep)]; rfl

theorem outcome_of_deep (s : Scope) {tree : TypeTree} {text : String} (h : tree.Written text)
    (hdeep : TypeExpr.depthLimit < tree.levels) : s.outcome text = .error .deepType := by
  rw [outcome_eq, levels_eq, TypeExpr.tree_parse_of_written h]
  exact if_pos (Nat.lt_of_lt_of_le hdeep (Nat.le_add_right _ _))

/-- A text writes one type only, up to the blanks around it. The leaf of the type stands for one
target. The text has the wrappers around that for a target, and reading comes to this unless there
are too many levels. -/
theorem target_of_written (s : Scope) {tree : TypeTree} {text : String}
    (h : tree.Written (Text.strip text)) :
    (∀ tree', TypeTree.Written tree' (Text.strip text) → tree' = tree) ∧
      ∃ image, (∀ image', s.Denotes tree.name image' ↔ image' = image) ∧
        s.target text = tree.around image ∧
        s.outcome text =
          if TypeExpr.depthLimit < tree.levels + s.aliasLevels tree.name then .error .deepType
          else .ok (tree.around image) := by
  have htree : (TypeExpr.parse text).tree = tree := by
    rw [← TypeExpr.parse_strip]
    exact TypeExpr.tree_parse_of_written h
  refine ⟨fun tree' h' => ?_, (TypeExpr.leaf tree.name).target s.aliases.entries,
    s.denotes_iff tree.name, ?_, ?_⟩
  · rw [← TypeExpr.tree_parse_of_written h', TypeExpr.parse_strip, htree]
  · rw [s.target_eq_around, htree]
  · rw [s.outcome_eq, s.levels_eq, s.target_eq_around, htree]

/-- A scope without aliases and enumerations. -/
def bare : Scope := ⟨.empty, .empty⟩

/-- A scope whose aliases stand for each other. -/
def circular : Scope :=
  ⟨⟨[("Amount", "List<Sum>"), ("Sum", "Amount")], by decide⟩, .empty⟩

/-- What an alias stands for is not read as an alias again, and blanks do not matter. -/
theorem circular_amounts_have_target :
    (TypeTree.wrapped .option (.wrapped .vec (.leaf "Amount"))).Written
        (Text.strip " Option< Vec<Amount\t>\n>") ∧
      circular.outcome " Option< Vec<Amount\t>\n>" = .ok "Optional[list[list[Sum]]]" := by
  have hwritten : (TypeTree.wrapped .option (.wrapped .vec (.leaf "Amount"))).Written
      (Text.strip " Option< Vec<Amount\t>\n>") := by
    have htext : Text.strip " Option< Vec<Amount\t>\n>" = Wrapper.option.opening ++
        (" " ++ (Wrapper.vec.opening ++ ("" ++ "Amount" ++ "\t") ++ ">") ++ "\n") ++ ">" := by
      decide +kernel
    rw [htext]
    exact .wrapped (.wrapped (.leaf (by decide +kernel) (by decide)) (by decide) (by decide))
      (by decide) (by decide)
  have hsums : (TypeExpr.parse "List<Sum>").tree = .wrapped .list (.leaf "Sum") :=
    TypeExpr.tree_parse_of_written (@TypeTree.written_print (.wrapped .list (.leaf "Sum"))
      (by decide +kernel) (by decide))
  have hget : circular.aliases.get? "Amount" = some "List<Sum>" := by decide
  obtain ⟨-, image, hdenotes, -, hresult⟩ := circular.target_of_written hwritten
  have himage : image = "list[Sum]" := by
    rw [← (hdenotes _).1 (.aliased (by decide) hget), target_eq_around, hsums]
    decide +kernel
  have hlevels : circular.aliasLevels "Amount" = 2 := by
    simp only [aliasLevels, hget, hsums]
    decide
  refine ⟨hwritten, ?_⟩
  rw [hresult, TypeTree.name, TypeTree.name, TypeTree.name, hlevels, himage, if_neg (by decide)]
  exact congrArg Except.ok (by decide +kernel)

/-- A type in too many lists has no target. -/
theorem deep_lists_without_target :
    (TypeTree.nested .list "X" 1200).Written (TypeTree.nested .list "X" 1200).print ∧
      bare.Denotes "X" "X" ∧
      bare.outcome (TypeTree.nested .list "X" 1200).print = .error .deepType := by
  have hwritten := TypeTree.written_nested .list (by decide +kernel : Text.strip "X" = "X")
    (by decide) 1200
  have hdeep : TypeExpr.depthLimit < (TypeTree.nested .list "X" 1200).levels := by
    rw [TypeTree.levels_nested]
    decide
  refine ⟨hwritten, ?_, bare.outcome_of_deep hwritten hdeep⟩
  rw [denotes_iff]
  decide +kernel

end Scope

end Groundplan
