import Groundplan.Proofs.SharedSpelling
import Groundplan.Source.Declaration

/-!
# Initial values apart

The initial value of a field is written from an argument for its default and from arguments with
keywords, and the text has different forms: nothing, the default by itself, or a call. Two fields
that differ in these arguments could still have the same text. They do not where one has arguments
that the other lacks: a longer list of arguments is a longer text, whatever its form is. Defaults
with nothing added behind them differ as their texts do, and so do those that start differently.
-/

namespace Groundplan.Source

/-- The initial value with a default and further arguments. -/
def initialOf : Option Argument → List Argument → Initial
  | none, [] => .none
  | some ⟨none, e⟩, [] => .value e
  | default, details => .call "Field" (default.toList ++ details)

theorem initialOf_cons (default : Option Argument) (a : Argument) (details : List Argument) :
    initialOf default (a :: details) = .call "Field" (default.toList ++ a :: details) := by
  cases default with
  | none => rfl
  | some default =>
      obtain ⟨keyword, value⟩ := default
      cases keyword <;> rfl

/-- An initial value is nothing, the default by itself, or a call with all the arguments. -/
theorem initialOf_cases (default : Option Argument) (details : List Argument) :
    (default.toList ++ details = [] ∧ initialOf default details = .none) ∨
      (∃ e, default.toList ++ details = [.positional e] ∧
        initialOf default details = .value e) ∨
      default.toList ++ details ≠ [] ∧
        initialOf default details = .call "Field" (default.toList ++ details) := by
  cases details with
  | cons a details => exact .inr (.inr ⟨by simp, initialOf_cons default a details⟩)
  | nil =>
      cases default with
      | none => exact .inl ⟨rfl, rfl⟩
      | some default =>
          obtain ⟨keyword, value⟩ := default
          cases keyword with
          | none => exact .inr (.inl ⟨value, rfl, rfl⟩)
          | some keyword => exact .inr (.inr ⟨by simp, rfl⟩)

/-- How much text arguments are, each with what parts it from the next. -/
def textSize : List Argument → Nat
  | [] => 0
  | a :: arguments => a.render.length + 2 + textSize arguments

theorem textSize_append (arguments more : List Argument) :
    textSize (arguments ++ more) = textSize arguments + textSize more := by
  induction arguments with
  | nil => rw [List.nil_append, textSize, Nat.zero_add]
  | cons a arguments ih =>
      rw [List.cons_append, textSize, textSize, ih]
      omega

/-! ### Lengths -/

theorem length_intercalate_render (a : Argument) (arguments : List Argument) :
    (", ".intercalate ((a :: arguments).map Argument.render)).length + 2 =
      textSize (a :: arguments) := by
  induction arguments generalizing a with
  | nil => simp [textSize]
  | cons next arguments ih =>
      have hcomma : ", ".length = 2 := by decide
      rw [textSize, ← ih next, List.map_cons, List.map_cons, String.intercalate_cons_cons,
        String.length_append, String.length_append]
      omega

theorem length_render_call {arguments : List Argument} (hne : arguments ≠ []) :
    (Initial.call "Field" arguments).render.length = textSize arguments + 8 := by
  obtain ⟨a, rest, rfl⟩ := List.exists_cons_of_ne_nil hne
  have hopening : (" = " ++ "Field" ++ "(").length = 9 := by decide
  have hclosing : ")".length = 1 := by decide
  rw [Initial.render, String.length_append, String.length_append, hopening, hclosing,
    ← length_intercalate_render]
  omega

theorem length_render_value (e : Expr) :
    (Initial.value e).render.length = textSize [.positional e] + 1 := by
  have hopening : " = ".length = 3 := by decide
  have hrender : (Argument.positional e).render = e.render := rfl
  rw [Initial.render, String.length_append, hopening, textSize, textSize, hrender]
  omega

/-- Where there are arguments at all, the text is longer than they are. -/
theorem textSize_lt_length {default : Option Argument} {details : List Argument}
    (hne : default.toList ++ details ≠ []) :
    textSize (default.toList ++ details) < (initialOf default details).render.length := by
  rcases initialOf_cases default details with ⟨hnil, -⟩ | ⟨e, hvalue, heq⟩ | ⟨-, heq⟩
  · exact absurd hnil hne
  · rw [hvalue, heq, length_render_value]
    omega
  · rw [heq, length_render_call hne]
    omega

/-- More arguments are more text. A default by itself is shorter than the same in a call, so it does
not matter which form the text takes. -/
theorem length_initialOf_lt {default default' : Option Argument} {details more : List Argument}
    (hdefault : ∀ a ∈ default, a.keyword = none)
    (hlt : textSize (default.toList ++ details) < textSize (default'.toList ++ (details ++ more))) :
    (initialOf default details).render.length <
      (initialOf default' (details ++ more)).render.length := by
  cases details with
  | nil =>
      have hne : default'.toList ++ ([] ++ more) ≠ [] := by
        intro hnil
        rw [hnil] at hlt
        exact absurd hlt (Nat.not_lt_zero _)
      refine Nat.lt_of_le_of_lt ?_ (textSize_lt_length hne)
      cases default with
      | none => exact Nat.zero_le _
      | some a =>
          obtain ⟨keyword, e⟩ := a
          obtain rfl : keyword = none := hdefault _ rfl
          exact Nat.le_trans (Nat.le_of_eq (length_render_value e)) hlt
  | cons a details =>
      rw [initialOf_cons, List.cons_append, initialOf_cons,
        length_render_call (by simp), length_render_call (by simp)]
      exact Nat.add_lt_add_right hlt 8

/-- Where the text is the same, nothing was added to the arguments. -/
theorem textSize_le_of_render_eq {default default' : Option Argument}
    {details more : List Argument} (hdefault : ∀ a ∈ default, a.keyword = none)
    (htext : (initialOf default details).render = (initialOf default' (details ++ more)).render) :
    textSize default'.toList + textSize more ≤ textSize default.toList := by
  by_contra hlt
  have hlengths := @length_initialOf_lt default default' details more hdefault
  rw [htext, textSize_append, textSize_append, textSize_append] at hlengths
  exact Nat.lt_irrefl _ (hlengths (by omega))

theorem eq_nil_of_textSize_le {arguments : List Argument} (h : textSize arguments ≤ 0) :
    arguments = [] := by
  cases arguments with
  | nil => rfl
  | cons a arguments =>
      rw [textSize] at h
      omega

/-! ### Beginnings -/

theorem exists_render_call (a : Argument) (arguments : List Argument) :
    ∃ rest, (Initial.call "Field" (a :: arguments)).render =
      " = " ++ ("Field(" ++ (a.render ++ rest)) := by
  obtain ⟨rest, hrest⟩ :=
    Name.exists_intercalate_cons ", " a.render (arguments.map Argument.render)
  have hopening : " = " ++ "Field" ++ "(" = " = " ++ "Field(" := by decide
  refine ⟨rest ++ ")", ?_⟩
  rw [Initial.render, List.map_cons, hrest, hopening]
  simp only [String.append_assoc]

/-- A text starts, and with another character than the given one. -/
def StartsApart (c : Char) (text : String) : Prop :=
  text.toList.head?.any (· ≠ c) = true

instance (c : Char) (text : String) : Decidable (StartsApart c text) :=
  inferInstanceAs (Decidable (_ = true))

theorem StartsApart.append {c : Char} {text : String} (h : StartsApart c text) (rest : String) :
    StartsApart c (text ++ rest) := by
  rw [StartsApart] at h ⊢
  rw [String.toList_append, List.head?_append]
  cases hhead : text.toList.head? with
  | none => rw [hhead] at h; cases h
  | some d => rwa [hhead] at h

theorem head?_append_of_head? {text : String} {c : Char} (h : text.toList.head? = some c)
    (rest : String) : (text ++ rest).toList.head? = some c := by
  rw [String.toList_append, List.head?_append, h, Option.some_or]

/-- Texts that start differently differ, whatever follows. -/
theorem append_ne_append {text other : String} {c : Char} (h : text.toList.head? = some c)
    (hother : StartsApart c other) (rest rest' : String) : text ++ rest ≠ other ++ rest' := by
  intro heq
  have hapart := hother.append rest'
  rw [← heq, StartsApart, head?_append_of_head? h] at hapart
  simp at hapart

/-- A default is told from everything that may stand in its place if it starts with another
character than all of that and than a call. -/
theorem render_initialOf_ne_of_head {e : Expr} {c : Char}
    (hhead : e.render.toList.head? = some c) (hcall : StartsApart c "Field(")
    {default : Option Argument} {details more : List Argument}
    (hothers : ∀ a ∈ default.toList ++ (details ++ more), StartsApart c a.render) :
    (initialOf (some (.positional e)) details).render ≠
      (initialOf default (details ++ more)).render := by
  intro htext
  cases details with
  | nil =>
      have hvalue : (initialOf (some (.positional e)) []).render = " = " ++ (e.render ++ "") := by
        rw [String.append_empty]
        rfl
      rw [hvalue] at htext
      rcases initialOf_cases default ([] ++ more) with ⟨-, heq⟩ | ⟨e', hvalue', heq⟩ | ⟨hne, heq⟩
      · rw [heq, Initial.render] at htext
        exact absurd (congrArg String.length htext) (by simp)
      · rw [heq, Initial.render, String.append_right_inj] at htext
        have hmem : Argument.positional e' ∈ default.toList ++ ([] ++ more) := by
          rw [hvalue']
          exact List.mem_singleton_self _
        exact append_ne_append hhead (hothers _ hmem) "" "" (htext.trans String.append_empty.symm)
      · obtain ⟨a, arguments, harguments⟩ := List.exists_cons_of_ne_nil hne
        obtain ⟨rest, hrest⟩ := exists_render_call a arguments
        rw [heq, harguments, hrest, String.append_right_inj] at htext
        exact append_ne_append hhead hcall "" (a.render ++ rest) htext
  | cons b details =>
      -- Both are calls, and they differ in their first arguments.
      have hne : default.toList ++ (b :: details ++ more) ≠ [] := by simp
      obtain ⟨a, arguments, harguments⟩ := List.exists_cons_of_ne_nil hne
      have hmem : a ∈ default.toList ++ (b :: details ++ more) := by
        rw [harguments]
        exact List.mem_cons_self
      obtain ⟨rest, hrest⟩ := exists_render_call (.positional e) (b :: details)
      obtain ⟨rest', hrest'⟩ := exists_render_call a arguments
      rw [List.cons_append] at harguments
      rw [initialOf_cons, List.cons_append, initialOf_cons, harguments, hrest', Option.toList_some,
        List.singleton_append, hrest, String.append_right_inj, String.append_right_inj] at htext
      exact append_ne_append hhead (hothers a hmem) rest rest' htext

/-- Two defaults before the same details differ as their texts do. -/
theorem render_eq_of_initialOf {e e' : Expr} {details : List Argument}
    (h : (initialOf (some (.positional e)) details).render =
      (initialOf (some (.positional e')) details).render) : e.render = e'.render := by
  cases details with
  | nil => exact (String.append_right_inj " = ").1 h
  | cons a details =>
      simp only [initialOf_cons, Initial.render, Option.toList_some, List.singleton_append,
        List.map_cons, String.intercalate_cons_cons, String.append_left_inj,
        String.append_right_inj] at h
      exact h

end Groundplan.Source
