import Groundplan.Proofs.QuotedText
import Groundplan.Proofs.TypeText
import Groundplan.Render.Field

/-!
# The lines of fields

A field is rendered as one line, below a comment of one line. Names are spelled, literals escape
line breaks, comments are flattened and numbers are digits and a few marks, so all of these stay on
their line. The type does so exactly if the text it is made of does. Nothing else in a property
matters.

Line feeds and carriage returns are what breaks a line of source. Other characters at which a text
might be divided, such as the line separator, do not.
-/

namespace Groundplan

namespace Source

/-- The characters that end a line of source. -/
def isBreak (c : Char) : Bool :=
  c = '\n' || c = '\r'

/-- Whether a text stays on one line. -/
abbrev Unbroken : String → Prop :=
  Text.Free isBreak

theorem isBreak_eq_false {c : Char} (h : 0x20 ≤ c.toNat) : isBreak c = false := by
  simp only [isBreak, Bool.or_eq_false_iff, decide_eq_false_iff_not]
  constructor <;> rintro rfl <;> exact absurd h (by decide)

theorem isBlank_of_isBreak {c : Char} (h : isBreak c = true) : Text.isBlank c = true := by
  simp only [isBreak, Bool.or_eq_true, decide_eq_true_eq] at h
  rcases h with rfl | rfl <;> decide

theorem isBreak_of_isInk {c : Char} (h : Text.isInk c = true) : isBreak c = false := by
  simp only [Text.isInk, Bool.and_eq_true, decide_eq_true_eq] at h
  exact isBreak_eq_false h.1

theorem oneLine_of_unbroken {text : String} (h : Unbroken text) : OneLine text :=
  fun hbreak => absurd (Text.free_iff.1 h '\n' hbreak) (by decide)

/-! ### Quoted texts and names -/

theorem unbroken_of_isPlain {text : String} (h : Name.IsPlain text) : Unbroken text :=
  Text.free_iff.2 fun c hc => isBreak_of_isInk (Text.isInk_of_isNameChar (h c hc))

theorem unbroken_flatten (text : String) : Unbroken (Text.flatten text) := by
  refine Text.free_iff.2 fun c hc => ?_
  rcases Text.of_mem_flatten hc with rfl | ⟨-, hblank⟩
  · decide
  · cases hbreak : isBreak c with
    | false => rfl
    | true => rw [isBlank_of_isBreak hbreak] at hblank; cases hblank

theorem unbroken_literal (text : String) : Unbroken (Text.literal text) := by
  refine Text.free_iff.2 fun c hc => ?_
  rcases Text.of_mem_literal hc with hink | ⟨-, hlow⟩
  · exact isBreak_of_isInk hink
  · exact isBreak_eq_false hlow

/-! ### Numbers -/

theorem isDigit_of_mem_toDigits {n : Nat} {c : Char} (h : c ∈ Nat.toDigits 10 n) :
    c.isDigit = true :=
  Nat.isDigit_of_mem_toDigits (by decide) (by decide) h

theorem isDigit_of_mem_significant {n : Nat} {c : Char} (h : c ∈ Double.significant n) :
    c.isDigit = true := by
  unfold Double.significant at h
  simp only at h
  split at h
  · rw [List.mem_singleton.1 h]
    decide
  · rw [List.mem_reverse] at h
    exact isDigit_of_mem_toDigits (List.mem_reverse.1 ((List.dropWhile_suffix _).subset h))

/-- The characters of numbers: digits, the signs and marks between them, and the letters of those
that have no digits. -/
def isNumeric (c : Char) : Bool :=
  c.isDigit || ['.', 'e', '+', '-', 'i', 'n', 'f', 'a'].contains c

theorem isNumeric_of_isDigit {c : Char} (h : c.isDigit = true) : isNumeric c = true := by
  rw [isNumeric, h, Bool.true_or]

theorem all_toDigits (n : Nat) : (Nat.toDigits 10 n).all isNumeric = true :=
  List.all_eq_true.2 fun _ hc => isNumeric_of_isDigit (isDigit_of_mem_toDigits hc)

theorem all_decimalInt (n : Int) : (Text.decimalInt n).toList.all isNumeric = true := by
  cases n with
  | ofNat n =>
      rw [Text.decimalInt, Text.decimal, String.toList_ofList]
      exact all_toDigits n
  | negSucc n =>
      have hchars : (Text.decimalInt (.negSucc n)).toList = '-' :: Nat.toDigits 10 (n + 1) := by
        simp [Text.decimalInt, Text.decimal]
      rw [hchars, List.all_cons, all_toDigits]
      rfl

/-- Zeros, points, signs and the mark of an exponent are all that is added to the digits. -/
theorem all_layOut {digits : List Char} (h : digits.all isNumeric = true) (exponent : Int) :
    (Double.layOut digits exponent).all isNumeric = true := by
  have hzeros (count : Nat) : (List.replicate count '0').all isNumeric = true := by
    rw [List.all_replicate]
    split <;> decide
  have htake (count : Nat) {cs : List Char} (hcs : cs.all isNumeric = true) :
      (cs.take count).all isNumeric = true :=
    List.all_eq_true.2 fun c hc => List.all_eq_true.1 hcs c (List.mem_of_mem_take hc)
  have hdrop (count : Nat) {cs : List Char} (hcs : cs.all isNumeric = true) :
      (cs.drop count).all isNumeric = true :=
    List.all_eq_true.2 fun c hc => List.all_eq_true.1 hcs c (List.mem_of_mem_drop hc)
  have hpower := all_toDigits exponent.natAbs
  have hmarks : isNumeric '0' = true ∧ isNumeric '.' = true ∧ isNumeric 'e' = true ∧
      isNumeric '+' = true ∧ isNumeric '-' = true := by
    decide
  unfold Double.layOut
  simp only
  split_ifs <;>
    simp only [List.all_cons, List.all_append, List.all_nil, Bool.and_true, *]

theorem all_double (x : Double) : x.text.toList.all isNumeric = true := by
  have hsign (negative : Bool) : (if negative then "-" else "").toList.all isNumeric = true := by
    cases negative <;> decide
  cases x with
  | nan => decide
  | infinite negative => cases negative <;> decide
  | finite negative m e =>
      unfold Double.text
      simp only
      split
      · rw [String.toList_append, List.all_append, hsign]
        decide
      · rw [String.toList_append, List.all_append, hsign, String.toList_ofList, all_layOut]
        · rfl
        · exact List.all_eq_true.2 fun _ hc => isNumeric_of_isDigit (isDigit_of_mem_significant hc)

theorem all_numberText (x : Double) : (numberText x).toList.all isNumeric = true := by
  unfold numberText
  split
  · exact all_decimalInt _
  · exact all_double x

/-- A text of numeric characters has none of a kind to which none of these belongs. -/
theorem free_of_all_isNumeric {kind : Char → Bool} (hkind : ∀ n < 128,
      isNumeric (Char.ofNat n) = true → kind (Char.ofNat n) = false)
    {text : String} (h : text.toList.all isNumeric = true) : Text.Free kind text := by
  have hascii {c : Char} (hc : isNumeric c = true) : c.toNat < 128 := by
    simp only [isNumeric, Bool.or_eq_true, List.contains_iff_mem] at hc
    rcases hc with hdigit | hmark
    · refine Name.toNat_lt_of_isAlphanum ?_
      rw [Char.isAlphanum, hdigit, Bool.or_true]
    · simp only [List.mem_cons, List.not_mem_nil, or_false] at hmark
      rcases hmark with rfl | rfl | rfl | rfl | rfl | rfl | rfl | rfl <;> decide
  refine Text.free_iff.2 fun c hc => ?_
  have hnumeric := List.all_eq_true.1 h c hc
  exact Name.of_ascii (fun c => isNumeric c = true → kind c = false) hkind (hascii hnumeric)
    hnumeric

theorem isBreak_of_isNumeric : ∀ n < 128, isNumeric (Char.ofNat n) = true →
    isBreak (Char.ofNat n) = false := by
  decide

theorem unbroken_decimalInt (n : Int) : Unbroken (Text.decimalInt n) :=
  free_of_all_isNumeric isBreak_of_isNumeric (all_decimalInt n)

theorem unbroken_numberText (x : Double) : Unbroken (numberText x) :=
  free_of_all_isNumeric isBreak_of_isNumeric (all_numberText x)

/-! ### Expressions -/

/-- An expression stays on its line unless it names a type that does not. -/
theorem unbroken_render {e : Expr}
    (h : ∀ type name, e = .member type name → Unbroken type ∧ Unbroken name) :
    Unbroken e.render := by
  cases e with
  | constant c => cases c <;> decide
  | integer n => exact unbroken_decimalInt n
  | number x => exact unbroken_numberText x
  | text text => exact unbroken_literal text
  | decimal text => exact ((Text.free_ofList rfl).append (unbroken_literal text)).append (by decide)
  | member type name =>
      obtain ⟨htype, hname⟩ := h type name rfl
      exact (htype.append (by decide)).append hname

end Source

namespace Scope

open Source

/-! ### Fields -/

theorem unbroken_iff_of_core_eq {text text' : String}
    (h : TypeExpr.core text = TypeExpr.core text') : Unbroken text ↔ Unbroken text' := by
  have hframe : ∀ n < 128, TypeExpr.isFrame (Char.ofNat n) = true →
      isBreak (Char.ofNat n) = false := by
    decide
  exact TypeExpr.free_iff_of_core_eq hframe h

/-- The only expression of a default that has a type in it is a member of an enumeration, one that
the scope has. -/
theorem of_fateOf_eq_member {s : Scope} {base : String} {value : Value} {type name : String}
    (h : s.fateOf base value = .kept (.member type name)) :
    type = base ∧ Name.IsPlain name ∧
      ∃ members, s.members.get? type = some members ∧ name ∈ members := by
  unfold fateOf at h
  split at h
  case h_5 text =>
    -- A text is a member only where the type is neither a decimal nor a text itself.
    split_ifs at h
    · cases h
    · cases h
    · unfold memberFate at h
      split at h
      next => cases h
      next members hmembers =>
        split_ifs at h with hmember
        cases h
        exact ⟨rfl, Name.isPlain_constant text, members, hmembers, by simpa using hmember⟩
  case h_1 => cases h
  case h_6 => cases h
  all_goals split_ifs at h <;> cases h

/-- What is kept of a default stays on its line. -/
theorem unbroken_of_kept {s : Scope} {base : String} (hbase : Unbroken base) {value : Value}
    {e : Expr} (h : s.fateOf base value = .kept e) : Unbroken e.render := by
  refine unbroken_render fun type name hmember => ?_
  obtain ⟨rfl, hname, -⟩ := of_fateOf_eq_member (hmember ▸ h)
  exact ⟨hbase, unbroken_of_isPlain hname⟩

theorem unbroken_named {keyword : String} (hkeyword : Unbroken keyword) {e : Expr}
    (he : Unbroken e.render) : Unbroken (Argument.named keyword e).render :=
  (hkeyword.append (by decide)).append he

theorem unbroken_of_mem_labels {fieldName : String} {p : Property} {a : Argument}
    (h : a ∈ labels fieldName p) : Unbroken a.render := by
  rcases List.mem_append.1 h with h | h
  · split at h
    · cases h
    · rw [List.mem_singleton.1 h]
      exact unbroken_named (by decide) (unbroken_literal _)
  · split at h
    · cases h
    · cases h
    · rw [List.mem_singleton.1 h]
      exact unbroken_named (by decide) (unbroken_literal _)

theorem unbroken_of_mem_constraints {s : Scope} {p : Property} {c : Constraint}
    (h : c ∈ s.constraints p) : Unbroken (Argument.named c.keyword c.value).render := by
  unfold constraints at h
  split at h
  · cases h
  next rules _ =>
    simp only [List.mem_filterMap, id_eq, exists_eq_right, List.mem_cons, List.not_mem_nil,
      or_false, eq_comm (a := some c), Option.map_eq_some_iff] at h
    -- One case for each kind of constraint, in the order in which they are collected.
    rcases h with ⟨x, -, rfl⟩ | ⟨x, -, rfl⟩ | ⟨n, -, rfl⟩ | ⟨n, -, rfl⟩ | ⟨text, -, rfl⟩ |
      ⟨n, -, rfl⟩
    · show Unbroken (Argument.named "ge" (.number x)).render
      exact unbroken_named (by decide) (unbroken_numberText x)
    · show Unbroken (Argument.named "le" (.number x)).render
      exact unbroken_named (by decide) (unbroken_numberText x)
    · show Unbroken (Argument.named "min_length" (.integer n)).render
      exact unbroken_named (by decide) (unbroken_decimalInt n)
    · show Unbroken (Argument.named "max_length" (.integer n)).render
      exact unbroken_named (by decide) (unbroken_decimalInt n)
    · show Unbroken (Argument.named "pattern" (.text text)).render
      exact unbroken_named (by decide) (unbroken_literal text)
    · show Unbroken (Argument.named "decimal_places" (.integer n)).render
      exact unbroken_named (by decide) (unbroken_decimalInt n)

theorem unbroken_defaultArgument {s : Scope} {p : Property}
    (hbase : Unbroken (s.baseTarget p.typeText)) {a : Argument}
    (h : s.defaultArgument p = some a) : Unbroken a.render := by
  unfold defaultArgument at h
  split at h
  next e hkept =>
    cases h
    exact unbroken_of_kept hbase hkept
  next =>
    split_ifs at h <;> cases h
    · decide
    · decide

theorem unbroken_initial {s : Scope} {p : Property} (hbase : Unbroken (s.baseTarget p.typeText)) :
    Unbroken (s.initial p).render := by
  have hdefault : ∀ a, s.defaultArgument p = some a → Unbroken a.render := fun a =>
    unbroken_defaultArgument hbase
  have hdetails : ∀ a ∈ s.details p, Unbroken a.render := by
    intro a ha
    rcases List.mem_append.1 ha with ha | ha
    · exact unbroken_of_mem_labels ha
    · obtain ⟨c, hc, rfl⟩ := List.mem_map.1 ha
      exact unbroken_of_mem_constraints (List.mem_filter.1 hc).1
  -- Nothing, a value by itself, or a call over the default and the details.
  unfold initial
  split
  next => decide
  next e hsome _ => exact Text.Free.append (by decide) (hdefault _ hsome)
  next =>
    have harguments : ∀ text ∈ ((s.defaultArgument p).toList ++ s.details p).map Argument.render,
        Unbroken text := by
      intro text htext
      obtain ⟨a, ha, rfl⟩ := List.mem_map.1 htext
      rcases List.mem_append.1 ha with ha | ha
      · exact hdefault a (Option.mem_toList.1 ha)
      · exact hdetails a ha
    exact ((Text.Free.append (by decide) (by decide)).append
      (Text.free_intercalate (by decide) harguments)).append (by decide)

theorem unbroken_of_comment {s : Scope} {p : Property} {comment : String}
    (h : (s.field p).comment = some comment) : Unbroken comment := by
  unfold field at h
  simp only at h
  split at h
  · cases h
  · cases h
  · rw [← Option.some.inj h]
    exact (Text.free_ofList rfl).append (unbroken_flatten _)

/-- The lines of a field are unbroken exactly if the text is that its type is made of. -/
theorem unbroken_field_iff (s : Scope) (p : Property) :
    (∀ line ∈ (s.field p).lines, Unbroken line) ↔ Unbroken (s.meaning p.typeText) := by
  have hhint : Unbroken (s.hint p) ↔ Unbroken (s.meaning p.typeText) :=
    unbroken_iff_of_core_eq (s.core_hint p)
  have hbase : Unbroken (s.baseTarget p.typeText) ↔ Unbroken (s.meaning p.typeText) :=
    unbroken_iff_of_core_eq (s.core_baseTarget p.typeText)
  have hname : Unbroken (Name.member p.name ++ ": ") :=
    (unbroken_of_isPlain (Name.isPlain_member p.name)).append (by decide)
  have hline : Unbroken (s.field p).line ↔ Unbroken (s.meaning p.typeText) := by
    have hshape : (s.field p).line =
        Name.member p.name ++ ": " ++ s.hint p ++ (s.initial p).render := by
      unfold Declaration.line field
      dsimp only
    rw [hshape]
    constructor
    · -- The hint is a part of the line.
      intro h
      have hstart := ((Text.free_append_iff _ _).1 h).1
      exact hhint.1 ((Text.free_append_iff _ _).1 hstart).2
    · -- Besides the hint only a member of an enumeration has the type in it.
      intro h
      exact (hname.append (hhint.2 h)).append (unbroken_initial (hbase.2 h))
  have hcomment : ∀ comment, (s.field p).comment = some comment → Unbroken ("# " ++ comment) :=
    fun comment h => Text.Free.append (by decide) (unbroken_of_comment h)
  rw [← hline]
  unfold Declaration.lines
  split
  next comment h => simp [hcomment comment h]
  next => simp

end Scope

end Groundplan
