import Groundplan.Proofs.SourceTokens

/-!
# The tokens of declarations

An expression, an argument and an initial value each have their tokens, and a declaration is read as
the tokens of its parts. The only part of an expression that might be read as something else is the
type of a member, because that is not spelled by the renderer: it must not hold a delimiter. In a
field this is the type of the property itself.
-/

namespace Groundplan

namespace Source

/-! ### Expressions -/

/-- The tokens of a constant. -/
def Constant.tokens : Constant → List Token
  | .ellipsis => [.mark '.', .mark '.', .mark '.']
  | c => [.word c.text]

theorem Constant.scans_text (c : Constant) : Scans c.text.toList c.tokens := by
  have hword : ∀ c : Constant, c = .ellipsis ∨ IsWord c.text ∧ c.tokens = [.word c.text] := by
    intro c
    cases c <;> decide
  rcases hword c with rfl | ⟨hc, htokens⟩
  · exact ((scans_nil.mark (by decide)).mark (by decide)).mark (by decide)
  · rw [htokens]
    exact hc.scans

/-- The tokens of an expression. -/
def Expr.tokens : Expr → List Token
  | .constant c => c.tokens
  | .integer n => lexed (Text.decimalInt n)
  | .number x => lexed (numberText x)
  | .text t => [.text t]
  | .decimal t => [.word "Decimal", .mark '(', .text t, .mark ')']
  | .member type name => lexed type ++ [.mark '.', .word name]

/-- Whether an expression is read as its tokens. -/
def Expr.Readable : Expr → Prop
  | .member type name => Text.Free isDelimiter type ∧ IsWord name
  | _ => True

theorem Expr.readable_of_ne_member {e : Expr} (h : ∀ type name, e ≠ .member type name) :
    e.Readable := by
  cases e with
  | member type name => exact absurd rfl (h type name)
  | constant | integer | number | text | decimal => trivial

theorem scansNumeral_lexed {text : String} (h : ScansNumeral text.toList) :
    Scans text.toList (lexed text) ∧ IsNumeral (lexed text) := by
  obtain ⟨ts, hscans, hts⟩ := h
  rw [hscans.lexed_eq]
  exact ⟨hscans, hts⟩

theorem Expr.scans_render {e : Expr} (h : e.Readable) : Scans e.render.toList e.tokens := by
  cases e with
  | constant c => exact c.scans_text
  | integer n => exact (scansNumeral_lexed (scansNumeral_decimalInt n)).1
  | number x => exact scans_numberText x
  | text t => exact scans_literal t
  | decimal t =>
      have hword : IsWord "Decimal" := by decide
      have hinside : Scans ((Text.literal t).toList ++ [')']) [.text t, .mark ')'] :=
        (scans_literal t).append (scans_nil.mark (by decide)) (apart_cons (by decide) [])
      have hchars : (Expr.decimal t).render.toList =
          "Decimal".toList ++ '(' :: ((Text.literal t).toList ++ [')']) := by
        simp [Expr.render]
      rw [hchars]
      exact hword.scans.append (hinside.mark (by decide)) (apart_cons (by decide) _)
  | member type name =>
      have hchars : (Expr.member type name).render.toList =
          type.toList ++ '.' :: name.toList := by
        simp [Expr.render]
      rw [hchars]
      exact (scans_lexed h.1).append (h.2.scans.mark (by decide)) (apart_cons (by decide) _)

/-! ### Arguments -/

/-- The tokens of an argument. -/
def Argument.tokens (a : Argument) : List Token :=
  match a.keyword with
  | none => a.value.tokens
  | some keyword => .word keyword :: .mark '=' :: a.value.tokens

/-- Whether the keyword of an argument is a word and its value has a property. -/
def Argument.All (P : Expr → Prop) (a : Argument) : Prop :=
  (∀ keyword ∈ a.keyword, IsWord keyword) ∧ P a.value

/-- Whether an argument is read as its tokens. -/
abbrev Argument.Readable : Argument → Prop :=
  Argument.All Expr.Readable

theorem Argument.all_positional {P : Expr → Prop} {e : Expr} (h : P e) :
    (Argument.positional e).All P :=
  ⟨by simp [Argument.positional], h⟩

theorem Argument.all_named {P : Expr → Prop} {keyword : String} (hkeyword : IsWord keyword)
    {e : Expr} (h : P e) : (Argument.named keyword e).All P :=
  ⟨by simpa [Argument.named] using hkeyword, h⟩

theorem Argument.scans_render {a : Argument} (h : a.Readable) :
    Scans a.render.toList a.tokens := by
  obtain ⟨keyword, value⟩ := a
  cases keyword with
  | none => exact Expr.scans_render h.2
  | some keyword =>
      have hchars : (Argument.mk (some keyword) value).render.toList =
          keyword.toList ++ '=' :: value.render.toList := by
        simp [Argument.render]
      rw [hchars]
      have hvalue : Scans ('=' :: value.render.toList) (.mark '=' :: value.tokens) :=
        (Expr.scans_render h.2).mark (by decide)
      exact (h.1 keyword rfl).scans.append hvalue (apart_cons (by decide) _)

/-- The tokens of arguments with commas between them. -/
def listTokens : List Argument → List Token
  | [] => []
  | [a] => a.tokens
  | a :: b :: arguments => a.tokens ++ .mark ',' :: listTokens (b :: arguments)

theorem scans_intercalate {arguments : List Argument} (h : ∀ a ∈ arguments, a.Readable) :
    Scans (", ".intercalate (arguments.map Argument.render)).toList (listTokens arguments) := by
  induction arguments with
  | nil => exact scans_nil
  | cons a arguments ih =>
      have ha : Scans a.render.toList a.tokens := Argument.scans_render (h a List.mem_cons_self)
      have ih := ih fun b hb => h b (List.mem_cons_of_mem a hb)
      cases arguments with
      | nil => simpa [listTokens] using ha
      | cons b arguments =>
          have hchars : (", ".intercalate ((a :: b :: arguments).map Argument.render)).toList =
              a.render.toList ++ ',' :: ' ' ::
                (", ".intercalate ((b :: arguments).map Argument.render)).toList := by
            simp [String.intercalate_cons_cons]
          rw [hchars]
          exact ha.append (ih.space.mark (by decide)) (apart_cons (by decide) _)

/-! ### Initial values and lines -/

/-- The tokens of an initial value, with the equals sign before it. -/
def Initial.tokens : Initial → List Token
  | .none => []
  | .value e => .mark '=' :: e.tokens
  | .call function arguments =>
    .mark '=' :: .word function :: .mark '(' :: (listTokens arguments ++ [.mark ')'])

/-- Whether the function and the keywords of an initial value are words and all its values have a
property. -/
def Initial.All (P : Expr → Prop) : Initial → Prop
  | .none => True
  | .value e => P e
  | .call function arguments => IsWord function ∧ ∀ a ∈ arguments, a.All P

/-- Whether an initial value is read as its tokens. -/
abbrev Initial.Readable : Initial → Prop :=
  Initial.All Expr.Readable

theorem Initial.scans_render {i : Initial} (h : i.Readable) : Scans i.render.toList i.tokens := by
  cases i with
  | none => exact scans_nil
  | value e =>
      have hchars : (Initial.value e).render.toList = ' ' :: '=' :: ' ' :: e.render.toList := by
        simp [Initial.render]
      rw [hchars]
      exact ((Expr.scans_render h).space.mark (by decide)).space
  | call function arguments =>
      have hchars : (Initial.call function arguments).render.toList =
          ' ' :: '=' :: ' ' :: (function.toList ++
            '(' :: ((", ".intercalate (arguments.map Argument.render)).toList ++ [')'])) := by
        simp [Initial.render]
      have hinside := (scans_intercalate h.2).append (scans_nil.mark (c := ')') (by decide))
        (apart_cons (by decide) [])
      rw [hchars]
      exact ((h.1.scans.append (hinside.mark (by decide)) (apart_cons (by decide) _)).space.mark
        (by decide)).space

theorem Initial.apart_render (i : Initial) : Apart i.render.toList := by
  have hspace (cs : List Char) : Apart (' ' :: cs) := apart_cons (by decide) cs
  cases i with
  | none => exact apart_nil
  | value e =>
      simp only [Initial.render, String.toList_append]
      exact hspace _
  | call function arguments =>
      simp only [Initial.render, String.toList_append, List.append_assoc]
      exact hspace _

/-- A declaration is read as its name, its hint and its initial value. -/
theorem Declaration.tokens?_line {d : Declaration} (hname : IsWord d.name)
    (hhint : Text.Free isDelimiter d.hint) (hinitial : d.initial.Readable) :
    tokens? d.line.toList =
      some (.word d.name :: .mark ':' :: (lexed d.hint ++ d.initial.tokens)) := by
  have hchars : d.line.toList =
      d.name.toList ++ ':' :: ' ' :: (d.hint.toList ++ d.initial.render.toList) := by
    simp [Declaration.line]
  have hbehind := (scans_lexed hhint).append (Initial.scans_render hinitial) d.initial.apart_render
  rw [hchars]
  exact (hname.scans.append (hbehind.space.mark (by decide)) (apart_cons (by decide) _)).tokens?_eq

/-- The characters that a type must not have if its declaration is to be read as it was meant. -/
def isSyntax (c : Char) : Bool :=
  isDelimiter c || c = '='

theorem not_mem_of_free {text : String} (h : Text.Free isSyntax text) : '=' ∉ text.toList :=
  fun hmem => absurd (Text.free_iff.1 h '=' hmem) (by decide)

theorem free_isDelimiter {text : String} (h : Text.Free isSyntax text) :
    Text.Free isDelimiter text := by
  refine Text.free_iff.2 fun c hc => ?_
  have hsyntax := Text.free_iff.1 h c hc
  rw [isSyntax, Bool.or_eq_false_iff] at hsyntax
  exact hsyntax.1

theorem head?_tokens (i : Initial) : i.tokens = [] ∨ i.tokens.head? = some (.mark '=') := by
  cases i with
  | none => exact .inl rfl
  | value e => exact .inr rfl
  | call function arguments => exact .inr rfl

/-- The tokens of a line from its first equals sign on. -/
def valueTokens? (line : String) : Option (List Token) :=
  (tokens? line.toList).map fun ts => ts.dropWhile (· ≠ .mark '=')

/-- If the hint has no syntax in it, the first equals sign is that of the initial value. -/
theorem Declaration.valueTokens?_line {d : Declaration} (hname : IsWord d.name)
    (hhint : Text.Free isSyntax d.hint) (hinitial : d.initial.Readable) :
    valueTokens? d.line = some d.initial.tokens := by
  have hbefore : ∀ t ∈ .word d.name :: .mark ':' :: lexed d.hint, t ≠ .mark '=' := by
    rintro t ht rfl
    simp only [List.mem_cons, reduceCtorEq, Token.mark.injEq, false_or] at ht
    rcases ht with heq | ht
    · exact absurd heq (by decide)
    · rcases madeOf_lexed (free_isDelimiter hhint) _ ht with ⟨w, hw⟩ | ⟨c, hc, heq⟩
      · cases hw
      · cases heq
        exact not_mem_of_free hhint hc
  have hdrop : d.initial.tokens.dropWhile (· ≠ .mark '=') = d.initial.tokens := by
    rcases head?_tokens d.initial with hnil | hhead
    · rw [hnil]
      rfl
    · cases htokens : d.initial.tokens with
      | nil => rfl
      | cons t ts =>
          rw [htokens] at hhead
          rw [Option.some.inj hhead]
          rfl
  rw [valueTokens?, Declaration.tokens?_line hname (free_isDelimiter hhint) hinitial,
    Option.map_some, ← List.cons_append, ← List.cons_append,
    List.dropWhile_append_of_pos (by simpa using hbefore), hdrop]

end Source

namespace Scope

open Source

variable {s : Scope} {p : Property}

/-! ### Fields -/

theorem isSyntax_of_isFrame : ∀ n < 128, TypeExpr.isFrame (Char.ofNat n) = true →
    isSyntax (Char.ofNat n) = false := by
  decide

/-- The base and the hint of a property have the syntax in them that its type is made of. -/
theorem free_of_meaning (h : Text.Free isSyntax (s.meaning p.typeText)) :
    Text.Free isSyntax (s.baseTarget p.typeText) ∧ Text.Free isSyntax (s.hint p) :=
  ⟨(TypeExpr.free_iff_of_core_eq isSyntax_of_isFrame (s.core_baseTarget p.typeText)).2 h,
    (TypeExpr.free_iff_of_core_eq isSyntax_of_isFrame (s.core_hint p)).2 h⟩

/-- Whether a number is a limit that a field is given for its property. -/
def Limits (s : Scope) (p : Property) (x : Double) : Prop :=
  (∃ rules, p.rules = some rules ∧ (rules.min = some x ∨ rules.max = some x)) ∧
    (s.baseTarget p.typeText = "int" ∨ s.baseTarget p.typeText = "Decimal")

/-- The keywords of constraints. -/
def demandKeywords : List String :=
  ["ge", "le", "min_length", "max_length", "pattern", "decimal_places"]

theorem isWord_of_mem_demandKeywords {keyword : String} (h : keyword ∈ demandKeywords) :
    IsWord keyword ∧ keyword ≠ "alias" := by
  have hwords : ∀ keyword ∈ demandKeywords, IsWord keyword ∧ keyword ≠ "alias" := by decide
  exact hwords keyword h

/-- The values of constraints are limits, whole numbers and patterns. -/
theorem of_mem_demands {a : Argument} (h : a ∈ s.demands p) :
    ∃ keyword ∈ demandKeywords, ∃ value, a = .named keyword value ∧
      ((∃ x, value = .number x ∧ s.Limits p x) ∨ (∃ n, value = .integer n) ∨
        ∃ t, value = .text t) := by
  obtain ⟨c, hc, rfl⟩ := List.mem_map.1 h
  obtain ⟨hc, hadmitted⟩ := List.mem_filter.1 hc
  unfold constraints at hc
  split at hc
  · cases hc
  next rules hrules =>
    simp only [List.mem_filterMap, id_eq, exists_eq_right, List.mem_cons, List.not_mem_nil,
      or_false, eq_comm (a := some c), Option.map_eq_some_iff] at hc
    -- One case for each kind of constraint; the type admits the limits among them.
    rcases hc with ⟨x, hx, rfl⟩ | ⟨x, hx, rfl⟩ | ⟨n, -, rfl⟩ | ⟨n, -, rfl⟩ | ⟨t, -, rfl⟩ |
      ⟨n, -, rfl⟩
    · refine ⟨"ge", by decide, _, rfl, .inl ⟨x, rfl, ⟨rules, hrules, .inl hx⟩, ?_⟩⟩
      simpa using hadmitted
    · refine ⟨"le", by decide, _, rfl, .inl ⟨x, rfl, ⟨rules, hrules, .inr hx⟩, ?_⟩⟩
      simpa using hadmitted
    · exact ⟨"min_length", by decide, _, rfl, .inr (.inl ⟨n, rfl⟩)⟩
    · exact ⟨"max_length", by decide, _, rfl, .inr (.inl ⟨n, rfl⟩)⟩
    · exact ⟨"pattern", by decide, _, rfl, .inr (.inr ⟨t, rfl⟩)⟩
    · exact ⟨"decimal_places", by decide, _, rfl, .inr (.inl ⟨n, rfl⟩)⟩

theorem ne_member_of_mem_demands {keyword : String} {value : Expr}
    (h : .named keyword value ∈ s.demands p) : ∀ type name, value ≠ .member type name := by
  rintro type name rfl
  obtain ⟨keyword', -, value', heq, hvalue⟩ := of_mem_demands h
  cases heq
  rcases hvalue with ⟨x, hx, -⟩ | ⟨n, hn⟩ | ⟨t, ht⟩
  · cases hx
  · cases hn
  · cases ht

/-- Every limit is among the constraints. -/
theorem Limits.exists_mem_demands {x : Double} (h : s.Limits p x) :
    ∃ keyword, .named keyword (.number x) ∈ s.demands p := by
  obtain ⟨⟨rules, hrules, hx⟩, hbase⟩ := h
  have hadmitted : (s.baseTarget p.typeText = "int" || s.baseTarget p.typeText = "Decimal") =
      true := by
    simpa using hbase
  have hmem (keyword name : String) (hc : ⟨name, keyword, .number x,
      s.baseTarget p.typeText = "int" || s.baseTarget p.typeText = "Decimal"⟩ ∈ s.constraints p) :
      .named keyword (.number x) ∈ s.demands p :=
    List.mem_map.2 ⟨_, List.mem_filter.2 ⟨hc, hadmitted⟩, rfl⟩
  rcases hx with hx | hx
  · refine ⟨"ge", hmem "ge" "min" ?_⟩
    simp [constraints, hrules, hx]
  · refine ⟨"le", hmem "le" "max" ?_⟩
    simp [constraints, hrules, hx]

/-- A field starts with its default, with an empty list or with nothing. -/
theorem of_defaultArgument {a : Argument} (h : s.defaultArgument p = some a) :
    (∃ e, s.defaultFate p = .kept e ∧ a = .positional e) ∨
      a = .named "default_factory" (.constant .list) ∨ a = .positional (.constant .none) := by
  unfold defaultArgument at h
  split at h
  next e hkept => exact .inl ⟨e, hkept, (Option.some.inj h).symm⟩
  next =>
    split_ifs at h
    · exact .inr (.inl (Option.some.inj h).symm)
    · exact .inr (.inr (Option.some.inj h).symm)

theorem of_mem_labels {fieldName : String} {a : Argument} (h : a ∈ labels fieldName p) :
    a = .named "alias" (.text p.name) ∨ ∃ t, a = .named "description" (.text t) := by
  rcases List.mem_append.1 h with h | h
  · split at h
    · cases h
    · exact .inl (List.mem_singleton.1 h)
  · split at h
    · cases h
    · cases h
    · exact .inr ⟨_, List.mem_singleton.1 h⟩

theorem all_of_mem_labels {P : Expr → Prop} (htext : ∀ t, P (.text t)) {fieldName : String}
    {a : Argument} (h : a ∈ labels fieldName p) : a.All P := by
  have hkeywords : IsWord "alias" ∧ IsWord "description" := by decide
  rcases of_mem_labels h with rfl | ⟨t, rfl⟩
  · exact Argument.all_named hkeywords.1 (htext _)
  · exact Argument.all_named hkeywords.2 (htext t)

/-- What is kept of a default is read as its tokens, unless it is a member of a type with
delimiters. -/
theorem readable_of_kept {e : Expr} (h : s.defaultFate p = .kept e)
    (htype : ∀ type name, e = .member type name → Text.Free isDelimiter type) : e.Readable := by
  obtain ⟨-, -, ⟨b, -, -, rfl⟩ | ⟨n, -, -, rfl⟩ | ⟨t, -, rfl⟩ | ⟨t, -, -, rfl⟩ |
    ⟨t, -, rfl⟩⟩ := fateOf_kept_cases h
  · trivial
  · trivial
  · trivial
  · trivial
  · exact ⟨htype _ _ rfl, isWord_constant t⟩

/-- The values of a field have a property if what is kept of the default has it and everything has
it that is no member of an enumeration. -/
theorem all_initial {P : Expr → Prop} (hplain : ∀ e, (∀ type name, e ≠ .member type name) → P e)
    (hkept : ∀ e, s.defaultFate p = .kept e → P e) : (s.initial p).All P := by
  have hdefault : ∀ a ∈ (s.defaultArgument p).toList, a.All P := by
    have hfactory : IsWord "default_factory" := by decide
    intro a ha
    rcases of_defaultArgument (Option.mem_toList.1 ha) with ⟨e, hfate, rfl⟩ | rfl | rfl
    · exact Argument.all_positional (hkept e hfate)
    · exact Argument.all_named hfactory (hplain _ (by simp))
    · exact Argument.all_positional (hplain _ (by simp))
  have hdemands : ∀ a ∈ s.demands p, a.All P := by
    intro a ha
    obtain ⟨keyword, hkeyword, value, rfl, -⟩ := of_mem_demands ha
    exact Argument.all_named (isWord_of_mem_demandKeywords hkeyword).1
      (hplain _ (ne_member_of_mem_demands ha))
  have harguments : ∀ a ∈ (s.defaultArgument p).toList ++ s.details p, a.All P := by
    intro a ha
    rcases List.mem_append.1 ha with ha | ha
    · exact hdefault a ha
    · rcases List.mem_append.1 ha with ha | ha
      · exact all_of_mem_labels (fun t => hplain _ (by simp)) ha
      · exact hdemands a ha
  rcases initialOf_cases (s.defaultArgument p) (s.details p) with ⟨-, heq⟩ | ⟨e, hargs, heq⟩ |
    ⟨-, heq⟩
  · rw [initial_eq]
    exact heq ▸ trivial
  · have he : (Argument.positional e).All P := harguments _ (by rw [hargs]; simp)
    rw [show s.initial p = .value e from heq]
    exact he.2
  · have hfield : IsWord "Field" := by decide
    rw [show s.initial p = .call "Field" _ from heq]
    exact ⟨hfield, harguments⟩

/-- The initial value of a field is read as its tokens if what is kept of the default is. -/
theorem readable_initial (hkept : ∀ e, s.defaultFate p = .kept e → e.Readable) :
    (s.initial p).Readable :=
  all_initial (fun _ => Expr.readable_of_ne_member) hkept

end Scope

end Groundplan
