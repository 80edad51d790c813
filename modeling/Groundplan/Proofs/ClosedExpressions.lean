import Groundplan.Proofs.DeclarationTokens
import Groundplan.Proofs.EnumerationOrder

/-!
# Closed initial values

The right-hand side of a field refers to nothing but what every generated module has at hand: some
names of the language and of its libraries, and members of the enumerations in scope. Words that
start with a digit are numerals, and words before an equals sign are the keywords of arguments.

The one exception are limits. A number that is infinite, or none at all, is written as a word, and
no module binds that word. So a right-hand side is closed exactly if the limits in it are finite.

On the line the right-hand side is what stands behind the first equals sign. A type that is no
identifier is not spelled anew and can bring an equals sign of its own, and then the right-hand side
begins in the type.
-/

namespace Groundplan

namespace Scope

open Source

/-! ### Known words -/

/-- The names that right-hand sides can rely on. -/
def givenNames : List String :=
  ["Field", "Decimal", "list", "None", "True", "False"]

/-- The tokens of the name of an enumeration, which may be empty. -/
def nameTokens (type : String) : List Token :=
  if type = "" then [] else [.word type]

/-- Whether a word is known where it stands: as a numeral, as the keyword of an argument, as a given
name, or as either part of a reference to a member of an enumeration. -/
inductive Knows (s : Scope) (before : List Token) (w : String) (after : List Token) : Prop where
  | numeral (h : Name.startsWithDigit w = true)
  | keyword (h : [.mark '='] <+: after)
  | given (h : w ∈ givenNames)
  | owner {members : List String} {member : String} (hget : s.members.get? w = some members)
      (hmember : member ∈ members) (h : [.mark '.', .word member] <+: after)
  | member {type : String} {members : List String} (hget : s.members.get? type = some members)
      (hmember : w ∈ members) (h : nameTokens type ++ [.mark '.'] <:+ before)

/-- Whether all words among tokens are known. -/
def KnowsAll (s : Scope) (ts : List Token) : Prop :=
  ∀ before w after, ts = before ++ .word w :: after → s.Knows before w after

/-- The right-hand side of a line: the tokens behind its first equals sign. -/
def right? (line : String) : Option (List Token) :=
  (valueTokens? line).map List.tail

/-- Whether a right-hand side can be read and is closed. -/
def Closes (s : Scope) (right : Option (List Token)) : Prop :=
  ∃ ts, right = some ts ∧ s.KnowsAll ts

/-- Whether the enumerations of a scope have words for names. -/
def NamesWords (s : Scope) : Prop :=
  ∀ type members, s.members.get? type = some members → type.toList.all isWordChar = true

section

variable {s : Scope} {before after : List Token} {w : String}

theorem Knows.append (h : s.Knows before w after) (start rest : List Token) :
    s.Knows (start ++ before) w (after ++ rest) := by
  have hbehind : after <+: after ++ rest := List.prefix_append after rest
  have hahead : before <:+ start ++ before := List.suffix_append start before
  cases h with
  | numeral h => exact .numeral h
  | keyword h => exact .keyword (h.trans hbehind)
  | given h => exact .given h
  | owner hget hmember h => exact .owner hget hmember (h.trans hbehind)
  | member hget hmember h => exact .member hget hmember (h.trans hahead)

/-- What a list starts with ends before an element that is not part of it. -/
theorem prefix_of_prefix_append_cons {α : Type} {x : α} {start xs ys : List α} (hx : x ∉ start)
    (h : start <+: xs ++ x :: ys) : start <+: xs := by
  rcases List.prefix_or_prefix_of_prefix h (List.prefix_append xs (x :: ys)) with hle | ⟨more, rfl⟩
  · exact hle
  · cases more with
    | nil => simp
    | cons y more =>
        rw [List.prefix_append_right_inj, List.cons_prefix_cons] at h
        exact absurd (by simp [h.1]) hx

theorem suffix_of_suffix_append_cons {α : Type} {x : α} {tail xs ys : List α} (hx : x ∉ tail)
    (h : tail <:+ xs ++ x :: ys) : tail <:+ ys := by
  rcases List.suffix_or_suffix_of_suffix h (List.suffix_append xs (x :: ys)) with hle | hle
  · rcases List.suffix_cons_iff.1 hle with rfl | hle
    · exact absurd List.mem_cons_self hx
    · exact hle
  · exact absurd (hle.subset List.mem_cons_self) hx

/-- What is behind a mark other than a point and an equals sign does not matter. -/
theorem Knows.of_append_mark {c : Char} (hc : c ≠ '.' ∧ c ≠ '=') {rest : List Token}
    (h : s.Knows before w (after ++ .mark c :: rest)) : s.Knows before w after := by
  cases h with
  | numeral h => exact .numeral h
  | keyword h => exact .keyword (prefix_of_prefix_append_cons (by simp [hc.2]) h)
  | given h => exact .given h
  | owner hget hmember h =>
      exact .owner hget hmember (prefix_of_prefix_append_cons (by simp [hc.1]) h)
  | member hget hmember h => exact .member hget hmember h

/-- What is before a mark other than a point does not matter. -/
theorem Knows.of_mark_append {c : Char} (hc : c ≠ '.') {start : List Token}
    (h : s.Knows (start ++ .mark c :: before) w after) : s.Knows before w after := by
  cases h with
  | numeral h => exact .numeral h
  | keyword h => exact .keyword h
  | given h => exact .given h
  | owner hget hmember h => exact .owner hget hmember h
  | @member type _ hget hmember h =>
      have hmark : .mark c ∉ nameTokens type ++ [.mark '.'] := by
        unfold nameTokens
        split <;> simp [hc]
      exact .member hget hmember (suffix_of_suffix_append_cons hmark h)

end

/-! ### Known tokens -/

section

variable {s : Scope}

theorem knowsAll_nil : s.KnowsAll [] := by
  intro before w after h
  simp at h

theorem knowsAll_of_no_word {ts : List Token} (h : ∀ w, .word w ∉ ts) : s.KnowsAll ts := by
  rintro before w after rfl
  exact absurd (by simp) (h w)

theorem knowsAll_of_isNumeral {ts : List Token} (h : IsNumeral ts) : s.KnowsAll ts := by
  rintro before w after rfl
  rcases h (.word w) (by simp) with ⟨w', heq, hdigit⟩ | hmark | hmark | hmark
  · cases heq
    exact .numeral hdigit
  · cases hmark
  · cases hmark
  · cases hmark

theorem knowsAll_of_given {w : String} (h : w ∈ givenNames) : s.KnowsAll [.word w] := by
  intro before w' after heq
  match before with
  | [] =>
      cases heq
      exact .given h
  | t :: before => simp at heq

/-- Tokens on the two sides of a mark other than a point and an equals sign are known apart from
each other. -/
theorem knowsAll_mark_iff {c : Char} (hc : c ≠ '.' ∧ c ≠ '=') (ts us : List Token) :
    s.KnowsAll (ts ++ .mark c :: us) ↔ s.KnowsAll ts ∧ s.KnowsAll us := by
  constructor
  · intro h
    refine ⟨?_, ?_⟩
    · rintro before w after rfl
      have hknown := h before w (after ++ .mark c :: us) (by simp)
      exact hknown.of_append_mark hc
    · rintro before w after rfl
      have hknown := h (ts ++ .mark c :: before) w after (by simp)
      exact hknown.of_mark_append hc.1
  · rintro ⟨hts, hus⟩ before w after heq
    rcases List.append_eq_append_iff.1 heq with ⟨inner, rfl, hinner⟩ | ⟨inner, rfl, hinner⟩
    · -- The word is behind the mark.
      cases inner with
      | nil => simp at hinner
      | cons t inner =>
          rw [List.cons_append, List.cons.injEq] at hinner
          obtain ⟨rfl, rfl⟩ := hinner
          have hknown := (hus inner w after rfl).append (ts ++ [.mark c]) []
          simpa using hknown
    · -- The word is before the mark.
      cases inner with
      | nil => simp at hinner
      | cons t inner =>
          rw [List.cons_append, List.cons.injEq] at hinner
          obtain ⟨rfl, rfl⟩ := hinner
          have hknown := (hts before w inner rfl).append [] (.mark c :: us)
          simpa using hknown

theorem knowsAll_keyword_iff (keyword : String) (ts : List Token) :
    s.KnowsAll (.word keyword :: .mark '=' :: ts) ↔ s.KnowsAll ts := by
  constructor
  · rintro h before w after rfl
    have hknown := h ([.word keyword] ++ .mark '=' :: before) w after (by simp)
    exact hknown.of_mark_append (by decide)
  · intro h before w after heq
    match before with
    | [] =>
        cases heq
        exact .keyword (by simp)
    | [t] => simp at heq
    | t :: u :: before =>
        obtain ⟨rfl, rfl, rfl⟩ : .word keyword = t ∧ .mark '=' = u ∧
            ts = before ++ .word w :: after := by
          simpa using heq
        have hknown := (h before w after rfl).append [.word keyword, .mark '='] []
        simpa using hknown

theorem knowsAll_listTokens_iff (arguments : List Argument) :
    s.KnowsAll (listTokens arguments) ↔ ∀ a ∈ arguments, s.KnowsAll a.tokens := by
  induction arguments with
  | nil => simp [listTokens, knowsAll_nil]
  | cons a arguments ih =>
      cases arguments with
      | nil => simp [listTokens]
      | cons b arguments =>
          rw [listTokens, knowsAll_mark_iff (by decide), ih]
          simp

theorem knowsAll_named_iff (keyword : String) (e : Expr) :
    s.KnowsAll (Argument.named keyword e).tokens ↔ s.KnowsAll e.tokens :=
  knowsAll_keyword_iff keyword e.tokens

theorem knowsAll_call_iff {function : String} (h : function ∈ givenNames)
    (arguments : List Argument) :
    s.KnowsAll (.word function :: .mark '(' :: (listTokens arguments ++ [.mark ')'])) ↔
      ∀ a ∈ arguments, s.KnowsAll a.tokens := by
  change s.KnowsAll ([.word function] ++ .mark '(' :: (listTokens arguments ++ [.mark ')'])) ↔ _
  rw [knowsAll_mark_iff (by decide), knowsAll_mark_iff (by decide), knowsAll_listTokens_iff]
  simp [knowsAll_of_given h, knowsAll_nil]

/-- At the end and without a point before it, a word is known only as a numeral or a given name. -/
theorem not_knows_last {before : List Token} {w : String}
    (hdigit : Name.startsWithDigit w = false) (hgiven : w ∉ givenNames)
    (hpoint : .mark '.' ∉ before) : ¬ s.Knows before w [] := by
  intro h
  cases h with
  | numeral h =>
      rw [hdigit] at h
      cases h
  | keyword h => simp at h
  | given h => exact hgiven h
  | owner _ _ h => simp at h
  | member _ _ h => exact hpoint (h.subset (by simp))

/-! ### Known expressions -/

/-- A number is known exactly if it is finite. -/
theorem knowsAll_number_iff (x : Double) :
    s.KnowsAll (Expr.number x).tokens ↔ x.isFinite = true := by
  cases hfinite : x.isFinite with
  | true =>
      have hnumeral := (scansNumeral_lexed (scansNumeral_numberText hfinite)).2
      simp [Expr.tokens, knowsAll_of_isNumeral hnumeral]
  | false =>
      obtain ⟨sign, w, hsign, hw, hscans⟩ := exists_scans_of_not_isFinite hfinite
      have hwords : ∀ w ∈ ["nan", "inf"], Name.startsWithDigit w = false ∧ w ∉ givenNames := by
        decide
      obtain ⟨hdigit, hgiven⟩ := hwords w (by simpa using hw)
      have hpoint : .mark '.' ∉ sign := by
        rcases hsign with rfl | rfl <;> decide
      simp only [Bool.false_eq_true, iff_false]
      intro h
      rw [Expr.tokens, hscans.lexed_eq] at h
      exact not_knows_last hdigit hgiven hpoint (h sign w [] rfl)

theorem knowsAll_integer (n : Int) : s.KnowsAll (Expr.integer n).tokens :=
  knowsAll_of_isNumeral (scansNumeral_lexed (scansNumeral_decimalInt n)).2

theorem knowsAll_text (t : String) : s.KnowsAll (Expr.text t).tokens :=
  knowsAll_of_no_word (by simp [Expr.tokens])

theorem knowsAll_decimal (t : String) : s.KnowsAll (Expr.decimal t).tokens := by
  change s.KnowsAll ([.word "Decimal"] ++ .mark '(' :: [.text t, .mark ')'])
  rw [knowsAll_mark_iff (by decide)]
  exact ⟨knowsAll_of_given (by decide), knowsAll_of_no_word (by simp)⟩

theorem lexed_eq_nameTokens {type : String} (h : type.toList.all isWordChar = true) :
    lexed type = nameTokens type := by
  unfold nameTokens
  split
  next hempty => rw [hempty, lexed, String.toList_empty, tokens?_nil, Option.getD_some]
  next hne =>
    have hword : IsWord type := ⟨fun hnil => hne (String.toList_eq_nil_iff.1 hnil), h⟩
    exact hword.scans.lexed_eq

/-- A member of an enumeration is known by its name and by that of the enumeration, even if this is
empty or looks like a numeral. -/
theorem knowsAll_member (hnames : s.NamesWords) {type name : String} {members : List String}
    (hget : s.members.get? type = some members) (hmember : name ∈ members) :
    s.KnowsAll (Expr.member type name).tokens := by
  have hname : s.Knows (nameTokens type ++ [.mark '.']) name [] :=
    .member hget hmember (List.suffix_refl _)
  rw [Expr.tokens, lexed_eq_nameTokens (hnames type members hget)]
  unfold nameTokens at hname ⊢
  intro before w after heq
  split at heq
  next hempty =>
    rw [if_pos hempty] at hname
    rcases before with - | ⟨t, - | ⟨u, before⟩⟩
    · simp at heq
    · cases heq
      exact hname
    · simp at heq
  next hne =>
    rw [if_neg hne] at hname
    rcases before with - | ⟨t, - | ⟨u, - | ⟨v, before⟩⟩⟩
    · cases heq
      exact .owner hget hmember (List.prefix_refl _)
    · simp at heq
    · cases heq
      exact hname
    · simp at heq

/-- All that is kept of a default is known. -/
theorem knowsAll_of_kept (hnames : s.NamesWords) {base : String} {value : Value} {e : Expr}
    (h : s.fateOf base value = .kept e) : s.KnowsAll e.tokens := by
  obtain ⟨-, -, ⟨b, -, -, rfl⟩ | ⟨n, -, -, rfl⟩ | ⟨t, -, rfl⟩ | ⟨t, -, -, rfl⟩ |
    ⟨t, -, rfl⟩⟩ := fateOf_kept_cases h
  · cases b with
    | true => exact knowsAll_of_given (by decide)
    | false => exact knowsAll_of_given (by decide)
  · exact knowsAll_integer n
  · exact knowsAll_decimal t
  · exact knowsAll_text t
  · obtain ⟨-, -, members, hget, hmember⟩ := of_fateOf_eq_member h
    exact knowsAll_member hnames hget hmember

end

/-! ### Right-hand sides -/

section

variable {s : Scope} {p : Property}

/-- A right-hand side is read as the tokens behind the equals sign. -/
theorem exists_tokens_right {i : Initial} (h : i.Readable) {right : String}
    (hright : i.render = " = " ++ right) :
    ∃ ts, tokens? right.toList = some ts ∧ i.tokens = .mark '=' :: ts := by
  have hchars : i.render.toList = ' ' :: '=' :: ' ' :: right.toList := by
    rw [hright]
    simp
  have hread := (Initial.scans_render h).tokens?_eq
  rw [hchars, tokens?_space, tokens?_mark (by decide), tokens?_space,
    Option.map_eq_some_iff] at hread
  obtain ⟨ts, hts, heq⟩ := hread
  exact ⟨ts, hts, heq.symm⟩

theorem exists_right {i : Initial} (h : i ≠ .none) : ∃ right, i.render = " = " ++ right := by
  cases i with
  | none => exact absurd rfl h
  | value e => exact ⟨e.render, rfl⟩
  | call function arguments =>
      refine ⟨function ++ "(" ++ ", ".intercalate (arguments.map Argument.render) ++ ")", ?_⟩
      simp [Initial.render, String.append_assoc]

/-- The right-hand side of a field is known if its arguments are. -/
theorem knowsAll_initial_iff :
    s.KnowsAll (s.initial p).tokens.tail ↔
      ∀ a ∈ (s.defaultArgument p).toList ++ s.details p, s.KnowsAll a.tokens := by
  rcases initialOf_cases (s.defaultArgument p) (s.details p) with ⟨hargs, heq⟩ | ⟨e, hargs, heq⟩ |
    ⟨-, heq⟩
  · rw [show s.initial p = .none from heq, hargs]
    exact iff_of_true knowsAll_nil fun a ha => absurd ha List.not_mem_nil
  · rw [show s.initial p = .value e from heq, hargs]
    simp only [List.mem_singleton, forall_eq]
    exact Iff.rfl
  · rw [show s.initial p = .call "Field" _ from heq]
    exact knowsAll_call_iff (by decide) _

/-- Of the arguments of a field only limits might not be known. -/
theorem knowsAll_arguments_iff (hnames : s.NamesWords) :
    (∀ a ∈ (s.defaultArgument p).toList ++ s.details p, s.KnowsAll a.tokens) ↔
      ∀ x, s.Limits p x → x.isFinite = true := by
  constructor
  · intro h x hx
    obtain ⟨keyword, hmem⟩ := hx.exists_mem_demands
    have hknown := h _ (List.mem_append_right _ (List.mem_append_right _ hmem))
    rwa [knowsAll_named_iff, knowsAll_number_iff] at hknown
  · intro h a ha
    rcases List.mem_append.1 ha with ha | ha
    · rcases of_defaultArgument (Option.mem_toList.1 ha) with ⟨e, hkept, rfl⟩ | rfl | rfl
      · exact knowsAll_of_kept hnames hkept
      · exact (knowsAll_named_iff _ _).2 (knowsAll_of_given (by decide))
      · exact knowsAll_of_given (by decide)
    · rcases List.mem_append.1 ha with ha | ha
      · rcases of_mem_labels ha with rfl | ⟨t, rfl⟩
        · exact (knowsAll_named_iff _ _).2 (knowsAll_text _)
        · exact (knowsAll_named_iff _ _).2 (knowsAll_text t)
      · obtain ⟨keyword, -, value, rfl, hvalue⟩ := of_mem_demands ha
        rw [knowsAll_named_iff]
        rcases hvalue with ⟨x, rfl, hx⟩ | ⟨n, rfl⟩ | ⟨t, rfl⟩
        · exact (knowsAll_number_iff x).2 (h x hx)
        · exact knowsAll_integer n
        · exact knowsAll_text t

theorem readable_of_namesWords (hnames : s.NamesWords) {e : Expr}
    (h : s.defaultFate p = .kept e) : e.Readable := by
  refine readable_of_kept h ?_
  rintro type name rfl
  obtain ⟨-, -, members, hget, -⟩ := of_fateOf_eq_member h
  refine Text.free_iff.2 fun c hc => ?_
  exact (not_isDelimiter_of_isWordChar (List.all_eq_true.1 (hnames type members hget) c hc)).2

theorem closes_some_iff (ts : List Token) : s.Closes (some ts) ↔ s.KnowsAll ts := by
  constructor
  · rintro ⟨us, hus, hknown⟩
    cases hus
    exact hknown
  · exact fun hknown => ⟨ts, rfl, hknown⟩

/-- What is written behind the hint is closed exactly if the limits are finite. -/
theorem closes_written_iff (hnames : s.NamesWords) {right : String}
    (hright : (s.initial p).render = " = " ++ right) :
    s.Closes (tokens? right.toList) ↔ ∀ x, s.Limits p x → x.isFinite = true := by
  have hreadable := readable_initial fun _ => readable_of_namesWords (p := p) hnames
  obtain ⟨ts, hts, htokens⟩ := exists_tokens_right hreadable hright
  have htail : (s.initial p).tokens.tail = ts := by rw [htokens, List.tail_cons]
  rw [hts, closes_some_iff, ← htail, knowsAll_initial_iff, knowsAll_arguments_iff hnames]

/-- What is read behind the first equals sign of the line is closed exactly if the limits are finite,
unless the type has syntax in it. -/
theorem closes_right_iff (hnames : s.NamesWords)
    (hfree : Text.Free isSyntax (s.meaning p.typeText)) :
    s.Closes (right? (s.field p).line) ↔ ∀ x, s.Limits p x → x.isFinite = true := by
  have hread : right? (s.field p).line = some (s.initial p).tokens.tail := by
    have hreadable := readable_initial fun _ => readable_of_namesWords (p := p) hnames
    have hhint := (free_of_meaning hfree).2
    have hname := isWord_member p.name
    unfold right? field
    generalize Name.member p.name = name at hname ⊢
    rw [Declaration.valueTokens?_line hname hhint hreadable, Option.map_some]
  rw [hread, closes_some_iff, knowsAll_initial_iff, knowsAll_arguments_iff hnames]

/-- A field with a limit has a right-hand side. -/
theorem Limits.exists_right {x : Double} (h : s.Limits p x) :
    ∃ right, (s.initial p).render = " = " ++ right := by
  obtain ⟨keyword, hmem⟩ := h.exists_mem_demands
  refine Scope.exists_right fun hnone => ?_
  rcases initialOf_cases (s.defaultArgument p) (s.details p) with ⟨hargs, -⟩ | ⟨e, -, heq⟩ |
    ⟨-, heq⟩
  · have hdetails : .named keyword (.number x) ∈ s.details p := List.mem_append_right _ hmem
    rw [(List.append_eq_nil_iff.1 hargs).2] at hdetails
    cases hdetails
  · cases (show s.initial p = .value e from heq).symm.trans hnone
  · cases (show s.initial p = .call "Field" _ from heq).symm.trans hnone

theorem right_of_line {right : String}
    (h : (s.field p).line = Name.member p.name ++ ": " ++ s.hint p ++ " = " ++ right) :
    (s.initial p).render = " = " ++ right := by
  rw [line_field, ← String.toList_inj] at h
  rw [← String.toList_inj]
  simpa only [String.toList_append, List.append_assoc, List.append_cancel_left_eq] using h

end

/-- The enumerations of a model have words for names. -/
theorem namesWords_ofModel (m : Model) : (ofModel m).NamesWords := by
  intro type members hget
  obtain ⟨name, v, values, -, -, rfl, -⟩ := exists_of_get?_members hget
  refine List.all_eq_true.2 fun c hc => ?_
  simp [isWordChar, isIdentifierChar, Name.isAlphanum_pascal name c hc]

/-- The right-hand side of a field can be read off its line and is closed exactly if the limits of
its property are finite. This takes enumerations with words for names, as they have in the scope of a
model, and a type without syntax in it. Whatever the type is, it holds of what is written behind the
hint. -/
theorem closed_iff_limits_finite (s : Scope) (p : Property) :
    (s.NamesWords →
        (Text.Free isSyntax (s.meaning p.typeText) →
          (s.Closes (right? (s.field p).line) ↔ ∀ x, s.Limits p x → x.isFinite = true)) ∧
        ((∀ right, (s.field p).line =
            Name.member p.name ++ ": " ++ s.hint p ++ " = " ++ right →
              s.Closes (tokens? right.toList)) ↔
          ∀ x, s.Limits p x → x.isFinite = true)) ∧
      ∀ m, (ofModel m).NamesWords := by
  refine ⟨fun hnames => ⟨closes_right_iff hnames, fun h x hx => ?_, fun h right hline => ?_⟩,
    namesWords_ofModel⟩
  · obtain ⟨right, hright⟩ := hx.exists_right
    have hline : (s.field p).line =
        Name.member p.name ++ ": " ++ s.hint p ++ " = " ++ right := by
      rw [line_field, hright, ← String.append_assoc]
    exact (closes_written_iff hnames hright).1 (h right hline) x hx
  · exact (closes_written_iff hnames (right_of_line hline)).2 h

/-- A whole number with an upper limit. -/
def quantity (most : Double) : Property where
  name := "quantity"
  typeText := "Integer"
  identifier := false
  required := true
  default := .null
  description := none
  rules := some ⟨none, some most, none, none, none, none⟩
  computed := none

theorem member_quantity : Name.member "quantity" = "quantity" := by
  decide +kernel

theorem hint_quantity (most : Double) :
    bare.hint (quantity most) = "int" ∧ bare.baseTarget (quantity most).typeText = "int" := by
  change (TypeExpr.parse "Integer").target [] = "int" ∧
    (TypeExpr.parse "Integer").base.target [] = "int"
  rw [TypeExpr.parse_primitive "Integer" (by decide)]
  decide

theorem free_quantity (most : Double) :
    Text.Free isSyntax (bare.meaning (quantity most).typeText) := by
  change Text.Free isSyntax (bare.meaning "Integer")
  rw [meaning, TypeExpr.parse_primitive "Integer" (by decide)]
  decide

theorem limits_quantity (most : Double) : bare.Limits (quantity most) most :=
  ⟨⟨_, rfl, .inr rfl⟩, .inl (hint_quantity most).2⟩

theorem line_quantity (most : Double) :
    (bare.field (quantity most)).line =
      "quantity" ++ ": " ++ "int" ++ " = " ++ ("Field(le=" ++ numberText most ++ ")") := by
  have hdemands : bare.demands (quantity most) = [.named "le" (.number most)] := by
    unfold demands constraints
    rw [(hint_quantity most).2]
    rfl
  have hdefault : bare.defaultArgument (quantity most) = none := rfl
  have hlabels : labels (Name.member (quantity most).name) (quantity most) = [] :=
    congrArg (fun given => given ++ []) (if_pos member_quantity)
  have hinitial : (bare.initial (quantity most)).render =
      " = " ++ ("Field(le=" ++ numberText most ++ ")") := by
    rw [initial_eq, hdefault, hlabels, hdemands, List.nil_append, initialOf_cons,
      ← String.toList_inj]
    simp [Initial.render, Argument.named, Argument.render, Expr.render]
  have hname : Name.member (quantity most).name = "quantity" := member_quantity
  rw [line_field, (hint_quantity most).1, hinitial, hname, ← String.append_assoc]

theorem namesWords_bare : bare.NamesWords := by
  intro type members hget
  cases hget

/-- Ten as a double. -/
def ten : Double :=
  .finite false 5629499534213120 (-49)

/-- A quantity of at most ten has a closed right-hand side. -/
theorem quantity_up_to_ten_closed :
    bare.NamesWords ∧ Text.Free isSyntax (bare.meaning (quantity ten).typeText) ∧
      (∀ x, bare.Limits (quantity ten) x → x.isFinite = true) ∧
      (bare.field (quantity ten)).line = "quantity: int = Field(le=10)" ∧
      bare.Closes (right? "quantity: int = Field(le=10)") := by
  have hfinite : ∀ x, bare.Limits (quantity ten) x → x.isFinite = true := by
    rintro x ⟨⟨rules, hrules, hx⟩, -⟩
    cases hrules
    rcases hx with hx | hx
    · cases hx
    · rw [← Option.some.inj hx]
      rfl
  have hfree := free_quantity ten
  have hline : (bare.field (quantity ten)).line = "quantity: int = Field(le=10)" := by
    have hten : ten.toInt? = some 10 := rfl
    rw [line_quantity ten, numberText, hten]
    decide
  have hcloses := ((closed_iff_limits_finite bare (quantity ten)).1 namesWords_bare).1 hfree
  rw [hline] at hcloses
  exact ⟨namesWords_bare, hfree, hfinite, hline, hcloses.2 hfinite⟩

/-- A text whose type brings an equals sign and a name. -/
def haunted : Property :=
  .plain "x" "str = Ghost"

theorem line_haunted : (bare.field haunted).line = "x: str = Ghost" := by
  have hhint : bare.hint haunted = "str = Ghost" := by
    change (TypeExpr.parse "str = Ghost").target [] = _
    rw [TypeExpr.parse_of_not_mem (by decide)]
    decide +kernel
  have hinitial : bare.initial haunted = .none := by
    decide +kernel
  rw [line_field, hhint, hinitial]
  decide +kernel

/-- An infinite limit is a word that nothing binds, and so is a name that a type brings. -/
theorem infinite_limit_unbound :
    ((bare.field (quantity (.infinite false))).line = "quantity: int = Field(le=inf)" ∧
      ¬ bare.Closes (right? "quantity: int = Field(le=inf)")) ∧
    (bare.field haunted).line = "x: str = Ghost" ∧ ¬ bare.Closes (right? "x: str = Ghost") := by
  have hline : (bare.field (quantity (.infinite false))).line =
      "quantity: int = Field(le=inf)" := by
    rw [line_quantity (.infinite false)]
    decide
  refine ⟨⟨hline, fun hcloses => ?_⟩, line_haunted, fun hcloses => ?_⟩
  · rw [← hline, closes_right_iff namesWords_bare (free_quantity _)] at hcloses
    cases hcloses _ (limits_quantity (.infinite false))
  · have hright : right? "x: str = Ghost" = some [.word "Ghost"] := by decide +kernel
    rw [hright, closes_some_iff] at hcloses
    exact not_knows_last (by decide) (by decide) List.not_mem_nil (hcloses [] "Ghost" [] rfl)

end Scope

end Groundplan
