import Groundplan.Proofs.DeclarationTokens

/-!
# Names on the wire

A declaration goes by its alias on the wire, or by its own name if it has no alias. Both are read
off its line. Fields and query parameters are spelled by different rules, but under either of them
the name on the wire is that of the property, and there is an alias only where it is needed.

The line is read as it was meant if the text that the type is made of has no syntax in it. A type
that is no identifier is not spelled anew, so it can hide the alias in a comment or bring one of its
own. Parameters come down to primitives, so nothing can happen to theirs.
-/

namespace Groundplan

namespace Source

/-! ### Reading the name -/

/-- The text for the alias, where tokens start with that argument. -/
def startsAlias? : List Token → Option String
  | .word w :: .mark c :: .text t :: _ => if w = "alias" ∧ c = '=' then some t else none
  | _ => none

/-- The text for the first alias in tokens. -/
def aliasIn? : List Token → Option String
  | [] => none
  | t :: ts => (startsAlias? (t :: ts)).or (aliasIn? ts)

/-- The name that tokens start to declare. -/
def startsDeclaring? : List Token → Option String
  | .word w :: .mark c :: _ => if c = ':' then some w else none
  | _ => none

/-- The alias of a declaration, which is an argument behind its equals sign. -/
def alias? (line : String) : Option String :=
  (tokens? line.toList).bind fun ts => aliasIn? (ts.dropWhile (· ≠ .mark '='))

/-- The name that a line declares. -/
def declared? (line : String) : Option String :=
  (tokens? line.toList).bind startsDeclaring?

/-- The name that a declaration goes by on the wire. -/
def wireName? (line : String) : Option String :=
  (alias? line).or (declared? line)

/-- Whether a declaration goes by a name on the wire, with an alias just where its own name is
another one. -/
def Declaration.GoesBy (d : Declaration) (name : String) : Prop :=
  wireName? d.line = some name ∧ declared? d.line = some d.name ∧
    ((alias? d.line).isSome = true ↔ d.name ≠ name)

/-! ### Aliases in tokens -/

/-- An alias does not reach over a mark other than its equals sign. -/
theorem startsAlias?_append_mark {c : Char} (hc : c ≠ '=') (t : Token) (ts us : List Token) :
    startsAlias? (t :: (ts ++ .mark c :: us)) = startsAlias? (t :: ts) := by
  -- Three tokens decide, so the mark is among them if fewer than two others are before it.
  match t, ts with
  | .text _, _ => rfl
  | .mark _, _ => rfl
  | .word w, [] =>
      cases us with
      | nil => rfl
      | cons u us =>
          cases u with
          | word | mark => rfl
          | text => exact if_neg fun h => hc h.2
  | .word _, [u] =>
      cases u with
      | word | text => rfl
      | mark => rfl
  | .word _, u :: v :: _ =>
      cases u with
      | word | text => rfl
      | mark =>
          cases v with
          | word | mark | text => rfl

theorem aliasIn?_append_mark {c : Char} (hc : c ≠ '=') (ts us : List Token) :
    aliasIn? (ts ++ .mark c :: us) = (aliasIn? ts).or (aliasIn? us) := by
  induction ts with
  | nil => rfl
  | cons t ts ih =>
      rw [List.cons_append, aliasIn?, aliasIn?, startsAlias?_append_mark hc, ih, Option.or_assoc]

theorem startsAlias?_eq_none {ts : List Token} (h : .mark '=' ∉ ts) : startsAlias? ts = none := by
  unfold startsAlias?
  split
  · refine if_neg fun halias => h ?_
    rw [← halias.2]
    simp
  · rfl

theorem aliasIn?_eq_none {ts : List Token} (h : .mark '=' ∉ ts) : aliasIn? ts = none := by
  induction ts with
  | nil => rfl
  | cons t ts ih =>
      rw [aliasIn?, startsAlias?_eq_none h, ih fun hmem => h (List.mem_cons_of_mem t hmem)]
      rfl

/-! ### Aliases in arguments -/

theorem not_mem_of_isNumeral {ts : List Token} (h : IsNumeral ts) : .mark '=' ∉ ts := by
  intro hmem
  rcases h _ hmem with ⟨w, hw, -⟩ | hmark | hmark | hmark
  · cases hw
  · exact absurd hmark (by decide)
  · exact absurd hmark (by decide)
  · exact absurd hmark (by decide)

/-- The type of a member is the only place for an equals sign in an expression. -/
theorem Expr.not_mem_tokens {e : Expr} (hreadable : e.Readable)
    (h : ∀ type name, e = .member type name → '=' ∉ type.toList) : .mark '=' ∉ e.tokens := by
  cases e with
  | constant c => cases c <;> decide
  | integer n => exact not_mem_of_isNumeral (scansNumeral_lexed (scansNumeral_decimalInt n)).2
  | number x =>
      cases hfinite : x.isFinite with
      | true =>
          exact not_mem_of_isNumeral (scansNumeral_lexed (scansNumeral_numberText hfinite)).2
      | false =>
          obtain ⟨sign, w, hsign, -, hscans⟩ := exists_scans_of_not_isFinite hfinite
          rw [Expr.tokens, hscans.lexed_eq]
          rcases hsign with rfl | rfl <;> simp
  | text t => simp [Expr.tokens]
  | decimal t => simp [Expr.tokens]
  | member type name =>
      intro hmem
      rcases List.mem_append.1 hmem with hmem | hmem
      · rcases madeOf_lexed hreadable.1 _ hmem with ⟨w, hw⟩ | ⟨c, hc, heq⟩
        · cases hw
        · cases heq
          exact h type name rfl hc
      · simp at hmem

theorem aliasIn?_listTokens (arguments : List Argument) :
    aliasIn? (listTokens arguments) = arguments.findSome? fun a => aliasIn? a.tokens := by
  induction arguments with
  | nil => rfl
  | cons a arguments ih =>
      cases arguments with
      | nil => simp [listTokens]
      | cons b arguments =>
          rw [listTokens, aliasIn?_append_mark (by decide), ih]
          generalize b :: arguments = others
          rw [List.findSome?_cons]
          cases aliasIn? a.tokens <;> rfl

theorem aliasIn?_keyword {keyword : String} (hkeyword : keyword ≠ "alias") {ts : List Token}
    (h : .mark '=' ∉ ts) : aliasIn? (.word keyword :: .mark '=' :: ts) = none := by
  have hstart : startsAlias? (.word keyword :: .mark '=' :: ts) = none := by
    unfold startsAlias?
    split
    next heq =>
      cases heq
      exact if_neg fun halias => hkeyword halias.1
    next => rfl
  rw [aliasIn?, hstart, aliasIn?, aliasIn?_eq_none h]
  rfl

theorem aliasIn?_alias (t : String) : aliasIn? (Argument.named "alias" (.text t)).tokens = some t :=
  rfl

theorem aliasIn?_labels (fieldName : String) (p : Property) :
    ((Scope.labels fieldName p).findSome? fun a => aliasIn? a.tokens) =
      if fieldName = p.name then none else some p.name := by
  have hdescription (t : String) :
      aliasIn? (Argument.named "description" (.text t)).tokens = none :=
    aliasIn?_keyword (by decide) (by simp [Argument.named, Expr.tokens])
  unfold Scope.labels
  rw [List.findSome?_append]
  split
  · rw [List.findSome?_nil, Option.none_or]
    split
    · rfl
    · rfl
    · rw [List.findSome?_cons, hdescription]
      rfl
  · rw [List.findSome?_cons, aliasIn?_alias]
    rfl

theorem aliasIn?_call (function : String) (arguments : List Argument) :
    aliasIn? (Initial.call function arguments).tokens =
      arguments.findSome? fun a => aliasIn? a.tokens := by
  have hopening : aliasIn? [.mark '=', .word function] = none := rfl
  have hclosing : aliasIn? (listTokens arguments ++ [.mark ')']) =
      aliasIn? (listTokens arguments) := by
    rw [aliasIn?_append_mark (by decide), aliasIn?, Option.or_none]
  change aliasIn? ([.mark '=', .word function] ++ .mark '(' :: (listTokens arguments ++ _)) = _
  rw [aliasIn?_append_mark (by decide), hopening, hclosing, aliasIn?_listTokens, Option.none_or]

/-- The alias in an initial value is that of its arguments, in a call or not. -/
theorem aliasIn?_initialOf (default : Option Argument) (details : List Argument) :
    aliasIn? (initialOf default details).tokens =
      (default.toList ++ details).findSome? fun a => aliasIn? a.tokens := by
  rcases initialOf_cases default details with ⟨hargs, heq⟩ | ⟨e, hargs, heq⟩ | ⟨-, heq⟩
  · rw [heq, hargs]
    rfl
  · have htokens : (Initial.value e).tokens = .mark '=' :: (Argument.positional e).tokens := rfl
    rw [heq, hargs, htokens, aliasIn?, List.findSome?_cons]
    cases aliasIn? (Argument.positional e).tokens <;> rfl
  · rw [heq, aliasIn?_call]

/-! ### Declarations -/

/-- The alias of a declaration is that of its initial value. -/
theorem Declaration.alias?_line {d : Declaration} (hname : IsWord d.name)
    (hhint : Text.Free isSyntax d.hint) (hinitial : d.initial.Readable) :
    alias? d.line = aliasIn? d.initial.tokens ∧ declared? d.line = some d.name := by
  have hline := Declaration.tokens?_line hname (free_isDelimiter hhint) hinitial
  have hvalue := Declaration.valueTokens?_line hname hhint hinitial
  refine ⟨?_, by rw [declared?, hline]; rfl⟩
  have hread : alias? d.line = (valueTokens? d.line).bind aliasIn? := by
    rw [alias?, valueTokens?, hline]
    rfl
  rw [hread, hvalue, Option.bind_some]

/-- A declaration goes by a name if its initial value has the alias that this takes. -/
theorem Declaration.goesBy {d : Declaration} {name : String} (hname : IsWord d.name)
    (hhint : Text.Free isSyntax d.hint) (hinitial : d.initial.Readable)
    (halias : aliasIn? d.initial.tokens = if d.name = name then none else some name) :
    d.GoesBy name := by
  obtain ⟨hread, hdeclared⟩ := Declaration.alias?_line hname hhint hinitial
  rw [halias] at hread
  refine ⟨?_, hdeclared, ?_⟩
  · rw [wireName?, hread, hdeclared]
    split
    next heq => rw [heq]; rfl
    next => rfl
  · rw [hread]
    split
    next heq => simp [heq]
    next hne => simp [hne]

end Source

namespace Scope

open Source

/-! ### Fields and parameters -/

variable {s : Scope} {p : Property}

/-- What is kept of a default has no syntax in it if the base of the type has none. -/
theorem free_of_kept (hbase : Text.Free isSyntax (s.baseTarget p.typeText)) {e : Expr}
    (h : s.defaultFate p = .kept e) {type name : String} (hmember : e = .member type name) :
    Text.Free isSyntax type := by
  subst hmember
  obtain ⟨rfl, -⟩ := of_fateOf_eq_member h
  exact hbase

theorem readable_of_base (hbase : Text.Free isSyntax (s.baseTarget p.typeText)) {e : Expr}
    (h : s.defaultFate p = .kept e) : e.Readable :=
  readable_of_kept h fun _ _ hmember => free_isDelimiter (free_of_kept hbase h hmember)

theorem aliasIn?_of_kept (hbase : Text.Free isSyntax (s.baseTarget p.typeText)) {e : Expr}
    (h : s.defaultFate p = .kept e) : aliasIn? e.tokens = none :=
  aliasIn?_eq_none <| Expr.not_mem_tokens (readable_of_base hbase h) fun _ _ hmember =>
    not_mem_of_free (free_of_kept hbase h hmember)

theorem aliasIn?_defaultArgument (hbase : Text.Free isSyntax (s.baseTarget p.typeText)) :
    ((s.defaultArgument p).toList.findSome? fun a => aliasIn? a.tokens) = none := by
  rw [List.findSome?_eq_none_iff]
  intro a ha
  rcases of_defaultArgument (Option.mem_toList.1 ha) with ⟨e, hkept, rfl⟩ | rfl | rfl
  · exact aliasIn?_of_kept hbase hkept
  · rfl
  · rfl

theorem aliasIn?_demands (s : Scope) (p : Property) :
    ((s.demands p).findSome? fun a => aliasIn? a.tokens) = none := by
  rw [List.findSome?_eq_none_iff]
  intro a ha
  obtain ⟨keyword, hkeyword, value, rfl, -⟩ := of_mem_demands ha
  have hvalue := ne_member_of_mem_demands ha
  refine aliasIn?_keyword (isWord_of_mem_demandKeywords hkeyword).2 ?_
  exact Expr.not_mem_tokens (Expr.readable_of_ne_member hvalue) fun type name hmember =>
    absurd hmember (hvalue type name)

/-- Of the arguments of a field only that for the alias is read as one. -/
theorem aliasIn?_initial (hbase : Text.Free isSyntax (s.baseTarget p.typeText)) :
    aliasIn? (s.initial p).tokens =
      if Name.member p.name = p.name then none else some p.name := by
  rw [initial_eq, aliasIn?_initialOf, List.findSome?_append, aliasIn?_defaultArgument hbase,
    Option.none_or, List.findSome?_append, aliasIn?_demands, Option.or_none, aliasIn?_labels]

theorem goesBy_field (h : Text.Free isSyntax (s.meaning p.typeText)) :
    (s.field p).GoesBy p.name := by
  obtain ⟨hbase, hhint⟩ := free_of_meaning h
  have hinitial := readable_initial fun _ => readable_of_base hbase
  have hname := isWord_member p.name
  have halias := aliasIn?_initial hbase
  unfold field
  -- Left in view, the spelling of the name would be unfolded.
  generalize Name.member p.name = name at *
  exact Declaration.goesBy hname hhint hinitial halias

theorem goesBy_parameter (h : Text.Free isSyntax (s.meaning p.typeText)) :
    (Routes.parameter s p).GoesBy p.name := by
  have hquery : IsWord "Query" := by decide
  have hhint := (free_of_meaning h).2
  have hname := isWord_field p.name
  have hlabels : ∀ a ∈ labels (Name.field p.name) p, a.Readable := fun a =>
    all_of_mem_labels fun _ => trivial
  have halias := aliasIn?_labels (Name.field p.name) p
  unfold Routes.parameter
  generalize Name.field p.name = name at *
  generalize labels name p = given at *
  have hfirst (c : Constant) : aliasIn? (Argument.positional (.constant c)).tokens = none := by
    cases c <;> rfl
  refine Declaration.goesBy hname hhint ⟨hquery, ?_⟩ ?_
  · intro a ha
    rcases List.mem_cons.1 ha with rfl | ha
    · exact Argument.all_positional trivial
    · exact hlabels a ha
  · rw [aliasIn?_call, List.findSome?_cons, hfirst]
    exact halias

end Scope

/-! ### Primitives -/

namespace TypeExpr

theorem name_tree (expr : TypeExpr) : expr.tree.name = expr.innermost := by
  induction expr with
  | leaf name => rfl
  | wrapped text wrapper inner ih => exact ih

end TypeExpr

namespace Scope

open Source

/-- A type that comes down to a primitive has no syntax in it. -/
theorem free_meaning_of_isBound {s : Scope} {p : Property} (h : Routes.isBound p = true) :
    Text.Free isSyntax (s.meaning p.typeText) := by
  have hlookup := TypeExpr.isSome_lookup_of_isPrimitive h
  rw [TypeExpr.name_tree] at hlookup
  have hprimitives : ∀ entry ∈ TypeExpr.primitives, Text.Free isSyntax entry.1 := by decide
  rw [meaning, TypeExpr.meaning, if_pos hlookup]
  obtain ⟨target, htarget⟩ := Option.isSome_iff_exists.1 hlookup
  exact hprimitives (_, target) ((Catalog.lookup_eq_some_iff_mem (by decide) _ target).1 htarget)

/-- Fields and parameters go by the name of their property, with an alias just where they are
spelled differently, as long as the type has no syntax in it; and parameters that are bound from the
query string do so always. -/
theorem wire_names_kept (s : Scope) (p : Property) :
    (Text.Free isSyntax (s.meaning p.typeText) →
        (s.field p).GoesBy p.name ∧ (Routes.parameter s p).GoesBy p.name) ∧
      (Routes.isBound p = true → (Routes.parameter s p).GoesBy p.name) :=
  ⟨fun h => ⟨goesBy_field h, goesBy_parameter h⟩,
    fun h => goesBy_parameter (free_meaning_of_isBound h)⟩

/-- A price goes by its name, which is not how it is spelled. -/
theorem price_goes_by_name :
    (Text.Free isSyntax (bare.meaning "Decimal") ∧
        (bare.field (.plain "unitPrice" "Decimal")).GoesBy "unitPrice") ∧
      Routes.isBound (.plain "unitPrice" "Decimal") = true ∧
        (Routes.parameter bare (.plain "unitPrice" "Decimal")).GoesBy "unitPrice" := by
  have hparse : TypeExpr.parse "Decimal" = .leaf "Decimal" :=
    TypeExpr.parse_primitive "Decimal" (by decide)
  have hfree : Text.Free isSyntax (bare.meaning "Decimal") := by
    rw [meaning, hparse]
    decide
  have hbound : Routes.isBound (.plain "unitPrice" "Decimal") = true := by
    change (TypeExpr.parse "Decimal").isPrimitive = true
    rw [hparse]
    decide
  have hkept := wire_names_kept bare (.plain "unitPrice" "Decimal")
  exact ⟨⟨hfree, (hkept.1 hfree).1⟩, hbound, hkept.2 hbound⟩

/-- A price whose type has a remark behind it. -/
def unitPrice : Property :=
  .plain "unitPrice" "Decimal # in cents"

/-- A total whose type has an alias behind it. -/
def grandTotal : Property :=
  .plain "total" "str = Field(alias=\"sum\")"

/-- The type of a price hides its alias, and that of a total brings one that is not needed. -/
theorem aliases_lost_and_brought :
    (wireName? (bare.field unitPrice).line = some "unit_price" ∧
        ¬ (bare.field unitPrice).GoesBy "unitPrice") ∧
      wireName? (bare.field grandTotal).line = some "sum" ∧
        ¬ (bare.field grandTotal).GoesBy "total" := by
  have hprice : (bare.field unitPrice).line =
      "unit_price: Decimal # in cents = Field(alias=\"unitPrice\")" := by
    have hhint : bare.hint unitPrice = "Decimal # in cents" := by
      change (TypeExpr.parse "Decimal # in cents").target [] = _
      rw [TypeExpr.parse_of_not_mem (by decide)]
      decide +kernel
    have hinitial : bare.initial unitPrice =
        .call "Field" [.named "alias" (.text "unitPrice")] := by
      decide +kernel
    rw [line_field, hhint, hinitial]
    decide +kernel
  have htotal : (bare.field grandTotal).line = "total: str = Field(alias=\"sum\")" := by
    have hhint : bare.hint grandTotal = "str = Field(alias=\"sum\")" := by
      change (TypeExpr.parse "str = Field(alias=\"sum\")").target [] = _
      rw [TypeExpr.parse_of_not_mem (by decide)]
      decide +kernel
    have hinitial : bare.initial grandTotal = .none := by
      decide +kernel
    rw [line_field, hhint, hinitial]
    decide +kernel
  have hnames : wireName? "unit_price: Decimal # in cents = Field(alias=\"unitPrice\")" =
      some "unit_price" ∧ wireName? "total: str = Field(alias=\"sum\")" = some "sum" := by
    decide +kernel
  refine ⟨⟨by rw [hprice, hnames.1], ?_⟩, by rw [htotal, hnames.2], ?_⟩
  · rintro ⟨hname, -⟩
    rw [hprice, hnames.1] at hname
    exact absurd hname (by decide)
  · rintro ⟨hname, -⟩
    rw [htotal, hnames.2] at hname
    exact absurd hname (by decide)

end Scope

end Groundplan
