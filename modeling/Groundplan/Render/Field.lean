import Groundplan.Note
import Groundplan.Render.Scope
import Groundplan.Source.Declaration

/-!
# Properties as fields

A property becomes a field with its type hint, its default and the constraints that its type
admits. The name on the wire stays that of the property: where the field is spelled differently,
an alias says so. A default that the type cannot hold and a constraint that it does not admit are
left out, with a note.
-/

namespace Groundplan

open Source (Argument Constant Declaration Expr Initial)

/-- What becomes of the default of a property. -/
inductive DefaultFate where
  | absent
  | kept (e : Expr)
  | notMember
  | unfit
  deriving DecidableEq, Repr

/-- A constraint of a property, and whether its type admits it. -/
structure Constraint where
  name : String
  keyword : String
  value : Expr
  admitted : Bool
  deriving DecidableEq, Repr

/-- Whether a constraint has a number that cannot be written. -/
def Constraint.isUnwritable (c : Constraint) : Bool :=
  match c.value with
  | .integer n => (Text.decimalInt? n).isNone
  | _ => false

namespace Scope

/-- What becomes of a text that stands as default of an enumeration. -/
def memberFate (s : Scope) (base : String) (text : String) : DefaultFate :=
  match s.members.get? base with
  | none => .unfit
  | some members =>
    if members.contains (Name.constant text) then .kept (.member base (Name.constant text))
    else .notMember

/-- What becomes of a default, given the type without its outer options. -/
def fateOf (s : Scope) (base : String) : Value → DefaultFate
  | .scalar .null => .absent
  | .scalar (.bool b) => if base = "bool" then .kept (Expr.ofBool b) else .absent
  | .scalar (.int n) =>
    if base = "Decimal" then .kept (.decimal (Text.decimalInt n))
    else if base = "int" then .kept (.integer n)
    else .unfit
  | .scalar (.float x) => if base = "Decimal" then .kept (.decimal x.text) else .unfit
  | .scalar (.str text) =>
    if base = "Decimal" then .kept (.decimal text)
    else if base = "str" then .kept (.text text)
    else s.memberFate base text
  | _ => .unfit

def defaultFate (s : Scope) (p : Property) : DefaultFate :=
  s.fateOf (s.baseTarget p.typeText) p.default

/-- The note about a default that is left out, given how the default is shown. -/
def defaultNotes (s : Scope) (p : Property) (shown : String) : List Note :=
  let start := "Property " ++ p.name ++ ": default " ++ shown
  match s.defaultFate p with
  | .notMember =>
    [⟨.warning, .fields,
      start ++ " is not a member of " ++ s.baseTarget p.typeText ++ " and is dropped"⟩]
  | .unfit => [⟨.debug, .fields, start ++ " not representable as " ++ s.baseTarget p.typeText⟩]
  | _ => []

/-- The trail of rendering a default: whether it is kept or left out, it is written somewhere. -/
def defaultTrail (s : Scope) (p : Property) : Trail :=
  match p.default.display with
  | .ok shown => .done (s.defaultNotes p shown)
  | .error why => .stop why.obstacle

/-- The constraints of a property, each judged by the type without its outer options. -/
def constraints (s : Scope) (p : Property) : List Constraint :=
  match p.rules with
  | none => []
  | some rules =>
    let base := s.baseTarget p.typeText
    let numeric := base = "int" || base = "Decimal"
    let sized := base = "str" || (TypeExpr.parse p.typeText).isList
    [rules.min.map fun x => ⟨"min", "ge", .number x, numeric⟩,
      rules.max.map fun x => ⟨"max", "le", .number x, numeric⟩,
      rules.minLength.map fun n => ⟨"minLength", "min_length", .integer n, sized⟩,
      rules.maxLength.map fun n => ⟨"maxLength", "max_length", .integer n, sized⟩,
      rules.pattern.map fun s => ⟨"pattern", "pattern", .text s, base = "str"⟩,
      rules.precision.map fun n => ⟨"precision", "decimal_places", .integer n, base = "Decimal"⟩
      ].filterMap id

/-- The note about constraints that are left out. -/
def constraintNotes (s : Scope) (p : Property) : List Note :=
  match (s.constraints p).filter fun c => !c.admitted with
  | [] => []
  | skipped =>
    [⟨.debug, .fields,
      "Property " ++ p.name ++ " (" ++ p.typeText ++ "): ignoring constraints " ++
        ", ".intercalate (skipped.map Constraint.name) ++ " that do not apply to " ++
        s.baseTarget p.typeText⟩]

/-- The trail of rendering constraints: those that the type admits are written. -/
def constraintTrail (s : Scope) (p : Property) : Trail :=
  if (s.constraints p).any fun c => c.admitted && c.isUnwritable then .stop .unwritableNumber
  else .done (s.constraintNotes p)

/-- Whether the default of a property is the empty list of a list type. -/
def startsEmpty (p : Property) : Bool :=
  match p.default.unfold with
  | .list [] => (TypeExpr.parse p.typeText).isList
  | _ => false

/-- The argument that gives a field its default, if it has one: a field that is not required
starts without a value. -/
def defaultArgument (s : Scope) (p : Property) : Option Argument :=
  match s.defaultFate p with
  | .kept e => some (.positional e)
  | _ =>
    if startsEmpty p then some (.named "default_factory" (.constant .list))
    else if p.required then none
    else some (.positional (.constant .none))

/-- The arguments that say what a property is called and what it means. -/
def labels (fieldName : String) (p : Property) : List Argument :=
  (if fieldName = p.name then [] else [.named "alias" (.text p.name)]) ++
    match p.description with
    | none | some "" => []
    | some description => [.named "description" (.text (Text.commentLine description))]

/-- The arguments of a field besides its default. -/
def details (s : Scope) (p : Property) : List Argument :=
  labels (Name.member p.name) p ++
    ((s.constraints p).filter Constraint.admitted).map fun c => .named c.keyword c.value

/-- The initial value of a field: an expression by itself, or a call where more is to be said. -/
def initial (s : Scope) (p : Property) : Initial :=
  match s.defaultArgument p, s.details p with
  | none, [] => .none
  | some ⟨none, e⟩, [] => .value e
  | default, details => .call "Field" (default.toList ++ details)

def field (s : Scope) (p : Property) : Declaration where
  comment := match p.computed with
    | none | some "" => none
    | some computed => some ("computed: " ++ Text.commentLine computed)
  name := Name.member p.name
  hint := s.hint p
  initial := s.initial p

def parameter (s : Scope) (p : Property) : Declaration :=
  .bare (Name.member p.name) (s.hint p)

def typeTrail (s : Scope) (typeText : String) : Trail :=
  if (TypeExpr.parse typeText).isTooDeep s.aliases.entries then .stop .deepType else .done []

def fieldTrail (s : Scope) (p : Property) : Trail :=
  s.typeTrail p.typeText ++ s.defaultTrail p ++ s.constraintTrail p

end Scope

end Groundplan
