import Groundplan.Name.Casing
import Groundplan.Text.Blank

/-!
# Type expressions

A model writes the type of a property as a name inside any number of wrappers: `String`,
`List<Money>`, `Option<List<OrderItem>>`. Every text is a type expression: what is no wrapper
around a shorter text is a leaf. The *target* of an expression is the type it denotes in generated
source; primitives come first, then aliases, then the names of the model's own types.
-/

namespace Groundplan

/-- The generic types that may stand around a type expression. -/
inductive Wrapper where
  | list
  | vec
  | option
  | paged
  deriving DecidableEq, Repr

namespace Wrapper

def all : List Wrapper := [.list, .vec, .option, .paged]

/-- What a wrapped expression begins with; it ends with the closing angle bracket. -/
def opening : Wrapper → String
  | .list => "List<"
  | .vec => "Vec<"
  | .option => "Option<"
  | .paged => "PagedResult<"

/-- The wrapper around the target of the inner expression. -/
def around : Wrapper → String → String
  | .list, inner => "list[" ++ inner ++ "]"
  | .vec, inner => "list[" ++ inner ++ "]"
  | .option, inner => "Optional[" ++ inner ++ "]"
  | .paged, inner => "PagedResult[" ++ inner ++ "]"

end Wrapper

/-- A type expression. Each part keeps its own text, without the blanks around it. -/
inductive TypeExpr where
  | leaf (text : String)
  | wrapped (text : String) (wrapper : Wrapper) (inner : TypeExpr)
  deriving DecidableEq, Repr

namespace TypeExpr

/-- What is left of a list behind a given beginning. -/
def dropOpening? : List Char → List Char → Option (List Char)
  | [], cs => some cs
  | _ :: _, [] => none
  | o :: opening, c :: cs => if o = c then dropOpening? opening cs else none

theorem length_of_dropOpening? {opening cs rest : List Char}
    (h : dropOpening? opening cs = some rest) : cs.length = opening.length + rest.length := by
  induction opening generalizing cs with
  | nil => simp_all [dropOpening?]
  | cons o opening ih =>
    cases cs with
    | nil => simp [dropOpening?] at h
    | cons c cs =>
      simp only [dropOpening?] at h
      split at h
      · simp only [List.length_cons, ih h]
        omega
      · exact absurd h (by simp)

theorem length_stripChars_le (cs : List Char) : (Text.stripChars cs).length ≤ cs.length := by
  have dropWhile_le (l : List Char) : (l.dropWhile Text.isBlank).length ≤ l.length :=
    (List.dropWhile_suffix _).length_le
  simp only [Text.stripChars, List.length_reverse]
  have h := dropWhile_le (cs.dropWhile Text.isBlank).reverse
  have h' := dropWhile_le cs
  simp only [List.length_reverse] at h
  omega

/-- What stands between the opening of a wrapper and a closing angle bracket at the end. -/
def inside? (wrapper : Wrapper) (cs : List Char) : Option (List Char) :=
  match dropOpening? wrapper.opening.toList cs with
  | some rest => if rest.getLast? = some '>' then some rest.dropLast else none
  | none => none

theorem length_inside?_lt {wrapper : Wrapper} {cs inner : List Char}
    (h : inside? wrapper cs = some inner) : inner.length < cs.length := by
  simp only [inside?] at h
  split at h
  · next rest hrest =>
    have hlen := length_of_dropOpening? hrest
    split at h
    · simp only [Option.some.injEq] at h
      have hopen : 0 < wrapper.opening.toList.length := by cases wrapper <;> decide
      rw [← h, List.length_dropLast]
      omega
    · exact absurd h (by simp)
  · exact absurd h (by simp)

/-- The wrapper around an expression and what it holds. -/
def unwrap? (cs : List Char) :
    Option (Wrapper × { inner : List Char // inner.length < cs.length }) :=
  Wrapper.all.findSome? fun wrapper =>
    match h : inside? wrapper cs with
    | some inner => some (wrapper, ⟨inner, length_inside?_lt h⟩)
    | none => none

/-- Reads the characters of a type expression. -/
def ofChars (cs : List Char) : TypeExpr :=
  match unwrap? (Text.stripChars cs) with
  | some (wrapper, ⟨inner, h⟩) =>
    have : inner.length < cs.length := Nat.lt_of_lt_of_le h (length_stripChars_le cs)
    .wrapped (String.ofList (Text.stripChars cs)) wrapper (ofChars inner)
  | none => .leaf (String.ofList (Text.stripChars cs))
termination_by cs.length

/-- Reads a type expression; every text is one. -/
def parse (text : String) : TypeExpr :=
  ofChars text.toList

/-- The text of an expression, without the blanks around it. -/
def text : TypeExpr → String
  | .leaf text => text
  | .wrapped text _ _ => text

def primitives : List (String × String) := [
  ("String", "str"), ("Integer", "int"), ("Decimal", "Decimal"), ("Boolean", "bool"),
  ("DateTime", "datetime"), ("Date", "date"), ("Time", "time"), ("Uuid", "UUID")]

/-- Whether characters form an ASCII identifier. -/
def isPlainName : List Char → Bool
  | [] => false
  | c :: cs => (c.isAlpha || c = '_') && cs.all fun d => d.isAlphanum || d = '_'

/-- A type name of the model: Pascal-cased if it is an identifier, as it stands otherwise. -/
def typeName (name : List Char) : String :=
  if isPlainName name then Name.pascal (String.ofList name) else String.ofList name

/-- The beginnings of names that stand for the type they request to change. -/
def requestMarks : List String := ["Create", "Update"]

/-- The rest of a name behind one request mark, if something remains. -/
def dropRequestMark? (name : List Char) : Option (List Char) :=
  requestMarks.findSome? fun mark =>
    match dropOpening? mark.toList name with
    | some (c :: cs) => some (c :: cs)
    | _ => none

/-- The target of a name of the model's own: one request mark is dropped. -/
def namedTarget (name : String) : String :=
  typeName ((dropRequestMark? name.toList).getD name.toList)

/-- The target of an expression, given the targets of leaves that are no primitives. -/
def targetWith (named : String → String) : TypeExpr → String
  | .leaf name => (primitives.lookup name).getD (named name)
  | .wrapped _ wrapper inner => wrapper.around (targetWith named inner)

/-- The target of an expression without aliases. -/
def plainTarget (expr : TypeExpr) : String :=
  targetWith namedTarget expr

/-- The target of an expression: what an alias stands for is read without aliases. -/
def target (aliases : List (String × String)) (expr : TypeExpr) : String :=
  targetWith
    (fun name =>
      match aliases.lookup name with
      | some meaning => plainTarget (parse meaning)
      | none => namedTarget name)
    expr

/-- The expression inside all outer option wrappers. -/
def base : TypeExpr → TypeExpr
  | .wrapped _ .option inner => inner.base
  | expr => expr

/-- Whether an expression is a list, perhaps an optional one. -/
def isList (expr : TypeExpr) : Bool :=
  match expr.base with
  | .wrapped _ .list _ => true
  | .wrapped _ .vec _ => true
  | _ => false

/-- Whether an expression is a primitive inside option and list wrappers. -/
def isPrimitive : TypeExpr → Bool
  | .leaf name => (primitives.lookup name).isSome
  | .wrapped _ .option inner => inner.isPrimitive
  | .wrapped _ .list inner => inner.isPrimitive
  | .wrapped _ .vec inner => inner.isPrimitive
  | .wrapped _ .paged _ => false

/-! ### Depth -/

/-- How deep expressions may be nested to have a target. -/
def depthLimit : Nat := 990

/-- How many wrappers are nested in an expression, given what a leaf that is no primitive adds. -/
def depthWith (named : String → Nat) : TypeExpr → Nat
  | .leaf name => if (primitives.lookup name).isSome then 0 else named name
  | .wrapped _ _ inner => depthWith named inner + 1

/-- How many wrappers are nested in an expression. An alias counts for one of them, besides those of
what it stands for. -/
def depth (aliases : List (String × String)) (expr : TypeExpr) : Nat :=
  expr.depthWith fun name =>
    match aliases.lookup name with
    | some meaning => (parse meaning).depthWith (fun _ => 0) + 1
    | none => 0

/-- Whether an expression is nested too deep to have a target. -/
def isTooDeep (aliases : List (String × String)) (expr : TypeExpr) : Bool :=
  depthLimit < expr.depth aliases

/-- How many lists are nested in an expression, with or without options between them. -/
def listDepth : TypeExpr → Nat
  | .wrapped _ .option inner => inner.listDepth
  | .wrapped _ .list inner => inner.listDepth + 1
  | .wrapped _ .vec inner => inner.listDepth + 1
  | _ => 0

/-- A target made optional, unless it already is. -/
def optional (target : String) : String :=
  if (dropOpening? "Optional[".toList target.toList).isSome then target
  else "Optional[" ++ target ++ "]"

end TypeExpr

end Groundplan
