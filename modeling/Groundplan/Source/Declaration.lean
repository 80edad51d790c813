import Groundplan.Double
import Groundplan.Source.Layout
import Groundplan.Text.Quoted

/-!
# Declarations in generated source

A declaration gives a name a type hint and perhaps an initial value, which is an expression or a
call with arguments. It is one line, below a comment if it has one. Expressions are literals, the
constants of the language and members of enumerations; nothing is computed in them.
-/

namespace Groundplan.Source

/-- The constants that expressions refer to. -/
inductive Constant where
  | none
  | true
  | false
  | list
  | ellipsis
  deriving DecidableEq, Repr

/-- An expression in generated source. -/
inductive Expr where
  | constant (c : Constant)
  | integer (n : Int)
  | number (x : Double)
  | text (s : String)
  | decimal (s : String)
  | member (type name : String)
  deriving DecidableEq, Repr

/-- An argument of a call, by position or by keyword. -/
structure Argument where
  keyword : Option String
  value : Expr
  deriving DecidableEq, Repr

/-- What stands to the right of the equals sign. -/
inductive Initial where
  | none
  | value (e : Expr)
  | call (function : String) (arguments : List Argument)
  deriving DecidableEq, Repr

/-- A declaration of a field or parameter. -/
structure Declaration where
  comment : Option String
  name : String
  hint : String
  initial : Initial
  deriving DecidableEq, Repr

def Constant.text : Constant → String
  | .none => "None"
  | .true => "True"
  | .false => "False"
  | .list => "list"
  | .ellipsis => "..."

/-- The literal of a number: digits alone if it is whole. -/
def numberText (x : Double) : String :=
  match x.toInt? with
  | some n => Text.decimalInt n
  | none => x.text

namespace Expr

def ofBool (b : Bool) : Expr :=
  .constant (if b then .true else .false)

def render : Expr → String
  | .constant c => c.text
  | .integer n => Text.decimalInt n
  | .number x => numberText x
  | .text s => Text.literal s
  | .decimal s => "Decimal(" ++ Text.literal s ++ ")"
  | .member type name => type ++ "." ++ name

end Expr

namespace Argument

def positional (e : Expr) : Argument := ⟨none, e⟩

def named (keyword : String) (e : Expr) : Argument := ⟨some keyword, e⟩

def render (a : Argument) : String :=
  match a.keyword with
  | none => a.value.render
  | some keyword => keyword ++ "=" ++ a.value.render

end Argument

/-- The text to the right of the type hint. -/
def Initial.render : Initial → String
  | .none => ""
  | .value e => " = " ++ e.render
  | .call function arguments =>
    " = " ++ function ++ "(" ++ ", ".intercalate (arguments.map Argument.render) ++ ")"

namespace Declaration

/-- A name with a type hint and no initial value. -/
def bare (name hint : String) : Declaration :=
  ⟨none, name, hint, .none⟩

def line (d : Declaration) : String :=
  d.name ++ ": " ++ d.hint ++ d.initial.render

/-- The lines of a declaration: its comment, if any, and itself. -/
def lines (d : Declaration) : List String :=
  match d.comment with
  | some comment => ["# " ++ comment, d.line]
  | none => [d.line]

end Declaration

end Groundplan.Source
