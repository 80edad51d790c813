import Groundplan.Text.Runs

/-!
# Variables in a text

A text refers to a variable by a dollar sign and a name: ASCII letters, digits and underscores, or
anything between braces. A variable that is set is replaced by its value, which is not looked at
again; one that is not set stays as it is written.
-/

namespace Groundplan.Text

/-- Whether a character may stand in a name without braces. -/
def isNameChar (c : Char) : Bool :=
  c.isAlphanum || c = '_'

/-- The variable that a text behind a dollar sign names, and how many characters name it. -/
def named? : List Char → Option (String × Nat)
  | '\x7b' :: cs =>
    let name := cs.takeWhile (· ≠ '\x7d')
    if name.length < cs.length then some (String.ofList name, name.length + 2) else none
  | cs =>
    let name := cs.takeWhile isNameChar
    if name.isEmpty then none else some (String.ofList name, name.length)

/-- The characters of a text with the variables replaced, after leaving out or keeping as many
characters as are already dealt with. -/
def expandFrom (value? : String → Option String) : Nat → Bool → List Char → List Char
  | _, _, [] => []
  | 0, _, '$' :: cs =>
    match named? cs with
    | none => '$' :: expandFrom value? 0 true cs
    | some (name, length) =>
      match value? name with
      | some value => value.toList ++ expandFrom value? length false cs
      | none => '$' :: expandFrom value? length true cs
  | 0, _, c :: cs => c :: expandFrom value? 0 true cs
  | n + 1, keep, c :: cs =>
    if keep then c :: expandFrom value? n keep cs else expandFrom value? n keep cs

def expand (value? : String → Option String) (text : String) : String :=
  String.ofList (expandFrom value? 0 true text.toList)

/-- The names of the variables that a text refers to. -/
def variableNamesFrom : Nat → List Char → List String
  | _, [] => []
  | 0, '$' :: cs =>
    match named? cs with
    | none => variableNamesFrom 0 cs
    | some (name, length) => name :: variableNamesFrom length cs
  | 0, _ :: cs => variableNamesFrom 0 cs
  | n + 1, _ :: cs => variableNamesFrom n cs

/-- The names of the variables that a text refers to. -/
def variableNames (text : String) : List String :=
  variableNamesFrom 0 text.toList

end Groundplan.Text
