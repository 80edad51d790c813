import Groundplan.Name.Words

/-!
# Spellings of a name

Every name of a model reaches generated files in one of the spellings below. Type names are
Pascal-cased, fields and functions snake-cased, route segments and distribution names kebab-cased.
A field name is never empty, never starts with a digit and is no reserved word; a member name also
avoids the members that generated records have of their own.
-/

namespace Groundplan.Name

def lowerWord (word : String) : String :=
  String.ofList (word.toList.map Char.toLower)

/-- A word with its first letter large and the others small. -/
def capitalWord (word : String) : String :=
  match word.toList with
  | [] => ""
  | c :: cs => String.ofList (c.toUpper :: cs.map Char.toLower)

/-- `OrderId` becomes `order_id`. -/
def snake (name : String) : String :=
  "_".intercalate ((words name).map lowerWord)

/-- `OrderId` becomes `order-id`. -/
def kebab (name : String) : String :=
  "-".intercalate ((words name).map lowerWord)

/-- `order_id` becomes `OrderId`. -/
def pascal (name : String) : String :=
  String.join ((words name).map capitalWord)

def startsWithDigit (text : String) : Bool :=
  text.toList.head?.any Char.isDigit

/-- `pendingPayment` becomes `PENDING_PAYMENT`: the spelling of enumeration members. -/
def constant (name : String) : String :=
  let spelled := String.ofList ((snake name).toList.map Char.toUpper)
  if spelled.isEmpty then "VALUE"
  else if startsWithDigit spelled then "VALUE_" ++ spelled
  else spelled

/-- The reserved words of the generated language. -/
def reservedWords : List String := [
  "False", "None", "True", "and", "as", "assert", "async", "await", "break", "class", "continue",
  "def", "del", "elif", "else", "except", "finally", "for", "from", "global", "if", "import", "in",
  "is", "lambda", "nonlocal", "not", "or", "pass", "raise", "return", "try", "while", "with",
  "yield"]

/-- The names that generated records bind besides their fields. -/
def reservedMembers : List String := [
  "cls", "self", "new", "validate", "copy", "dict", "json", "schema", "construct", "model_config"]

/-- The snake spelling as a legal name: `from` becomes `from_`, `2nd` becomes `field_2nd`. -/
def field (name : String) : String :=
  let spelled := snake name
  if spelled.isEmpty then "field"
  else
    let spelled := if startsWithDigit spelled then "field_" ++ spelled else spelled
    if reservedWords.contains spelled then spelled ++ "_" else spelled

/-- A field name that is no member of the generated records: `copy` becomes `copy_`. -/
def member (name : String) : String :=
  let spelled := field name
  if reservedMembers.contains spelled then spelled ++ "_" else spelled

/-- The path of the route for a command or query. -/
def routePath (name : String) : String :=
  "/" ++ kebab name

/-- The function that serves the route for a command or query. -/
def routeHandler (name : String) : String :=
  field name

/-- The method of the handler contract for a command. -/
def handlerMethod (name : String) : String :=
  "handle_" ++ snake name

end Groundplan.Name
