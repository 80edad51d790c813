import Groundplan.Text.Blank
import Groundplan.Text.CodePoints

/-!
# Text placed inside generated source

A text reaches generated source in one of three forms: as a double-quoted literal that denotes it
exactly, as one line inside a triple-quoted docstring, or as one line after a comment mark. The
literal keeps every character; the other two keep the words only.
-/

namespace Groundplan.Text

/-- The characters that stand for `c` inside a double-quoted literal. -/
def literalChar (c : Char) : List Char :=
  if c = '"' then ['\\', '"']
  else if c = '\\' then ['\\', '\\']
  else if c = '\n' then ['\\', 'n']
  else if c = '\r' then ['\\', 'r']
  else if c = '\t' then ['\\', 't']
  else if c.toNat = 0x08 then ['\\', 'b']
  else if c.toNat = 0x0c then ['\\', 'f']
  else if c.toNat < 0x20 then '\\' :: 'u' :: hexDigits 4 c.toNat
  else [c]

/-- The characters of the double-quoted literal that denotes the given characters. -/
def literalChars (cs : List Char) : List Char :=
  '"' :: (cs.flatMap literalChar ++ ['"'])

/-- The double-quoted literal that denotes a text: quotes, backslashes and control characters are
escaped, everything else stands for itself. -/
def literal (text : String) : String :=
  String.ofList (literalChars text.toList)

/-- The characters that stand for `c` inside a docstring. -/
def docChar (c : Char) : List Char :=
  if c = '\\' then ['\\', '\\']
  else if c = '"' then ['\\', '"']
  else [c]

/-- One line for a docstring: the words of the text, with backslashes and quotes escaped. -/
def docLine (text : String) : String :=
  String.ofList ((flatten text).toList.flatMap docChar)

/-- One line for a docstring; an absent text gives the empty line. -/
def docLine? (text : Option String) : String :=
  docLine (text.getD "")

/-- One line for a comment: the words of the text. -/
def commentLine (text : String) : String :=
  flatten text

/-- One line for a docstring, or another text where it would be empty. -/
def docLineOr (text : Option String) (fallback : String) : String :=
  if (docLine? text).isEmpty then fallback else docLine? text

end Groundplan.Text
