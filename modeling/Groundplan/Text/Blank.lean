import Groundplan.Text.Runs

/-!
# Blanks and the words between them

A *blank* is a character that separates words: the space, the tabs and line breaks, the four
information separators and the wide spaces of other scripts. A text is *stripped* of the blanks at
its two ends, and *flattened* to its words with one space between neighbours.
-/

namespace Groundplan.Text

/-- The characters that separate words. -/
def isBlank (c : Char) : Bool :=
  let n := c.toNat
  (0x09 ≤ n && n ≤ 0x0d) || (0x1c ≤ n && n ≤ 0x20) || n == 0x85 || n == 0xa0 || n == 0x1680 ||
    (0x2000 ≤ n && n ≤ 0x200a) || n == 0x2028 || n == 0x2029 || n == 0x202f || n == 0x205f ||
    n == 0x3000

/-- The characters left after the blanks at both ends are removed. -/
def stripChars (cs : List Char) : List Char :=
  ((cs.dropWhile isBlank).reverse.dropWhile isBlank).reverse

/-- A text without the blanks at its two ends. -/
def strip (text : String) : String :=
  String.ofList (stripChars text.toList)

/-- The words of a text: its maximal runs of characters that are not blank. -/
def words (text : String) : List String :=
  (runs isBlank text.toList).map String.ofList

/-- The words of a text on one line, with one space between neighbours. -/
def flatten (text : String) : String :=
  " ".intercalate (words text)

end Groundplan.Text
