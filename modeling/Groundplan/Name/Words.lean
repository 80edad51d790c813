import Groundplan.Text.Runs

/-!
# The words of a name

A name is cut at every character that is no ASCII letter or digit, and each remaining run is read
word by word. A word is one of

* capitals that are followed by a capitalised word: `HTTP` in `HTTPServer`;
* an optional capital and small letters or digits: `Order`, `order2`, `7th`;
* capitals and the digits after them: `ID`, `AB12`.

The first form that fits is taken, at its greatest length.
-/

namespace Groundplan.Name

/-- A small ASCII letter or a digit. -/
def isSmall (c : Char) : Bool :=
  c.isLower || c.isDigit

/-- The first word of a run of letters and digits, and what follows it. -/
def nextWord (cs : List Char) : List Char × List Char :=
  let capitals := cs.takeWhile Char.isUpper
  let rest := cs.dropWhile Char.isUpper
  match capitals with
  | [] => (cs.takeWhile isSmall, cs.dropWhile isSmall)
  | [c] => (c :: rest.takeWhile isSmall, rest.dropWhile isSmall)
  | _ =>
    if rest.head?.any Char.isLower then
      (capitals.dropLast, capitals.getLast?.toList ++ rest)
    else
      (capitals ++ rest.takeWhile Char.isDigit, rest.dropWhile Char.isDigit)

/-- At most `limit` words of a run of letters and digits. -/
def wordsFrom : Nat → List Char → List (List Char)
  | 0, _ => []
  | _, [] => []
  | limit + 1, cs =>
    let (word, rest) := nextWord cs
    word :: wordsFrom limit rest

/-- The words of a run of letters and digits; there are no more of them than characters. -/
def wordsOfRun (cs : List Char) : List (List Char) :=
  wordsFrom cs.length cs

def wordsOfChars (cs : List Char) : List (List Char) :=
  (Text.runs (fun c => !c.isAlphanum) cs).flatMap wordsOfRun

def words (name : String) : List String :=
  (wordsOfChars name.toList).map String.ofList

end Groundplan.Name
