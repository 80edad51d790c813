/-!
# Runs of characters between separators

The runs of a list of characters are its maximal pieces without a separator, in order. No run is
empty.
-/

namespace Groundplan.Text

/-- Puts a run in front of others, unless it is empty. -/
def consRun (run : List Char) (others : List (List Char)) : List (List Char) :=
  match run with
  | [] => others
  | _ => run :: others

/-- The characters before the first separator, and the runs after it. -/
def firstRun (isSeparator : Char → Bool) : List Char → List Char × List (List Char)
  | [] => ([], [])
  | c :: cs =>
    let (run, others) := firstRun isSeparator cs
    if isSeparator c then ([], consRun run others) else (c :: run, others)

/-- The maximal pieces without a separator. -/
def runs (isSeparator : Char → Bool) (cs : List Char) : List (List Char) :=
  let (run, others) := firstRun isSeparator cs
  consRun run others

end Groundplan.Text
