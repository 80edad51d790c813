import Groundplan.Model.Basic
import Groundplan.Name.Casing
import Groundplan.Settings.Basic
import Groundplan.Text.Quoted

/-!
# What a generated project is called

The names and the description of a project come from the context of its model; the settings may
give another package name.
-/

namespace Groundplan.Project

def projectVersion : String := "0.1.0"

/-- The name under which the package is imported. -/
def packageName (m : Model) (s : Settings) : String :=
  s.packageName.getD (Name.field m.context.name)

def distributionName (m : Model) : String :=
  Name.kebab m.context.name

/-- The description of the project, on one line. -/
def description (m : Model) : String :=
  Text.flatten <| match m.context.description with
    | none | some "" => m.context.name ++ " bounded context service"
    | some description => description

end Groundplan.Project
