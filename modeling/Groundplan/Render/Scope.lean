import Groundplan.Model.Basic
import Groundplan.Name.Casing
import Groundplan.TypeExpr

/-!
# What rendering a property needs to know

The type of a property is read against the aliases of the model, and a default may name a member
of one of its enumerations. A scope holds both.
-/

namespace Groundplan

/-- The aliases of a model and the members of its enumerations, by type name. -/
structure Scope where
  aliases : Catalog String
  members : Catalog (List String)

namespace Scope

/-- The enumeration that a named value object declares, with the names of its members. -/
def enumeration? : String × ValueObject → Option (String × List String)
  | (name, ⟨_, _, .enumeration values⟩) =>
    some (Name.pascal name, values.map fun value => Name.constant value.name)
  | _ => none

def ofModel (m : Model) : Scope where
  aliases := m.aliases
  members := Catalog.ofList (m.valueObjects.sorted.filterMap enumeration?)

def target (s : Scope) (typeText : String) : String :=
  (TypeExpr.parse typeText).target s.aliases.entries

/-- The target of a type expression without its outer options. -/
def baseTarget (s : Scope) (typeText : String) : String :=
  (TypeExpr.parse typeText).base.target s.aliases.entries

/-- The type hint of a property: optional unless the property is required. -/
def hint (s : Scope) (p : Property) : String :=
  if p.required then s.target p.typeText else TypeExpr.optional (s.target p.typeText)

end Scope

end Groundplan
