import Groundplan.Render.Commands
import Groundplan.Render.Entities
import Groundplan.Render.Events
import Groundplan.Render.Routes

/-!
# Scopes that agree

Rendering reads a scope only by looking names up: the aliases when a type expression is resolved,
the members of enumerations when a default is judged. Two scopes that answer every look-up alike
therefore render every property, parameter and type in the same way, and break off at the same
obstacles, however the entries of their catalogs are ordered.
-/

namespace Groundplan

/-! ### Type expressions -/

namespace TypeExpr

variable {aliases aliases' : List (String × String)}

theorem target_congr (h : ∀ name, aliases.lookup name = aliases'.lookup name) :
    target aliases = target aliases' := by
  funext expr
  simp only [target, h]

theorem depth_congr (h : ∀ name, aliases.lookup name = aliases'.lookup name) :
    depth aliases = depth aliases' := by
  funext expr
  simp only [depth, h]

end TypeExpr

namespace Scope

/-- Two scopes give the same answer to every look-up. -/
structure Agrees (s s' : Scope) : Prop where
  aliases : ∀ name, s.aliases.get? name = s'.aliases.get? name
  members : ∀ name, s.members.get? name = s'.members.get? name

namespace Agrees

variable {s s' : Scope}

/-! ### Properties -/

theorem target (h : s.Agrees s') : s.target = s'.target := by
  funext typeText
  rw [Scope.target, TypeExpr.target_congr h.aliases]
  rfl

theorem baseTarget (h : s.Agrees s') : s.baseTarget = s'.baseTarget := by
  funext typeText
  rw [Scope.baseTarget, TypeExpr.target_congr h.aliases]
  rfl

theorem hint (h : s.Agrees s') : s.hint = s'.hint := by
  funext p
  rw [Scope.hint, Scope.hint, h.target]

theorem typeTrail (h : s.Agrees s') : s.typeTrail = s'.typeTrail := by
  funext typeText
  rw [Scope.typeTrail, TypeExpr.isTooDeep, TypeExpr.depth_congr h.aliases]
  rfl

theorem memberFate (h : s.Agrees s') : s.memberFate = s'.memberFate := by
  funext base text
  rw [Scope.memberFate, Scope.memberFate, h.members]

theorem fateOf (h : s.Agrees s') : s.fateOf = s'.fateOf := by
  funext base value
  unfold Scope.fateOf
  rw [h.memberFate]

theorem defaultFate (h : s.Agrees s') : s.defaultFate = s'.defaultFate := by
  funext p
  rw [Scope.defaultFate, Scope.defaultFate, h.fateOf, h.baseTarget]

theorem constraints (h : s.Agrees s') : s.constraints = s'.constraints := by
  funext p
  rw [Scope.constraints, Scope.constraints, h.baseTarget]

theorem defaultTrail (h : s.Agrees s') : s.defaultTrail = s'.defaultTrail := by
  funext p
  unfold Scope.defaultTrail Scope.defaultNotes
  rw [h.defaultFate, h.baseTarget]

theorem constraintTrail (h : s.Agrees s') : s.constraintTrail = s'.constraintTrail := by
  funext p
  unfold Scope.constraintTrail Scope.constraintNotes
  rw [h.constraints, h.baseTarget]

theorem initial (h : s.Agrees s') : s.initial = s'.initial := by
  funext p
  unfold Scope.initial Scope.defaultArgument Scope.details
  rw [h.defaultFate, h.constraints]

/-- Agreeing scopes render a property as the same field. -/
theorem field (h : s.Agrees s') : s.field = s'.field := by
  funext p
  rw [Scope.field, Scope.field, h.hint, h.initial]

theorem parameter (h : s.Agrees s') : s.parameter = s'.parameter := by
  funext p
  rw [Scope.parameter, Scope.parameter, h.hint]

theorem fieldTrail (h : s.Agrees s') : s.fieldTrail = s'.fieldTrail := by
  funext p
  rw [Scope.fieldTrail, Scope.fieldTrail, h.typeTrail, h.defaultTrail, h.constraintTrail]

/-! ### Definitions -/

theorem identifierType (h : s.Agrees s') :
    Entities.identifierType s = Entities.identifierType s' := by
  funext name description underlying format start
  rw [Entities.identifierType, Entities.identifierType, h.target]

theorem recordType (h : s.Agrees s') : Entities.recordType s = Entities.recordType s' := by
  funext name description properties
  rw [Entities.recordType, Entities.recordType, h.field]

theorem aggregateType (h : s.Agrees s') : Entities.aggregateType s = Entities.aggregateType s' := by
  funext name a
  rw [Entities.aggregateType, Entities.aggregateType, h.field]

theorem commandType (h : s.Agrees s') : Commands.commandType s = Commands.commandType s' := by
  funext name c
  rw [Commands.commandType, Commands.commandType, h.field]

theorem eventType (h : s.Agrees s') : Events.eventType s = Events.eventType s' := by
  funext name e
  rw [Events.eventType, Events.eventType, Events.parameters, Events.parameters, h.field,
    h.parameter]

theorem queryRoute (h : s.Agrees s') : Routes.queryRoute s = Routes.queryRoute s' := by
  have hparameter : Routes.parameter s = Routes.parameter s' := by
    funext p
    rw [Routes.parameter, Routes.parameter, h.hint]
  have hreturns : Routes.returnsLines s = Routes.returnsLines s' := by
    funext returns
    unfold Routes.returnsLines
    rw [h.target]
  funext name q
  rw [Routes.queryRoute, Routes.queryRoute, hparameter, hreturns]

theorem queryTrail (h : s.Agrees s') : Routes.queryTrail s = Routes.queryTrail s' := by
  have hparameter : Routes.parameterTrail s = Routes.parameterTrail s' := by
    funext name p
    rw [Routes.parameterTrail, Routes.parameterTrail, h.typeTrail]
  funext name q
  rw [Routes.queryTrail, Routes.queryTrail, h.typeTrail, hparameter]

end Agrees

end Scope

end Groundplan
