import Groundplan.Failure
import Groundplan.Project.Basic
import Groundplan.Proofs.CatalogOrder
import Groundplan.Proofs.ScopeAgreement

/-!
# What a model looks like and what it says

Two documents may describe one domain and differ in how they present it: their definitions come in
different orders, and a definition may repeat its name inside itself or give another one there. The
checklist and the rendered project depend on the content only. This is a statement about two runs:
models with the same content get the same verdict, and the same text for every file.

Notes are left out of it on purpose. The warning about a payload property that is left out names
the event by the name inside it.
-/

namespace Groundplan

/-! ### Definitions without the names inside them -/

/-- An aggregate without its own name and that of its root. -/
def Aggregate.unnamed (a : Aggregate) : Aggregate :=
  { a with name := "", root := { a.root with name := "" } }

/-- A value object without its own name. -/
def ValueObject.unnamed (v : ValueObject) : ValueObject := { v with name := "" }

/-- An event without its own name. -/
def Event.unnamed (e : Event) : Event := { e with name := "" }

/-- A command without its own name. -/
def Command.unnamed (c : Command) : Command := { c with name := "" }

/-- A query without its own name. -/
def Query.unnamed (q : Query) : Query := { q with name := "" }

/-- Two models are the same but for the order of their catalogs and the names that definitions
repeat inside themselves. -/
structure Model.SameContent (m m' : Model) : Prop where
  version : m.version = m'.version
  context : m.context = m'.context
  subscriptions : m.subscriptions = m'.subscriptions
  aggregates : m.aggregates.Alike Aggregate.unnamed m'.aggregates
  valueObjects : m.valueObjects.Alike ValueObject.unnamed m'.valueObjects
  events : m.events.Alike Event.unnamed m'.events
  commands : m.commands.Alike Command.unnamed m'.commands
  queries : m.queries.Alike Query.unnamed m'.queries
  aliases : m.aliases.entries.Perm m'.aliases.entries

/-! ### Obstacles -/

namespace Trail

@[simp] theorem obstacle_done (notes : List Note) : (done notes).obstacle = none := rfl

@[simp] theorem obstacle_append (t u : Trail) :
    (t ++ u).obstacle = t.obstacle.or u.obstacle := by
  change (append t u).obstacle = _
  unfold append broken
  cases hobstacle : t.obstacle with
  | none => rfl
  | some obstacle => exact hobstacle

@[simp] theorem obstacle_each {α : Type} (f : α → Trail) (as : List α) :
    (each f as).obstacle = as.findSome? fun a => (f a).obstacle := by
  induction as with
  | nil => rfl
  | cons a as ih =>
      rw [each, obstacle_append, ih, List.findSome?_cons]
      cases (f a).obstacle <;> rfl

theorem result_congr {α : Type} {t t' : Trail} (h : t.obstacle = t'.obstacle) (a : α) :
    t.result a = t'.result a := by
  unfold result
  rw [h]

end Trail

/-! ### Models with the same content -/

namespace Model.SameContent

variable {m m' : Model}

theorem scope (h : m.SameContent m') : (Scope.ofModel m).Agrees (Scope.ofModel m') where
  aliases := Catalog.lookup_eq_of_perm m.aliases.distinct h.aliases
  members := by
    -- Members are kept under the key of an enumeration, never under the name inside it.
    have henumerations : m.valueObjects.sorted.filterMap Scope.enumeration? =
        m'.valueObjects.sorted.filterMap Scope.enumeration? :=
      h.valueObjects.filterMap_sorted_eq fun name v => by
        obtain ⟨name', description, shape⟩ := v
        cases shape <;> rfl
    intro name
    simp only [Scope.ofModel, henumerations]

/-! #### The checklist -/

theorem sectionNames (h : m.SameContent m') : m.sectionNames = m'.sectionNames := by
  funext s
  cases s with
  | aggregates => exact h.aggregates.sortedNames_eq
  | valueObjects => exact h.valueObjects.sortedNames_eq
  | events => exact h.events.sortedNames_eq
  | commands => exact h.commands.sortedNames_eq
  | queries => exact h.queries.sortedNames_eq

theorem spellings (h : m.SameContent m') : m.spellings = m'.spellings := by
  funext spell sections
  rw [Model.spellings, Model.spellings, h.sectionNames]

theorem violation? (h : m.SameContent m') : m.violation? = m'.violation? := by
  have hrule : m.violationOf? = m'.violationOf? := by
    funext rule
    unfold violationOf? typeSpellings handlerSpellings
    rw [h.version, h.context, h.spellings]
  rw [Model.violation?, Model.violation?, hrule]

/-! #### Entities -/

theorem enumerations (h : m.SameContent m') : Entities.enumerations m = Entities.enumerations m' :=
  h.valueObjects.filterMap_sorted_eq fun _ _ => rfl

theorem identifiers (h : m.SameContent m') :
    Entities.identifiers (Scope.ofModel m) m = Entities.identifiers (Scope.ofModel m') m' := by
  unfold Entities.identifiers
  rw [h.scope.identifierType]
  exact h.valueObjects.filterMap_sorted_eq fun _ _ => rfl

theorem records (h : m.SameContent m') :
    Entities.records (Scope.ofModel m) m = Entities.records (Scope.ofModel m') m' := by
  unfold Entities.records
  rw [h.scope.recordType]
  exact h.valueObjects.filterMap_sorted_eq fun _ _ => rfl

theorem aggregateTypes (h : m.SameContent m') :
    Entities.aggregates (Scope.ofModel m) m = Entities.aggregates (Scope.ofModel m') m' := by
  unfold Entities.aggregates
  rw [h.scope.aggregateType]
  exact h.aggregates.map_sorted_eq fun _ _ => rfl

theorem entityTypes (h : m.SameContent m') : Entities.types m = Entities.types m' := by
  simp only [Entities.types, h.enumerations, h.identifiers, h.records, h.aggregateTypes]

theorem entitiesModule (h : m.SameContent m') :
    Entities.sourceModule m = Entities.sourceModule m' := by
  unfold Entities.sourceModule
  rw [h.context, h.entityTypes]

theorem entitiesObstacle (h : m.SameContent m') :
    (Entities.trail m).obstacle = (Entities.trail m').obstacle := by
  have hunderlying : Entities.underlyingTypes m = Entities.underlyingTypes m' :=
    h.valueObjects.filterMap_sorted_eq fun _ _ => rfl
  have hrecord : Entities.recordProperties m = Entities.recordProperties m' :=
    h.valueObjects.flatMap_sorted_eq fun _ _ => rfl
  have haggregate : Entities.aggregateProperties m = Entities.aggregateProperties m' :=
    h.aggregates.flatMap_sorted_eq fun _ _ => rfl
  simp only [Entities.trail, Trail.obstacle_append, Trail.obstacle_done, hunderlying, hrecord,
    haggregate, h.scope.typeTrail, h.scope.fieldTrail]

/-! #### Commands -/

theorem commandsModule (h : m.SameContent m') :
    Commands.sourceModule m = Commands.sourceModule m' := by
  have htypes : Commands.types m = Commands.types m' := by
    unfold Commands.types
    rw [h.scope.commandType]
    exact h.commands.map_sorted_eq fun _ _ => rfl
  have hmethods : Commands.handlerMethods m = Commands.handlerMethods m' :=
    h.commands.map_sorted_eq fun _ _ => rfl
  unfold Commands.sourceModule Commands.handlerContract
  rw [h.context, htypes, hmethods]

theorem commandsObstacle (h : m.SameContent m') :
    (Commands.trail m).obstacle = (Commands.trail m').obstacle := by
  simp only [Commands.trail, Trail.obstacle_append, Trail.obstacle_done, Trail.obstacle_each,
    h.scope.fieldTrail]
  rw [h.commands.findSome?_sorted_eq fun _ _ => rfl]

/-! #### Events -/

theorem eventTypes (h : m.SameContent m') : Events.types m = Events.types m' := by
  unfold Events.types
  rw [h.scope.eventType]
  exact h.events.map_sorted_eq fun _ _ => rfl

theorem eventsModule (h : m.SameContent m') :
    Events.sourceModule m = Events.sourceModule m' := by
  unfold Events.sourceModule
  rw [h.context, h.eventTypes, h.subscriptions]

/-- The warnings about an event show the name inside it, but they stop nothing. -/
theorem eventsObstacle (h : m.SameContent m') :
    (Events.trail m).obstacle = (Events.trail m').obstacle := by
  simp only [Events.trail, Trail.obstacle_append, Trail.obstacle_done, Trail.obstacle_each,
    h.scope.fieldTrail, Option.none_or]
  rw [h.events.findSome?_sorted_eq fun _ _ => rfl]

/-! #### Routes -/

theorem routeTable (h : m.SameContent m') : Routes.table m = Routes.table m' := by
  rw [Routes.table, Routes.table, h.commands.sortedNames_eq, h.queries.sortedNames_eq]

theorem routesModule (h : m.SameContent m') :
    Routes.sourceModule m = Routes.sourceModule m' := by
  have hcommands : Routes.commandRoutes m = Routes.commandRoutes m' :=
    h.commands.map_sorted_eq fun _ _ => rfl
  have hqueries : Routes.queryRoutes m = Routes.queryRoutes m' := by
    unfold Routes.queryRoutes
    rw [h.scope.queryRoute]
    exact h.queries.map_sorted_eq fun _ _ => rfl
  unfold Routes.sourceModule
  rw [h.context, hcommands, hqueries, h.routeTable]

theorem routesObstacle (h : m.SameContent m') :
    (Routes.trail m).obstacle = (Routes.trail m').obstacle := by
  simp only [Routes.trail, Trail.obstacle_append, Trail.obstacle_done, Trail.obstacle_each,
    h.scope.queryTrail]
  rw [h.queries.findSome?_sorted_eq fun _ _ => rfl]

/-! #### Projects -/

theorem readme (h : m.SameContent m') (s : Settings) :
    Project.readme m s = Project.readme m' s := by
  unfold Project.readme Project.introduction Project.structureLines Project.description
    Project.packageName
  rw [h.context, h.version, h.subscriptions, h.routeTable]

/-- Models with the same content are rendered as the same project. -/
theorem render (h : m.SameContent m') (s : Settings) :
    Project.render m s = Project.render m' s := by
  have hpackage : Project.packageName m s = Project.packageName m' s := by
    rw [Project.packageName, Project.packageName, h.context]
  have hdescription : Project.description m = Project.description m' := by
    rw [Project.description, Project.description, h.context]
  have hmanifest : Project.manifest m s = Project.manifest m' s := by
    unfold Project.manifest Project.manifestLines Project.distributionName
    rw [hpackage, hdescription, h.context]
  have hroot : Project.packageRoot m = Project.packageRoot m' := by
    rw [Project.packageRoot, Project.packageRoot, hdescription]
  have hservice : Project.service m s = Project.service m' s := by
    unfold Project.service Project.serviceLines
    rw [hpackage, hdescription, h.context]
  have hdomain : Project.domainLayer m = Project.domainLayer m' := by
    rw [Project.domainLayer, Project.domainLayer, h.context]
  simp only [Project.render, Project.renderers, List.map_cons, List.map_nil, hpackage, hmanifest,
    hroot, hservice, hdomain, h.entitiesModule, h.commandsModule, h.eventsModule, h.routesModule,
    h.readme]

theorem renderObstacle (h : m.SameContent m') (s : Settings) :
    (Project.renderTrail m s).obstacle = (Project.renderTrail m' s).obstacle := by
  simp only [Project.renderTrail, Trail.obstacle_append, Trail.obstacle_done, h.entitiesObstacle,
    h.commandsObstacle, h.eventsObstacle, h.routesObstacle]

/-- The order of the definitions and the names inside them change neither the verdict of the
checklist nor anything in the rendered project, nor whether rendering breaks off. -/
theorem verdict_and_project_eq (h : m.SameContent m') (s : Settings) :
    m.violation? = m'.violation? ∧
      Project.render m s = Project.render m' s ∧
      (Project.renderTrail m s).result (Project.render m s) =
        (Project.renderTrail m' s).result (Project.render m' s) := by
  refine ⟨h.violation?, h.render s, ?_⟩
  rw [h.render s]
  exact Trail.result_congr (h.renderObstacle s) _

/-- A command without properties that carries a name inside. -/
def bareCommand (name : String) : Command := ⟨name, none, none, [], [], [], []⟩

/-- A model of two commands, given in an order of its own. -/
def ledger (commands : Catalog Command) : Model :=
  { version := "1.0", context := ⟨"Ledger", "acme.ledger", none⟩, aggregates := .empty,
    valueObjects := .empty, events := .empty, commands, queries := .empty, subscriptions := [],
    aliases := .empty }

/-- Two documents that list the same commands in opposite orders, one of them with other names
inside the commands. -/
theorem verdict_and_project_eq_reversed :
    let forwards := ledger
      ⟨[("OpenAccount", bareCommand "OpenAccount"), ("Close", bareCommand "Close")], by decide⟩
    let backwards := ledger
      ⟨[("Close", bareCommand "shut"), ("OpenAccount", bareCommand "")], by decide⟩
    forwards.SameContent backwards ∧ forwards ≠ backwards ∧
      forwards.violation? = backwards.violation? ∧
      Project.render forwards Settings.usual = Project.render backwards Settings.usual ∧
      (Project.renderTrail forwards Settings.usual).result
          (Project.render forwards Settings.usual) =
        (Project.renderTrail backwards Settings.usual).result
          (Project.render backwards Settings.usual) := by
  intro forwards backwards
  have hsame : forwards.SameContent backwards :=
    { version := rfl, context := rfl, subscriptions := rfl, aggregates := .nil,
      valueObjects := .nil, events := .nil, commands := .swap _ _ _, queries := .nil,
      aliases := .nil }
  refine ⟨hsame, ?_, verdict_and_project_eq hsame Settings.usual⟩
  intro heq
  have hnames : forwards.commands.names = backwards.commands.names := by rw [heq]
  revert hnames
  decide

end Model.SameContent

end Groundplan
