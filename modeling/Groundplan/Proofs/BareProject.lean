import Groundplan.Project.Basic
import Groundplan.Proofs.Presentation
import Groundplan.Proofs.QuotedText

/-!
# The project of a model without definitions

The texts of a project are made of fixed lines and of lines that carry something of the model or the
settings. The fixed ones have no reserved characters. For a model without definitions little else is
left: its project can be rendered, and its texts have no reserved characters if the version, the
context and the settings have none. With definitions this depends on every text that is carried
over.
-/

namespace Groundplan.Project

open Text Source

/-! ### Layout -/

theorem unreserved_joinLines {lines : List String} (h : ∀ line ∈ lines, Unreserved line) :
    Unreserved (joinLines lines) :=
  unreserved_intercalate (by decide) h

theorem unreserved_fileText {lines : List String} (h : ∀ line ∈ lines, Unreserved line) :
    Unreserved (fileText lines) :=
  (unreserved_joinLines h).append (by decide)

theorem unreserved_block {first : String} {body : List String} (hfirst : Unreserved first)
    (hbody : ∀ line ∈ body, Unreserved line) : Unreserved (block first body) := by
  refine unreserved_joinLines (List.forall_mem_cons.2 ⟨hfirst, ?_⟩)
  intro line hline
  obtain ⟨line', hline', rfl⟩ := List.mem_map.1 hline
  by_cases hempty : line'.isEmpty = true
  · rw [if_pos hempty]
    decide
  · rw [if_neg hempty]
    exact Unreserved.append (by decide) (hbody line' hline')

theorem unreserved_joinBlocks {blocks : List String} (h : ∀ block ∈ blocks, Unreserved block) :
    Unreserved (joinBlocks blocks) := by
  refine (unreserved_intercalate (by decide) ?_).append (by decide)
  intro text htext
  obtain ⟨block, hblock, rfl⟩ := List.mem_map.1 htext
  have hfree : block.toList.any isReserved = false := h block (List.mem_filter.1 hblock).1
  refine unreserved_ofList (List.any_eq_false.2 fun c hc => List.any_eq_false.1 hfree c ?_)
  exact List.mem_reverse.1 ((List.dropWhile_sublist _).subset (List.mem_reverse.1 hc))

/-- The texts that an import is written with. -/
def importWords : Import → List String
  | .only source names => source :: names
  | .everything source => [source]

theorem unreserved_line {i : Import} (h : ∀ word ∈ importWords i, Unreserved word) :
    Unreserved i.line := by
  cases i with
  | only source names =>
      obtain ⟨hsource, hnames⟩ := List.forall_mem_cons.1 h
      exact ((Unreserved.append (by decide) hsource).append (by decide)).append
        (unreserved_intercalate (by decide) hnames)
  | everything source =>
      have hsource := h source (List.mem_singleton_self source)
      exact (Unreserved.append (by decide) hsource).append (unreserved_ofList rfl)

theorem unreserved_importLines {groups : List (List Import)}
    (h : ∀ word ∈ groups.flatten.flatMap importWords, Unreserved word) :
    ∀ line ∈ importLines groups, Unreserved line := by
  intro line hline
  rcases of_mem_intercalate hline with hline | ⟨lines, hlines, hline⟩
  · rw [List.mem_singleton.1 hline]
    decide
  · obtain ⟨group, hgroup, rfl⟩ := List.mem_map.1 hlines
    obtain ⟨i, hi, rfl⟩ := List.mem_map.1 hline
    refine unreserved_line fun word hword => h word ?_
    exact List.mem_flatMap.2 ⟨i, List.mem_flatten.2 ⟨group, hgroup, hi⟩, hword⟩

/-- The text of a module has no reserved characters if its title, its imports and its blocks have
none. -/
theorem unreserved_text {m : SourceModule} (htitle : Unreserved m.title)
    (himports : ∀ word ∈ m.imports.flatten.flatMap importWords, Unreserved word)
    (hblocks : ∀ block ∈ m.blocks, Unreserved block) : Unreserved m.text := by
  have hheader : ∀ line ∈ m.header, Unreserved line := by
    simp only [SourceModule.header, List.forall_mem_cons, unreserved_append_iff, htitle,
      List.not_mem_nil, false_imp_iff, implies_true, and_true]
    and_intros
    all_goals exact unreserved_ofList rfl
  refine unreserved_joinBlocks (List.forall_mem_cons.2 ⟨unreserved_joinLines hheader, ?_⟩)
  exact List.forall_mem_cons.2 ⟨unreserved_joinLines (unreserved_importLines himports), hblocks⟩

/-! ### Fixed texts

A text that is written out is a list of characters for the checker, and none of these is reserved.
The lines are taken one by one: to have a whole text computed first takes far longer. -/

theorem unreserved_fixedImports :
    (∀ word ∈ Entities.imports.flatten.flatMap importWords, Unreserved word) ∧
      (∀ word ∈ Commands.imports.flatten.flatMap importWords, Unreserved word) ∧
      (∀ word ∈ Events.imports.flatten.flatMap importWords, Unreserved word) ∧
      ∀ word ∈ Routes.imports.flatten.flatMap importWords, Unreserved word := by
  simp only [Entities.imports, Commands.imports, Events.imports, Routes.imports, List.cons_append,
    List.nil_append, List.flatten_cons, List.flatten_nil, List.flatMap_cons, List.flatMap_nil,
    importWords, List.forall_mem_cons, List.not_mem_nil, false_imp_iff, implies_true, and_true]
  and_intros
  all_goals exact unreserved_ofList rfl

theorem unreserved_fixedLines :
    ∀ lines ∈ [Entities.shared, Commands.errorTypes, Events.utcNow, Events.emptyEnvelope,
      Events.metadataType, Events.subscriptionType, Routes.answerTypes],
      ∀ line ∈ lines, Unreserved line := by
  simp only [Entities.shared, Commands.errorTypes, Events.utcNow, Events.emptyEnvelope,
    Events.metadataType, Events.subscriptionType, Routes.answerTypes, List.forall_mem_cons,
    List.not_mem_nil, false_imp_iff, implies_true, and_true]
  and_intros
  all_goals exact unreserved_ofList rfl

theorem unreserved_eventStore : Unreserved eventStore := by
  refine unreserved_fileText ?_
  simp only [eventStoreLines, List.forall_mem_cons, List.not_mem_nil, false_imp_iff, implies_true,
    and_true]
  and_intros
  all_goals exact unreserved_ofList rfl

theorem unreserved_repository : Unreserved repository := by
  refine unreserved_fileText ?_
  simp only [repositoryLines, List.forall_mem_cons, List.not_mem_nil, false_imp_iff, implies_true,
    and_true]
  and_intros
  all_goals exact unreserved_ofList rfl

theorem unreserved_layer {summary importLine : String} {names : List String}
    (hsummary : Unreserved summary) (himport : Unreserved importLine)
    (hnames : ∀ name ∈ names, Unreserved name) : Unreserved (layer summary importLine names) := by
  have hall : Unreserved (", ".intercalate (names.map literal)) := by
    refine unreserved_intercalate (by decide) fun text htext => ?_
    obtain ⟨name, hname, rfl⟩ := List.mem_map.1 htext
    exact unreserved_literal (hnames name hname)
  refine unreserved_fileText ?_
  simp only [docstring, List.isEmpty_nil, if_true, List.cons_append, List.nil_append,
    List.forall_mem_cons, unreserved_append_iff, hsummary, himport, hall, List.not_mem_nil,
    false_imp_iff, implies_true, and_true, true_and]
  and_intros
  all_goals exact unreserved_ofList rfl

theorem unreserved_apiLayer : Unreserved apiLayer := by
  refine unreserved_layer (unreserved_ofList rfl) (unreserved_ofList rfl) ?_
  simp only [List.forall_mem_cons, List.not_mem_nil, false_imp_iff, implies_true, and_true]
  and_intros
  all_goals exact unreserved_ofList rfl

theorem unreserved_infrastructureLayer : Unreserved infrastructureLayer := by
  refine unreserved_layer (unreserved_ofList rfl) (unreserved_ofList rfl) ?_
  simp only [List.forall_mem_cons, List.not_mem_nil, false_imp_iff, implies_true, and_true]
  and_intros
  all_goals exact unreserved_ofList rfl

/-! ### Models without definitions -/

/-- A model without definitions. -/
def bareModel (version : String) (context : Context) : Model where
  version := version
  context := context
  aggregates := .empty
  valueObjects := .empty
  events := .empty
  commands := .empty
  queries := .empty
  subscriptions := []
  aliases := .empty

/-- What a project without definitions carries over has no reserved characters. -/
structure CarriesPlainly (version : String) (context : Context) (s : Settings) : Prop where
  version : Unreserved version
  name : Unreserved context.name
  description : ∀ text, context.description = some text → Unreserved text
  packageName : ∀ text, s.packageName = some text → Unreserved text
  apiPath : Unreserved s.apiPath
  languageRange : Unreserved s.languageRange

theorem sorted_empty {α : Type} : (Catalog.empty : Catalog α).sorted = [] :=
  List.mergeSort_nil

theorem obstacle_bareModel (version : String) (context : Context) (s : Settings) :
    (renderTrail (bareModel version context) s).obstacle = none := by
  simp [renderTrail, Entities.trail, Entities.underlyingTypes, Entities.recordProperties,
    Entities.aggregateProperties, Commands.trail, Events.trail, Routes.trail, bareModel,
    sorted_empty]

theorem table_bareModel (version : String) (context : Context) :
    Routes.table (bareModel version context) = [] := by
  simp [Routes.table, Catalog.sortedNames, bareModel, sorted_empty]

section CarriesPlainly

variable {version : String} {context : Context} {s : Settings}

theorem unreserved_description (h : CarriesPlainly version context s) :
    Unreserved (description (bareModel version context)) := by
  unfold description
  refine unreserved_flatten ?_
  split
  · exact h.name.append (unreserved_ofList rfl)
  · exact h.name.append (unreserved_ofList rfl)
  next text _ htext => exact h.description text htext

theorem unreserved_packageName (h : CarriesPlainly version context s) :
    Unreserved (packageName (bareModel version context) s) := by
  unfold packageName
  cases hname : s.packageName with
  | none =>
      rw [Option.getD_none]
      exact unreserved_of_isPlain (Name.isPlain_field _)
  | some name => exact h.packageName name hname

theorem unreserved_title (h : CarriesPlainly version context s) {before after : List Char}
    (hbefore : before.any isReserved = false) (hafter : after.any isReserved = false) :
    Unreserved (String.ofList before ++ docLine (bareModel version context).context.name ++
      String.ofList after) :=
  ((unreserved_ofList hbefore).append (unreserved_docLine h.name)).append
    (unreserved_ofList hafter)

theorem unreserved_packages (h : CarriesPlainly version context s) :
    Unreserved (", ".intercalate
      ((packages (packageName (bareModel version context) s)).map literal)) := by
  have hname := unreserved_packageName h
  have hparts : ∀ part ∈ subpackages, Unreserved part := by decide +kernel
  refine unreserved_intercalate (by decide) fun text htext => ?_
  obtain ⟨package, hpackage, rfl⟩ := List.mem_map.1 htext
  refine unreserved_literal ?_
  rcases List.mem_cons.1 hpackage with rfl | hpackage
  · exact hname
  · obtain ⟨part, hpart, rfl⟩ := List.mem_map.1 hpackage
    exact (hname.append (by decide)).append (hparts part hpart)

theorem unreserved_manifest (h : CarriesPlainly version context s) :
    Unreserved (manifest (bareModel version context) s) := by
  have hname : Unreserved (literal (distributionName (bareModel version context))) :=
    unreserved_literal (unreserved_of_isPlain (Name.isPlain_kebab _))
  have hversion : Unreserved projectVersion := by decide
  refine unreserved_fileText ?_
  simp only [manifestLines, List.forall_mem_cons, unreserved_append_iff, hname, hversion,
    unreserved_literal (unreserved_description h), unreserved_literal h.languageRange,
    unreserved_literal (unreserved_packageName h), unreserved_packages h, List.not_mem_nil,
    false_imp_iff, implies_true, and_true]
  and_intros
  all_goals exact unreserved_ofList rfl

theorem unreserved_service (h : CarriesPlainly version context s) :
    Unreserved (service (bareModel version context) s) := by
  have hname : Unreserved (bareModel version context).context.name := h.name
  have hversion : Unreserved projectVersion := by decide
  refine unreserved_fileText ?_
  simp only [serviceLines, List.forall_mem_cons, unreserved_append_iff, hversion,
    unreserved_docLine hname, unreserved_literal hname, unreserved_packageName h,
    unreserved_decimalInt, unreserved_literal h.apiPath,
    unreserved_literal (unreserved_description h), List.not_mem_nil, false_imp_iff, implies_true,
    and_true]
  and_intros
  all_goals exact unreserved_ofList rfl

theorem unreserved_packageRoot (h : CarriesPlainly version context s) :
    Unreserved (packageRoot (bareModel version context)) := by
  have hversion : Unreserved projectVersion := by decide
  refine unreserved_fileText ?_
  simp only [List.forall_mem_cons, unreserved_append_iff, hversion,
    unreserved_docLine (unreserved_description h), List.not_mem_nil, false_imp_iff, implies_true,
    and_true]
  and_intros
  all_goals exact unreserved_ofList rfl

theorem unreserved_domainLayer (h : CarriesPlainly version context s) :
    Unreserved (domainLayer (bareModel version context)) := by
  refine unreserved_layer (unreserved_title h rfl rfl) (unreserved_ofList rfl) ?_
  simp only [List.forall_mem_cons, List.not_mem_nil, false_imp_iff, implies_true, and_true]
  and_intros
  all_goals exact unreserved_ofList rfl

theorem unreserved_readme (h : CarriesPlainly version context s) :
    Unreserved (readme (bareModel version context) s) := by
  have hname : Unreserved (bareModel version context).context.name := h.name
  have hversion : Unreserved (bareModel version context).version := h.version
  have hsubscriptions : (bareModel version context).subscriptions = [] := rfl
  refine unreserved_fileText ?_
  rw [table_bareModel, hsubscriptions]
  simp only [introduction, structureLines, orNone, List.map_nil, List.forall_mem_append,
    List.forall_mem_cons, unreserved_append_iff, hname, hversion, unreserved_packageName h,
    unreserved_description h, unreserved_decimalInt, List.not_mem_nil, false_imp_iff, implies_true,
    and_true, true_and]
  and_intros
  all_goals exact unreserved_ofList rfl

theorem unreserved_entities (h : CarriesPlainly version context s) :
    Unreserved (Entities.sourceModule (bareModel version context)).text := by
  have htypes : Entities.types (bareModel version context) = [] := by
    simp [Entities.types, Entities.enumerations, Entities.identifiers, Entities.records,
      Entities.aggregates, bareModel, sorted_empty]
  refine unreserved_text (unreserved_title h rfl rfl) unreserved_fixedImports.1 ?_
  unfold Entities.sourceModule
  rw [htypes]
  exact List.forall_mem_singleton.2 (unreserved_joinLines (unreserved_fixedLines _ (by simp)))

theorem unreserved_commands (h : CarriesPlainly version context s) :
    Unreserved (Commands.sourceModule (bareModel version context)).text := by
  have htypes : Commands.types (bareModel version context) = [] := by
    simp [Commands.types, bareModel, sorted_empty]
  have hhandlers : Commands.handlerMethods (bareModel version context) = [] := by
    simp [Commands.handlerMethods, bareModel, sorted_empty]
  have hcontract : Unreserved (Commands.handlerContract (bareModel version context)) := by
    unfold Commands.handlerContract
    rw [hhandlers]
    refine unreserved_block (unreserved_ofList rfl) (List.forall_mem_singleton.2 ?_)
    exact (Unreserved.append (by decide) (unreserved_title h rfl rfl)).append (by decide)
  refine unreserved_text (unreserved_title h rfl rfl) unreserved_fixedImports.2.1 ?_
  unfold Commands.sourceModule
  rw [htypes]
  exact List.forall_mem_cons.2 ⟨unreserved_joinLines (unreserved_fixedLines _ (by simp)),
    List.forall_mem_singleton.2 hcontract⟩

theorem unreserved_events (h : CarriesPlainly version context s) :
    Unreserved (Events.sourceModule (bareModel version context)).text := by
  have htypes : Events.types (bareModel version context) = [] := by
    simp [Events.types, bareModel, sorted_empty]
  have hlist : Unreserved (Events.subscriptionList (bareModel version context).subscriptions) :=
    unreserved_ofList rfl
  refine unreserved_text (unreserved_title h rfl rfl) unreserved_fixedImports.2.2.1 ?_
  unfold Events.sourceModule
  rw [htypes]
  simp only [Events.envelopeBlocks, List.map_nil, List.nil_append, List.cons_append,
    List.forall_mem_cons, hlist, List.not_mem_nil, false_imp_iff, implies_true, and_true]
  and_intros
  all_goals exact unreserved_joinLines (unreserved_fixedLines _ (by simp))

theorem unreserved_routes (h : CarriesPlainly version context s) :
    Unreserved (Routes.sourceModule (bareModel version context)).text := by
  have hcommands : Routes.commandRoutes (bareModel version context) = [] := by
    simp [Routes.commandRoutes, bareModel, sorted_empty]
  have hqueries : Routes.queryRoutes (bareModel version context) = [] := by
    simp [Routes.queryRoutes, bareModel, sorted_empty]
  have hrouter : Unreserved (Routes.router []) := by
    refine unreserved_block (unreserved_ofList rfl) ?_
    simp only [docstring, List.isEmpty_nil, if_true, List.flatMap_nil, List.cons_append,
      List.nil_append, List.forall_mem_cons, unreserved_append_iff, List.not_mem_nil,
      false_imp_iff, implies_true, and_true]
    and_intros
    all_goals exact unreserved_ofList rfl
  refine unreserved_text (unreserved_title h rfl rfl) unreserved_fixedImports.2.2.2 ?_
  unfold Routes.sourceModule
  rw [hcommands, hqueries, table_bareModel]
  exact List.forall_mem_cons.2 ⟨unreserved_joinLines (unreserved_fixedLines _ (by simp)),
    List.forall_mem_singleton.2 hrouter⟩

/-- The project of a model without definitions has no reserved characters unless it carries one
over. -/
theorem unreserved_render (h : CarriesPlainly version context s) :
    ∀ file ∈ (render (bareModel version context) s).files, Unreserved file.2 := by
  unfold render renderers
  simp only [List.map_cons, List.map_nil, List.forall_mem_cons, List.not_mem_nil, false_imp_iff,
    implies_true, and_true]
  exact ⟨unreserved_manifest h, unreserved_packageRoot h, unreserved_service h,
    unreserved_domainLayer h, unreserved_entities h, unreserved_commands h, unreserved_events h,
    unreserved_apiLayer, unreserved_routes h, unreserved_infrastructureLayer,
    unreserved_eventStore, unreserved_repository, unreserved_readme h⟩

end CarriesPlainly

end Groundplan.Project
