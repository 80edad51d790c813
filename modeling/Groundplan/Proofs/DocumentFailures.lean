import Groundplan.Document
import Groundplan.Proofs.Presentation
import Groundplan.Proofs.SettingsOverride

/-!
# How parsing a document fails

Parsing promises a model, or a failure that blames the document by its source or names the rule
that the model violates. The promise is broken in three ways. A part that cannot be built, such as a
scalar whose text does not fit its type or collections nested too deep, ends the reading at once. A
version or a name that is itself a collection is written as a text, and one that is nested too deep
ends it there. A flat value object whose type is a collection ends it when the type is looked up,
before anything is decoded. Nothing else breaks it.

Whether a value object is looked at is said here of the document as it was loaded. Preparing it
writes the keys of each section as texts, and of several definitions under one text the last one
counts; giving a definition its name changes nothing about its type.
-/

namespace Groundplan

/-! ### Entries -/

namespace Entries

theorem get?_drop_self (e : Entries) (name : String) : (e.drop name).get? name = none := by
  simp [drop, get?]

theorem get?_drop_of_ne (e : Entries) {name key : String} (h : key ≠ name) :
    (e.drop name).get? key = e.get? key := by
  unfold drop get?
  rw [List.find?_filter]
  congr 2
  funext entry
  by_cases hkey : entry.1 = .str key <;> simp [hkey, h]

end Entries

/-! ### Preparing a document -/

/-- Definitions under texts as keys. -/
def keyed (entries : List (String × Value)) : Entries :=
  entries.map fun entry => (.str entry.1, entry.2)

theorem put_keyed (entries : List (String × Value)) (name : String) (value : Value) :
    (keyed entries).put (.str name) value = keyed (Catalog.putEntry entries name value) := by
  induction entries with
  | nil => rfl
  | cons entry entries ih =>
      obtain ⟨name', value'⟩ := entry
      by_cases hname : name' = name
      · subst hname
        simp [keyed, Entries.put, Catalog.putEntry, Entries.sameKey_str_left]
      · have hne : Scalar.str name ≠ .str name' := by simpa [eq_comm] using hname
        have hput : (keyed ((name', value') :: entries)).put (.str name) value =
            (.str name', value') :: (keyed entries).put (.str name) value := by
          simp [keyed, Entries.put, Entries.sameKey_str_left, hne]
        rw [hput, ih, Catalog.putEntry, if_neg hname]
        rfl

/-- The definition of an entry with its key as text and with a name. -/
def namedDefinition? (entry : Scalar × Value) : Option (String × Value) :=
  entry.1.text?.map fun name => (name, nameFromKey name entry.2)

/-- Named definitions with one more. -/
def putNamed? (named : Entries) (entry : Scalar × Value) : Option Entries := do
  let name ← entry.1.text?
  return named.put (.str name) (nameFromKey name entry.2)

theorem foldlM_putNamed? (entries : Entries) (c : Catalog Value) :
    entries.foldlM putNamed? (keyed c.entries) =
      (entries.mapM namedDefinition?).map fun named =>
        keyed (named.foldl (fun c entry => c.put entry.1 entry.2) c).entries := by
  induction entries generalizing c with
  | nil => rfl
  | cons entry entries ih =>
      cases htext : entry.1.text? with
      | none => simp [putNamed?, namedDefinition?, htext]
      | some name =>
          have hput : putNamed? (keyed c.entries) entry =
              some (keyed (c.put name (nameFromKey name entry.2)).entries) := by
            rw [putNamed?, htext]
            exact congrArg some (put_keyed c.entries name _)
          have hnamed : namedDefinition? entry = some (name, nameFromKey name entry.2) := by
            rw [namedDefinition?, htext]
            rfl
          rw [List.mapM_cons, List.foldlM_cons, hput, hnamed]
          simp only [Option.bind_eq_bind, Option.bind_some, ih]
          cases entries.mapM namedDefinition? <;> rfl

/-- The definitions of a section are named one by one and gathered in a catalog. -/
theorem nameDefinitions?_eq (entries : Entries) :
    nameDefinitions? entries =
      (entries.mapM namedDefinition?).map fun named => keyed (Catalog.ofList named).entries := by
  change entries.foldlM putNamed? (keyed Catalog.empty.entries) = _
  exact foldlM_putNamed? entries .empty

/-- The definition that counts for a name: the last one under a key with that text. -/
def Entries.Defines (entries : Entries) (name : String) (definition : Value) : Prop :=
  ∃ before key after, entries = before ++ (key, definition) :: after ∧ key.text? = some name ∧
    ∀ entry ∈ after, entry.1.text? ≠ some name

theorem map_eq_of_mapM {α β : Type} {f : α → Option β} {as : List α} {bs : List β}
    (h : as.mapM f = some bs) : as.map f = bs.map some := by
  induction as generalizing bs with
  | nil =>
      cases h
      rfl
  | cons a as ih =>
      simp only [List.mapM_cons, Option.bind_eq_bind, Option.pure_def, Option.bind_eq_some_iff,
        Option.some.injEq] at h
      obtain ⟨b, hb, rest, hrest, rfl⟩ := h
      rw [List.map_cons, List.map_cons, hb, ih hrest]

theorem namedDefinition?_eq_some_iff {entry : Scalar × Value} {name : String} {value : Value} :
    namedDefinition? entry = some (name, value) ↔
      entry.1.text? = some name ∧ nameFromKey name entry.2 = value := by
  cases htext : entry.1.text? with
  | none => simp [namedDefinition?, htext]
  | some name' =>
      simp only [namedDefinition?, htext, Option.map_some, Option.some.injEq, Prod.mk.injEq]
      constructor
      · rintro ⟨rfl, rfl⟩
        exact ⟨rfl, rfl⟩
      · rintro ⟨rfl, rfl⟩
        exact ⟨rfl, rfl⟩

/-- What counts among named definitions is what counts in the section, with its name. -/
theorem counts_iff_defines {entries : Entries} {named : List (String × Value)}
    (h : entries.mapM namedDefinition? = some named) (name : String) (value : Value) :
    Catalog.Counts named name value ↔
      ∃ definition, entries.Defines name definition ∧ nameFromKey name definition = value := by
  have hmap : entries.map namedDefinition? = named.map some := map_eq_of_mapM h
  constructor
  · rintro ⟨before, after, rfl, hlast⟩
    rw [List.map_append, List.map_cons] at hmap
    obtain ⟨before', rest, rfl, -, hrest⟩ := List.map_eq_append_iff.1 hmap
    obtain ⟨⟨key, definition⟩, after', rfl, hentry, hafter⟩ := List.map_eq_cons_iff.1 hrest
    obtain ⟨htext, hvalue⟩ := namedDefinition?_eq_some_iff.1 hentry
    refine ⟨definition, ⟨before', key, after', rfl, htext, fun entry hmem hname => ?_⟩, hvalue⟩
    have hnamed : some (name, nameFromKey name entry.2) ∈ after.map some := by
      rw [← hafter, ← namedDefinition?_eq_some_iff.2 ⟨hname, rfl⟩]
      exact List.mem_map_of_mem hmem
    obtain ⟨later, hlater, heq⟩ := List.mem_map.1 hnamed
    cases heq
    exact hlast (List.mem_map_of_mem hlater)
  · rintro ⟨definition, ⟨before, key, after, rfl, htext, hlast⟩, rfl⟩
    rw [List.map_append, List.map_cons, eq_comm] at hmap
    obtain ⟨before', rest, rfl, -, hrest⟩ := List.map_eq_append_iff.1 hmap
    obtain ⟨entry, after', rfl, hentry, hafter⟩ := List.map_eq_cons_iff.1 hrest
    rw [namedDefinition?_eq_some_iff.2 ⟨htext, rfl⟩] at hentry
    cases hentry
    refine ⟨before', after', rfl, fun hname => ?_⟩
    obtain ⟨later, hlater, hkey⟩ := List.mem_map.1 hname
    have hnamed : some later ∈ after.map namedDefinition? := hafter ▸ List.mem_map_of_mem hlater
    obtain ⟨original, horiginal, heq⟩ := List.mem_map.1 hnamed
    obtain ⟨later, value⟩ := later
    cases hkey
    exact hlast original horiginal (namedDefinition?_eq_some_iff.1 heq).1

/-- The definitions of a section as data. -/
def sectionEntries? (data : Entries) (s : Section) : Option Entries :=
  (data.get? s.key).bind Value.entries?

theorem Section.key_injective {s t : Section} (h : s.key = t.key) : s = t := by
  cases s <;> cases t <;> simp [Section.key] at h ⊢

/-- Naming a section changes nothing under another key. -/
theorem get?_nameSection? {data named : Entries} {s : Section}
    (h : nameSection? data s = some named) {key : String} (hkey : key ≠ s.key) :
    named.get? key = data.get? key := by
  have hne : Scalar.str s.key ≠ .str key := by simpa [eq_comm] using hkey
  unfold nameSection? at h
  split at h
  · cases h
    rfl
  next value hvalue =>
    split at h
    · cases h
      exact data.get?_drop_of_ne hkey
    · split at h
      next entries hentries =>
        obtain ⟨definitions, -, rfl⟩ := Option.map_eq_some_iff.1 h
        exact data.get?_put_of_ne hne _
      · cases h
        rfl

/-- Naming a section names its definitions, if it has any. -/
theorem sectionEntries?_nameSection? {data named : Entries} {s : Section}
    (h : nameSection? data s = some named) :
    (sectionEntries? data s).mapM nameDefinitions? = some (sectionEntries? named s) := by
  unfold nameSection? at h
  unfold sectionEntries?
  split at h
  next hnone =>
    cases h
    rw [hnone]
    rfl
  next value hvalue =>
    rw [hvalue, Option.bind_some]
    split at h
    next hnull =>
      cases h
      rw [data.get?_drop_self]
      cases value with
      | scalar s => rfl
      | _ => cases hnull
    · split at h
      next entries hentries =>
        obtain ⟨definitions, hdefinitions, rfl⟩ := Option.map_eq_some_iff.1 h
        rw [data.get?_put_self, hentries, Option.mapM_some, hdefinitions]
        rfl
      next hnone =>
        cases h
        rw [hvalue, Option.bind_some, hnone]
        rfl

/-- Naming sections one after another names each of them and no other. -/
theorem sectionEntries?_foldlM {sections : List Section} (hdistinct : sections.Nodup)
    {data named : Entries} (h : sections.foldlM nameSection? data = some named) (s : Section) :
    (s ∈ sections →
      (sectionEntries? data s).mapM nameDefinitions? = some (sectionEntries? named s)) ∧
    (s ∉ sections → sectionEntries? named s = sectionEntries? data s) := by
  induction sections generalizing data with
  | nil =>
      cases h
      simp
  | cons first sections ih =>
      rw [List.foldlM_cons] at h
      obtain ⟨next, hfirst, hrest⟩ := Option.bind_eq_some_iff.1 h
      obtain ⟨hfresh, hdistinct⟩ := List.nodup_cons.1 hdistinct
      obtain ⟨hnamed, hframe⟩ := ih hdistinct hrest
      by_cases hs : s = first
      · subst hs
        rw [hframe hfresh]
        exact ⟨fun _ => sectionEntries?_nameSection? hfirst, fun hmem => absurd (by simp) hmem⟩
      · have hkey : s.key ≠ first.key := fun hkey => hs (Section.key_injective hkey)
        have hnext : sectionEntries? next s = sectionEntries? data s := by
          rw [sectionEntries?, get?_nameSection? hfirst hkey]
          rfl
        rw [hnext] at hnamed hframe
        simpa [hs] using And.intro hnamed hframe

theorem get?_dropNull (data : Entries) {key key' : String} (h : key ≠ key') :
    (dropNull data key').get? key = data.get? key := by
  unfold dropNull
  split
  · exact data.get?_drop_of_ne h
  · rfl

theorem get?_versionAsText {data texted : Entries} (h : versionAsText data = .ok texted)
    {key : String} (hkey : key ≠ "version") : texted.get? key = data.get? key := by
  unfold versionAsText at h
  split at h
  next value hvalue =>
    cases htext : value.text with
    | error why =>
        rw [htext] at h
        cases h
    | ok text =>
        rw [htext] at h
        cases h
        exact data.get?_put_of_ne (by simpa [eq_comm] using hkey) _
  · cases h
    rfl

/-- A prepared document has the definitions of each section named. -/
theorem sectionEntries?_prepare? {data prepared : Entries} (h : prepare? data = some prepared)
    (s : Section) :
    (sectionEntries? data s).mapM nameDefinitions? = some (sectionEntries? prepared s) := by
  have hkeys : s.key ≠ "type_aliases" ∧ s.key ≠ "external_events" ∧ s.key ≠ "version" := by
    cases s <;> decide
  unfold prepare? at h
  split at h
  · cases h
  · obtain ⟨texted, htexted, h⟩ := Option.bind_eq_some_iff.1 h
    obtain ⟨named, hnamed, h⟩ := Option.bind_eq_some_iff.1 h
    cases h
    have htexted : versionAsText data = .ok texted := by
      cases hversion : versionAsText data with
      | error why =>
          rw [hversion] at htexted
          cases htexted
      | ok texted' =>
          rw [hversion] at htexted
          cases htexted
          rfl
    have hall : s ∈ Section.all := by cases s <;> decide
    have hsection := (sectionEntries?_foldlM (by decide) hnamed s).1 hall
    unfold sectionEntries? at hsection ⊢
    rw [get?_dropNull _ hkeys.1, get?_dropNull _ hkeys.2.1, ← hsection,
      get?_versionAsText htexted hkeys.2.2]

/-! ### What has to be written -/

/-- The name that a definition declares, if it is another one than its key. -/
def otherName? (key : Scalar) (definition : Value) : Option Value :=
  (definition.entries?.bind (Entries.get? · "name")).filter fun declared =>
    !declared.isNull && declared.str? ≠ key.text?

/-- The values that are written as texts before a document is decoded, in their order: its version,
then in each section the keys, each with the other name that its definition declares. -/
def writtenFirst (data : Entries) : List Value :=
  (data.get? "version").toList ++ Section.all.flatMap fun s =>
    ((sectionEntries? data s).getD []).flatMap fun entry =>
      .scalar entry.1 :: (otherName? entry.1 entry.2).toList

/-- Why a value has no text, if it has none. -/
def Value.unshowable? (value : Value) : Option Unshowable :=
  match value.text with
  | .ok _ => none
  | .error why => some why

theorem Value.unshowable?_of_ok {value : Value} {text : String} (h : value.text = .ok text) :
    value.unshowable? = none := by
  rw [unshowable?, h]

theorem Value.unshowable?_of_error {value : Value} {why : Unshowable}
    (h : value.text = .error why) : value.unshowable? = some why := by
  rw [unshowable?, h]

theorem obstacle_versionTrail (data : Entries) :
    (versionTrail data).obstacle =
      ((data.get? "version").toList.findSome? Value.unshowable?).map Unshowable.obstacle := by
  unfold versionTrail versionAsText
  cases data.get? "version" with
  | none => rfl
  | some value =>
      cases htext : value.text with
      | error why => simp [htext, Value.unshowable?_of_error htext, Except.map, Trail.stop]
      | ok text => simp [htext, Value.unshowable?_of_ok htext, Except.map]

theorem obstacle_renameTrail (s : Section) (key : Scalar) (definition : Value) :
    (renameTrail s key definition).obstacle =
      ((Value.scalar key :: (otherName? key definition).toList).findSome?
        Value.unshowable?).map Unshowable.obstacle := by
  unfold renameTrail otherName?
  cases hkey : key.text? with
  | none =>
      have htext : (Value.scalar key).text = .error .number := by rw [Value.text, hkey]; rfl
      rw [List.findSome?_cons, Value.unshowable?_of_error htext]
      rfl
  | some name =>
      have htext : (Value.scalar key).text = .ok name := by rw [Value.text, hkey]; rfl
      rw [List.findSome?_cons, Value.unshowable?_of_ok htext]
      cases definition.entries?.bind (Entries.get? · "name") with
      | none => rfl
      | some declared =>
          rw [Option.filter_some]
          by_cases hsame : (declared.isNull || declared.str? = some name) = true
          · have hother : (!declared.isNull && decide (declared.str? ≠ some name)) = false := by
              grind
            rw [hother, if_neg Bool.false_ne_true]
            simp only [hsame, if_true]
            rfl
          · have hother : (!declared.isNull && decide (declared.str? ≠ some name)) = true := by
              grind
            rw [hother, if_pos rfl]
            simp only [hsame, Option.toList_some, List.findSome?_cons]
            cases hdeclared : declared.text with
            | error why => rw [Value.unshowable?_of_error hdeclared]; rfl
            | ok shown => rw [Value.unshowable?_of_ok hdeclared]; rfl

theorem findSome?_flatMap {α β γ : Type} (as : List α) (f : α → List β) (p : β → Option γ) :
    (as.flatMap f).findSome? p = as.findSome? fun a => (f a).findSome? p := by
  induction as with
  | nil => rfl
  | cons a as ih =>
      rw [List.flatMap_cons, List.findSome?_append, List.findSome?_cons, ih]
      cases (f a).findSome? p <;> rfl

theorem obstacle_sectionTrail (data : Entries) (s : Section) :
    (sectionTrail data s).obstacle =
      ((((sectionEntries? data s).getD []).flatMap fun entry =>
        .scalar entry.1 :: (otherName? entry.1 entry.2).toList).findSome?
          Value.unshowable?).map Unshowable.obstacle := by
  unfold sectionTrail sectionEntries?
  rw [findSome?_flatMap, List.map_findSome?]
  cases (data.get? s.key).bind Value.entries? with
  | none => rfl
  | some entries =>
      refine (Trail.obstacle_each _ entries).trans (congrArg (List.findSome? · entries) ?_)
      funext entry
      exact obstacle_renameTrail s entry.1 entry.2

/-- Giving a version and names their texts breaks off at the first value that has none. -/
theorem obstacle_namingTrail (data : Entries) :
    (namingTrail data).obstacle =
      ((writtenFirst data).findSome? Value.unshowable?).map Unshowable.obstacle := by
  have hsections : (Trail.each (sectionTrail data) Section.all).obstacle =
      ((Section.all.flatMap fun s => ((sectionEntries? data s).getD []).flatMap fun entry =>
        .scalar entry.1 :: (otherName? entry.1 entry.2).toList).findSome?
          Value.unshowable?).map Unshowable.obstacle := by
    rw [findSome?_flatMap, List.map_findSome?, Trail.obstacle_each]
    congr 1
    funext s
    exact obstacle_sectionTrail data s
  unfold namingTrail writtenFirst
  rw [Trail.obstacle_append, obstacle_versionTrail, hsections, List.findSome?_append]
  cases (data.get? "version").toList.findSome? Value.unshowable? <;> rfl

/-- Whether of the values that are written first, the first one without a text is nested too
deep. -/
def NestsTooDeep (data : Entries) : Prop :=
  ∃ before value after, writtenFirst data = before ++ value :: after ∧
    (∀ v ∈ before, v.text?.isSome = true) ∧ value.text = .error .depth

theorem Value.unshowable?_eq_none_iff (value : Value) :
    value.unshowable? = none ↔ value.text?.isSome = true := by
  unfold unshowable? text?
  cases value.text <;> simp [Except.toOption]

theorem obstacle_namingTrail_eq_deepValue_iff (data : Entries) :
    (namingTrail data).obstacle = some .deepValue ↔ NestsTooDeep data := by
  have hdepth (why : Unshowable) : why.obstacle = .deepValue ↔ why = .depth := by
    cases why <;> decide
  have hvalue (value : Value) : value.unshowable? = some .depth ↔ value.text = .error .depth := by
    unfold Value.unshowable?
    cases value.text <;> simp
  rw [obstacle_namingTrail, Option.map_eq_some_iff]
  simp only [hdepth, exists_eq_right, List.findSome?_eq_some_iff, hvalue,
    Value.unshowable?_eq_none_iff, NestsTooDeep]
  grind

/-! ### Types that are collections -/

/-- Whether a flat definition names its type by a collection of some kind that is not empty. -/
def Value.HasCollectionType (definition : Value) (kind : String) : Prop :=
  ∃ e type, definition.entries? = some e ∧ e.get? "shape" = none ∧ e.get? "type" = some type ∧
    type.truthy = true ∧ type.kindName = kind ∧ kind ∈ ["list", "dict", "set"]

theorem hasCollectionType_of_collectionType? {definition : Value} {kind : String}
    (h : collectionType? definition = some kind) : definition.HasCollectionType kind := by
  unfold collectionType? at h
  split at h
  · cases h
  next e hentries =>
    split at h
    · cases h
    next hshape =>
      have hflat : e.get? "shape" = none := by simpa [Entries.has] using hshape
      -- Only the outermost collection of the type is looked at.
      split at h
      on_goal 4 => cases h
      all_goals
        next hunfold =>
        cases h
        obtain ⟨type, htype, hopen⟩ := Option.map_eq_some_iff.1 hunfold
        refine ⟨e, type, hentries, hflat, htype, ?_, ?_, by decide⟩
        · simp [Value.truthy, hopen]
        · simp [Value.kindName, hopen]

theorem Value.HasCollectionType.collectionType? {definition : Value} {kind : String}
    (h : definition.HasCollectionType kind) : collectionType? definition = some kind := by
  obtain ⟨e, type, hentries, hflat, htype, htruthy, rfl, hkind⟩ := h
  simp only [Groundplan.collectionType?, hentries, Entries.has, hflat, htype, Option.isSome_none,
    Bool.false_eq_true, if_false, Option.map_some]
  unfold Value.truthy at htruthy
  unfold Value.kindName at hkind ⊢
  cases hopen : type.unfold with
  | list items => cases items <;> simp_all
  | set members => cases members <;> simp_all
  | map entries => cases entries <;> simp_all
  | scalar s => cases s <;> simp [hopen] at hkind
  | pair first second => simp [hopen] at hkind
  | node g place => simp [hopen] at hkind

/-- The name that a definition takes from its key is no part of its type. -/
theorem collectionType?_nameFromKey (name : String) (definition : Value) :
    collectionType? (nameFromKey name definition) = collectionType? definition := by
  unfold nameFromKey
  split
  next e hentries =>
    split
    · have hmap : (Value.map (e.put (.str "name") (.str name))).entries? =
          some (e.put (.str "name") (.str name)) := rfl
      have hshape : (e.put (.str "name") (.str name)).has "shape" = e.has "shape" := by
        rw [Entries.has, e.get?_put_of_ne (by decide)]
        rfl
      have htype : (e.put (.str "name") (.str name)).get? "type" = e.get? "type" :=
        e.get?_put_of_ne (by decide) _
      simp only [collectionType?, hentries, hmap, hshape, htype]
    · rfl
  · rfl

/-- Whether a value object of a document names its type by a collection. -/
def NamesCollection (data : Entries) (kind : String) : Prop :=
  ∃ entries name definition, sectionEntries? data .valueObjects = some entries ∧
    entries.Defines name definition ∧ definition.HasCollectionType kind

theorem collectionTyped?_prepare? {data prepared : Entries} (h : prepare? data = some prepared) :
    (∀ kind, collectionTyped? prepared = some kind → NamesCollection data kind) ∧
      ∀ kind, NamesCollection data kind → (collectionTyped? prepared).isSome = true := by
  have hsection := sectionEntries?_prepare? h .valueObjects
  have hlookup : collectionTyped? prepared = (sectionEntries? prepared .valueObjects).bind
      fun entries => entries.findSome? fun entry => collectionType? entry.2 := rfl
  cases hentries : sectionEntries? data .valueObjects with
  | none =>
      have hprepared : sectionEntries? prepared .valueObjects = none := by
        simpa [hentries, eq_comm] using hsection
      simp [hlookup, hprepared, NamesCollection, hentries]
  | some entries =>
      rw [hentries, Option.mapM_some, nameDefinitions?_eq] at hsection
      obtain ⟨definitions, hdefinitions, heq⟩ := Option.map_eq_some_iff.1 hsection
      obtain ⟨named, hnamed, rfl⟩ := Option.map_eq_some_iff.1 hdefinitions
      have htyped : collectionTyped? prepared =
          (Catalog.ofList named).entries.findSome? fun entry => collectionType? entry.2 := by
        rw [hlookup, ← heq, Option.bind_some, keyed, List.findSome?_map]
        rfl
      rw [htyped]
      constructor
      · intro kind hkind
        obtain ⟨⟨name, value⟩, hmem, htype⟩ := List.exists_of_findSome?_eq_some hkind
        rw [Catalog.mem_entries_ofList, counts_iff_defines hnamed] at hmem
        obtain ⟨definition, hdefines, rfl⟩ := hmem
        rw [collectionType?_nameFromKey] at htype
        exact ⟨entries, name, definition, hentries, hdefines,
          hasCollectionType_of_collectionType? htype⟩
      · rintro kind ⟨entries', name, definition, hentries', hdefines, htype⟩
        cases hentries.symm.trans hentries'
        rw [List.findSome?_isSome_iff]
        refine ⟨(name, nameFromKey name definition), ?_, ?_⟩
        · rw [Catalog.mem_entries_ofList, counts_iff_defines hnamed]
          exact ⟨definition, hdefines, rfl⟩
        · rw [collectionType?_nameFromKey, htype.collectionType?]
          rfl

/-! ### Failures -/

/-- Whether a failure is one that parsing a document promises. -/
def Failure.isPromised (source : Option String) : Failure → Bool
  | .document source' _ => source' = source
  | .violation _ => true
  | _ => false

namespace Document

/-- The entries of a text under their usual keys, if the text denotes a mapping. -/
def entriesOf (text : String) : Except Yaml.Fault (Option Entries) := do
  match ← Yaml.compose text with
  | none => return none
  | some g => return (restoreVersion g (← g.value)).entries?.map usualKeys

/-- The source of a document is named in failures and has no other part in loading it. -/
theorem load_eq (source : Option String) (text : String) :
    load source text =
      match entriesOf text with
      | .error fault => .error (failureOf source fault)
      | .ok none => .error (.document source .root)
      | .ok (some data) => .ok data := by
  unfold load entriesOf
  cases Yaml.compose text with
  | error fault => rfl
  | ok graph =>
      cases graph with
      | none => rfl
      | some g =>
          cases hvalue : g.value with
          | error fault => simp [hvalue, Except.mapError, bind, Except.bind]
          | ok value =>
              simp only [hvalue, Except.mapError, bind, Except.bind, pure, Except.pure]
              cases (restoreVersion g value).entries? <;> rfl

/-- A text has no entries for the same fault for which it denotes no value. -/
theorem entriesOf_eq_error_iff (text : String) (fault : Yaml.Fault) :
    entriesOf text = .error fault ↔ Yaml.load text = .error fault := by
  unfold entriesOf Yaml.load
  cases Yaml.compose text with
  | error fault => simp [bind, Except.bind]
  | ok graph =>
      cases graph with
      | none => exact ⟨nofun, nofun⟩
      | some g =>
          cases hvalue : g.value with
          | error fault => simp [hvalue, bind, Except.bind]
          | ok value => simp [hvalue, bind, Except.bind, pure, Except.pure]

/-- How parsing a text fails in a way that is not promised. -/
inductive Escapes (text : String) : Failure → Prop where
  | part {fault : Yaml.ScalarFault} (h : Yaml.load text = .error (.unbuildable fault)) :
      Escapes text (.scalar fault)
  | deepValue {data : Entries} (hentries : entriesOf text = .ok (some data))
      (h : NestsTooDeep data) : Escapes text .deepValue
  | collectionType {data : Entries} {kind : String} (hentries : entriesOf text = .ok (some data))
      (hprepared : (prepare? data).isSome = true) (h : NamesCollection data kind) :
      Escapes text (.collectionType kind)

/-- Making a model of entries fails as promised, unless a value that has to be written is nested too
deep or a type is a collection. -/
theorem modelOf_error {source : Option String} {data : Entries} {f : Failure}
    (h : modelOf source data = .error f) :
    f.isPromised source = true ∨ NestsTooDeep data ∧ f = .deepValue ∨
      ∃ prepared kind, prepare? data = some prepared ∧
        collectionTyped? prepared = some kind ∧ f = .collectionType kind := by
  unfold modelOf at h
  split at h
  · cases h
    unfold namingFailure
    split
    next hobstacle =>
      exact .inr (.inl ⟨(obstacle_namingTrail_eq_deepValue_iff data).1 hobstacle, rfl⟩)
    · exact .inl (decide_eq_true rfl)
  next prepared hprepared =>
    split at h
    next kind hkind =>
      cases h
      exact .inr (.inr ⟨prepared, kind, hprepared, hkind, rfl⟩)
    · split at h
      · cases h
        exact .inl (decide_eq_true rfl)
      · split at h
        · cases h
          exact .inl rfl
        · cases h

theorem modelOf_of_collectionTyped? {data prepared : Entries} {kind : String}
    (hprepared : prepare? data = some prepared) (hkind : collectionTyped? prepared = some kind)
    (source : Option String) : modelOf source data = .error (.collectionType kind) := by
  simp only [modelOf, hprepared, hkind]

theorem modelOf_of_nestsTooDeep {data : Entries} (h : NestsTooDeep data)
    (source : Option String) : modelOf source data = .error .deepValue := by
  have hobstacle := (obstacle_namingTrail_eq_deepValue_iff data).2 h
  have hbroken : (namingTrail data).broken = true := by rw [Trail.broken, hobstacle]; rfl
  have hprepare : prepare? data = none := by simp [prepare?, hbroken]
  simp only [modelOf, hprepare, namingFailure, hobstacle]

/-- Whether parsing ended in a failure that is not promised, with the given message. -/
def endsUnpromised (source : Option String) (message : String) : Except Failure Model → Bool
  | .error f => !f.isPromised source && f.message = message
  | .ok _ => false

theorem of_endsUnpromised {source : Option String} {message : String} {r : Except Failure Model}
    (h : endsUnpromised source message r = true) :
    ∃ f, r = .error f ∧ f.isPromised source = false ∧ f.message = message := by
  cases r with
  | ok m => cases h
  | error f => exact ⟨f, rfl, by simpa [endsUnpromised] using h⟩

end Document

end Groundplan
