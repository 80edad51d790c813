import Groundplan.Proofs.DocumentFailures
import Mathlib.Data.List.Dedup

/-!
# The sizes of sections

On its way from a document to a model a definition can be lost in two ways. The two spellings of a
top-level key are one key, and the last value under it is the only one that is read. The keys of a
section become texts, and of several definitions under one text the last one stays. Neither leaves
a note.

So the definitions of a section are counted by the distinct texts of the keys of one mapping. They
are all that the document has for the section exactly if the other mappings are empty and no two
keys of this one have the same text.
-/

namespace Groundplan

/-! ### Keys of values -/

/-- The keys of a mapping in a graph; other collections have none. -/
def Collection.keys : Collection → List Scalar
  | .map entries => entries.map Prod.fst
  | _ => []

/-- The keys of a value that is a mapping; other values have none. -/
def Value.keys (value : Value) : List Scalar :=
  (value.entries?.getD []).map Prod.fst

theorem Value.keys_node (g : Graph) (place : Nat) :
    (Value.node g place).keys = ((g[place]?).map Collection.keys).getD [] := by
  cases hplace : g[place]? with
  | none => simp [Value.keys, Value.entries?, Value.unfold, hplace, Value.null]
  | some c =>
      cases c <;>
        simp [Value.keys, Value.entries?, Value.unfold, hplace, Value.ofCollection,
          Collection.keys, Function.comp_def]

/-- A text under one key of a mapping changes no keys of any collection. -/
theorem Value.keys_ofPart_putText (g : Graph) (place : Nat) (key text : String) (part : Part) :
    (Value.ofPart (g.putText place key text) part).keys = (Value.ofPart g part).keys := by
  cases part with
  | scalar s => rfl
  | collection other =>
      rw [Value.ofPart, Value.ofPart, Value.keys_node, Value.keys_node, Graph.putText,
        Array.getElem?_modify]
      split
      · cases g[other]? with
        | none => rfl
        | some c => cases c <;> simp [Collection.keys, Function.comp_def]
      · rfl

/-- The entries of a mapping in a graph. -/
theorem Value.entries?_node_eq_some_iff {g : Graph} {place : Nat} {data : Entries} :
    (Value.node g place).entries? = some data ↔ ∃ entries, g[place]? = some (.map entries) ∧
      (entries.map fun entry => (entry.1, Value.ofPart g entry.2)) = data := by
  cases hplace : g[place]? with
  | none => simp [Value.entries?, Value.unfold, hplace, Value.null]
  | some c => cases c <;> simp [Value.entries?, Value.unfold, hplace, Value.ofCollection]

theorem Graph.of_getElem?_putText {g : Graph} {place : Nat} {key text : String}
    {entries : List (Scalar × Part)} (h : (g.putText place key text)[place]? = some (.map entries)) :
    ∃ entries', g[place]? = some (.map entries') ∧ (entries'.map fun entry =>
      (entry.1, if entry.1 = .str key then .scalar (.str text) else entry.2)) = entries := by
  rw [Graph.putText, Array.getElem?_modify, if_pos rfl, Option.map_eq_some_iff] at h
  obtain ⟨c, hc, hmap⟩ := h
  cases c with
  | map entries' => exact ⟨entries', hc, Collection.map.inj hmap⟩
  | list items => cases hmap
  | pairs items => cases hmap
  | set members => cases hmap

/-! ### Sections of a document -/

/-- The values that stand under the spellings of a key, in order. -/
def valuesUnder (data : Entries) (name : String) : List Value :=
  (data.filter fun entry => Document.usualKey entry.1 = .str name).map Prod.snd

/-- The keys of each value that stands under a section, by whichever spelling. -/
def sectionKeys (data : Entries) (s : Section) : List (List Scalar) :=
  (valuesUnder data s.key).map Value.keys

/-- The number of entries that a document has for a section. -/
def sectionTotal (data : Entries) (s : Section) : Nat :=
  (sectionKeys data s).flatten.length

/-- The texts of the keys that count for a section: those of the last value. -/
def sectionTexts (data : Entries) (s : Section) : List (Option String) :=
  ((sectionKeys data s).getLast?.getD []).map Scalar.text?

/-- Whether a section keeps all its definitions: the values before the last have none, and the keys
of the last one have distinct texts. -/
def KeepsSection (data : Entries) (s : Section) : Prop :=
  (∀ keys ∈ (sectionKeys data s).dropLast, keys = []) ∧ (sectionTexts data s).Nodup

namespace Document

/-- Under a usual key stands the last value that came under one of its spellings. -/
theorem get?_foldl_usualKey (data usual : Entries) (name : String) :
    (data.foldl (fun usual entry => usual.put (usualKey entry.1) entry.2) usual).get? name =
      (valuesUnder data name).getLast?.or (usual.get? name) := by
  induction data generalizing usual with
  | nil => rfl
  | cons entry data ih =>
      obtain ⟨key, value⟩ := entry
      rw [List.foldl_cons, ih]
      by_cases hkey : usualKey key = .str name
      · have hvalues : valuesUnder ((key, value) :: data) name =
            value :: valuesUnder data name := by
          simp [valuesUnder, hkey]
        rw [hvalues, List.getLast?_cons, hkey, Entries.get?_put_self]
        cases (valuesUnder data name).getLast? <;> rfl
      · have hvalues : valuesUnder ((key, value) :: data) name = valuesUnder data name := by
          simp [valuesUnder, hkey]
        rw [hvalues, Entries.get?_put_of_ne _ hkey]

theorem get?_usualKeys (data : Entries) (name : String) :
    (usualKeys data).get? name = (valuesUnder data name).getLast? :=
  (get?_foldl_usualKey data [] name).trans Option.or_none

theorem getLast?_sectionKeys (data : Entries) (s : Section) :
    (sectionKeys data s).getLast? = ((usualKeys data).get? s.key).map Value.keys := by
  rw [get?_usualKeys, sectionKeys, List.getLast?_map]

theorem sectionKeys_map {α : Type} (key : α → Scalar) (value : α → Value) (as : List α)
    (s : Section) :
    sectionKeys (as.map fun a => (key a, value a)) s =
      (as.filter fun a => usualKey (key a) = .str s.key).map fun a => (value a).keys := by
  simp [sectionKeys, valuesUnder, List.filter_map, Function.comp_def]

theorem usualKey_version_ne (s : Section) : usualKey (.str "version") ≠ .str s.key := by
  cases s <;> decide

/-- Restoring the version changes no keys under a section. -/
theorem exists_of_entries?_putText {root : Value} {text : String} {restored : Entries}
    (h : (root.putText "version" text).entries? = some restored) :
    ∃ data, root.entries? = some data ∧ ∀ s, sectionKeys restored s = sectionKeys data s := by
  cases root with
  | node g place =>
      obtain ⟨written, hwritten, rfl⟩ := Value.entries?_node_eq_some_iff.1 h
      obtain ⟨entries, hentries, rfl⟩ := Graph.of_getElem?_putText hwritten
      refine ⟨_, Value.entries?_node_eq_some_iff.2 ⟨entries, hentries, rfl⟩, fun s => ?_⟩
      rw [List.map_map]
      refine (sectionKeys_map _ _ entries s).trans (Eq.trans ?_ (sectionKeys_map _ _ entries s).symm)
      -- The version itself is no section, and other values keep their keys.
      refine List.map_congr_left fun entry hentry => ?_
      have hkey : usualKey entry.1 = .str s.key := by simpa using (List.mem_filter.1 hentry).2
      have hversion : entry.1 ≠ .str "version" := fun heq =>
        usualKey_version_ne s (heq ▸ hkey)
      simp only [if_neg hversion]
      exact Value.keys_ofPart_putText g place "version" text entry.2
  | _ => exact ⟨restored, h, fun s => rfl⟩

theorem exists_of_entries?_restoreVersion {g : Yaml.NodeGraph} {root : Value} {restored : Entries}
    (h : (restoreVersion g root).entries? = some restored) :
    ∃ data, root.entries? = some data ∧ ∀ s, sectionKeys restored s = sectionKeys data s := by
  unfold restoreVersion at h
  split at h
  · exact ⟨restored, h, fun s => rfl⟩
  · split at h
    · exact exists_of_entries?_putText h
    · exact ⟨restored, h, fun s => rfl⟩
  · exact ⟨restored, h, fun s => rfl⟩

/-- The entries that a text has under their usual keys come from the value that it denotes. -/
theorem exists_of_entriesOf {text : String} {usual : Entries}
    (h : entriesOf text = .ok (some usual)) :
    ∃ root data, Yaml.load text = .ok root ∧ root.entries? = some data ∧
      ∀ s, (sectionKeys data s).getLast? = (usual.get? s.key).map Value.keys := by
  unfold entriesOf at h
  unfold Yaml.load
  cases hgraph : Yaml.compose text with
  | error fault => simp [hgraph, bind, Except.bind] at h
  | ok graph =>
      cases graph with
      | none => simp [hgraph, bind, Except.bind, pure, Except.pure] at h
      | some g =>
          cases hvalue : g.value with
          | error fault => simp [hgraph, hvalue, bind, Except.bind] at h
          | ok root =>
              simp only [hgraph, hvalue, bind, Except.bind, pure, Except.pure, Except.ok.injEq,
                Option.map_eq_some_iff] at h
              obtain ⟨restored, hrestored, rfl⟩ := h
              obtain ⟨data, hdata, hkeys⟩ := exists_of_entries?_restoreVersion hrestored
              refine ⟨root, data, hvalue, hdata, fun s => ?_⟩
              rw [← hkeys, getLast?_sectionKeys]

end Document

/-! ### Sections of a model -/

/-- The names of a section's definitions, in the order in which they came. -/
def Model.definedNames (m : Model) : Section → List String
  | .aggregates => m.aggregates.names
  | .valueObjects => m.valueObjects.names
  | .events => m.events.names
  | .commands => m.commands.names
  | .queries => m.queries.names

theorem Model.nodup_definedNames (m : Model) (s : Section) : (m.definedNames s).Nodup := by
  cases s with
  | aggregates => exact m.aggregates.distinct
  | valueObjects => exact m.valueObjects.distinct
  | events => exact m.events.distinct
  | commands => exact m.commands.distinct
  | queries => exact m.queries.distinct

/-- Definitions that are decoded one by one under their texts keep these texts. -/
theorem names_of_each {α : Type} {f : Scalar × Value → Checked (String × α)}
    (hf : ∀ name value a, f (.str name, value) = .good a → a.1 = name)
    {entries : List (String × Value)} {decoded : List (String × α)}
    (h : Checked.each f (keyed entries) = .good decoded) :
    decoded.map Prod.fst = entries.map Prod.fst := by
  induction entries generalizing decoded with
  | nil =>
      cases h
      rfl
  | cons entry entries ih =>
      obtain ⟨g, rest, hg, hrest, rfl⟩ := Checked.of_seq_eq_good h
      obtain ⟨a, ha, rfl⟩ := Checked.of_map_eq_good hg
      rw [List.map_cons, List.map_cons, hf entry.1 entry.2 a ha, ih hrest]

/-- A catalog that is decoded from definitions under texts has these texts as its names. -/
theorem mem_names_of_catalogOf {α : Type} {read : Value → Checked α} {value : Value}
    {c : Catalog α} (h : catalogOf read value = .good c) {entries : List (String × Value)}
    (hentries : value.entries? = some (keyed entries)) (name : String) :
    name ∈ c.names ↔ name ∈ entries.map Prod.fst := by
  rw [catalogOf, hentries] at h
  obtain ⟨decoded, hdecoded, rfl⟩ := Checked.of_map_eq_good h
  have hnames : decoded.map Prod.fst = entries.map Prod.fst := by
    refine names_of_each ?_ hdecoded
    intro name value a ha
    obtain ⟨g, definition, hg, -, rfl⟩ := Checked.of_seq_eq_good ha
    obtain ⟨key, hkey, rfl⟩ := Checked.of_map_eq_good hg
    have hread := Checked.of_within_eq_good (Checked.of_within_eq_good hkey)
    exact (Checked.good.inj hread).symm
  rw [Catalog.mem_names_ofList, hnames]

/-- Each section of a decoded model is decoded from the value under its key. -/
theorem Model.exists_of_decode {e : Entries} {m : Model} (h : Model.decode e = .good m)
    (s : Section) :
    ∃ (α : Type) (read : Value → Checked α) (c : Catalog α),
      e.fieldWith [s.key] .empty (catalogOf read) = .good c ∧ c.names = m.definedNames s := by
  -- The fields are peeled off from the last to the first.
  obtain ⟨_, _, height, -, rfl⟩ := Checked.of_seq_eq_good h
  obtain ⟨_, _, hseven, -, rfl⟩ := Checked.of_seq_eq_good height
  obtain ⟨_, _, hsix, hqueries, rfl⟩ := Checked.of_seq_eq_good hseven
  obtain ⟨_, _, hfive, hcommands, rfl⟩ := Checked.of_seq_eq_good hsix
  obtain ⟨_, _, hfour, hevents, rfl⟩ := Checked.of_seq_eq_good hfive
  obtain ⟨_, _, hthree, hvalues, rfl⟩ := Checked.of_seq_eq_good hfour
  obtain ⟨_, _, htwo, haggregates, rfl⟩ := Checked.of_seq_eq_good hthree
  obtain ⟨_, _, hone, -, rfl⟩ := Checked.of_seq_eq_good htwo
  obtain ⟨_, -, rfl⟩ := Checked.of_map_eq_good hone
  cases s with
  | aggregates => exact ⟨_, _, _, haggregates, rfl⟩
  | valueObjects => exact ⟨_, _, _, hvalues, rfl⟩
  | events => exact ⟨_, _, _, hevents, rfl⟩
  | commands => exact ⟨_, _, _, hcommands, rfl⟩
  | queries => exact ⟨_, _, _, hqueries, rfl⟩

/-- What decoding makes of a section whose definitions are under texts. -/
theorem mem_names_of_fieldWith {α : Type} {read : Value → Checked α} {e : Entries} {s : Section}
    {c : Catalog α} (h : e.fieldWith [s.key] .empty (catalogOf read) = .good c)
    {entries : List (String × Value)}
    (hentries : (sectionEntries? e s).getD [] = keyed entries) (name : String) :
    name ∈ c.names ↔ name ∈ entries.map Prod.fst := by
  unfold sectionEntries? at hentries
  cases hvalue : e.get? s.key with
  | none =>
      have hempty : entries = [] := by
        rw [hvalue] at hentries
        exact List.map_eq_nil_iff.1 hentries.symm
      have hc : .good .empty = Checked.good c := by
        simpa [Entries.fieldWith, Entries.fieldOr, Entries.first?, hvalue] using h
      rw [← Checked.good.inj hc, hempty]
      rfl
  | some value =>
      rw [Entries.fieldWith, Entries.fieldOr_eq hvalue] at h
      have hread : catalogOf read value = .good c := Checked.of_within_eq_good h
      refine mem_names_of_catalogOf hread ?_ name
      rw [hvalue, Option.bind_some] at hentries
      cases hmap : value.entries? with
      | none =>
          rw [catalogOf, hmap] at hread
          cases hread
      | some found =>
          rw [hmap] at hentries
          exact congrArg some hentries

/-- Named definitions are named by the texts of their keys. -/
theorem names_of_mapM_namedDefinition? {entries : Entries} {named : List (String × Value)}
    (h : entries.mapM namedDefinition? = some named) :
    (named.map Prod.fst).map some = (entries.map Prod.fst).map Scalar.text? := by
  have hname (entry : Scalar × Value) : (namedDefinition? entry).map Prod.fst = entry.1.text? := by
    cases htext : entry.1.text? <;> simp [namedDefinition?, htext]
  have hnamed := congrArg (List.map (Option.map Prod.fst)) (map_eq_of_mapM h)
  simpa [Function.comp_def, hname] using hnamed.symm

/-- The texts of a section's keys are the names of its definitions once it is prepared. -/
theorem exists_keyed_of_prepare? {data prepared : Entries} (h : prepare? data = some prepared)
    (s : Section) :
    ∃ entries, (sectionEntries? prepared s).getD [] = keyed entries ∧
      ∀ text, text ∈ (entries.map Prod.fst).map some ↔
        text ∈ (((data.get? s.key).map Value.keys).getD []).map Scalar.text? := by
  have hsection := sectionEntries?_prepare? h s
  have hkeys : ((data.get? s.key).map Value.keys).getD [] =
      ((sectionEntries? data s).getD []).map Prod.fst := by
    unfold sectionEntries?
    cases data.get? s.key <;> rfl
  rw [hkeys]
  cases hfound : sectionEntries? data s with
  | none =>
      have hprepared : sectionEntries? prepared s = none := by
        simpa [hfound, eq_comm] using hsection
      exact ⟨[], by rw [hprepared]; rfl, fun text => Iff.rfl⟩
  | some found =>
      rw [hfound, Option.mapM_some, nameDefinitions?_eq] at hsection
      obtain ⟨definitions, hdefinitions, heq⟩ := Option.map_eq_some_iff.1 hsection
      obtain ⟨named, hnamed, rfl⟩ := Option.map_eq_some_iff.1 hdefinitions
      refine ⟨(Catalog.ofList named).entries, by rw [← heq]; rfl, fun text => ?_⟩
      have hnames : text ∈ (Catalog.ofList named).names.map some ↔
          text ∈ (named.map Prod.fst).map some := by
        simp only [List.mem_map (f := some), Catalog.mem_names_ofList]
      rw [Option.getD_some, ← names_of_mapM_namedDefinition? hnamed]
      exact hnames

/-! ### Counting -/

/-- Distinct names that are all the texts of some keys are as many as the distinct texts. -/
theorem length_eq_length_dedup {names : List String} (hnodup : names.Nodup)
    {texts : List (Option String)} (h : ∀ text, text ∈ names.map some ↔ text ∈ texts) :
    names.length = texts.dedup.length := by
  have hperm : (names.map some).Perm texts.dedup := by
    refine (List.perm_ext_iff_of_nodup ?_ texts.nodup_dedup).2 fun text => ?_
    · exact hnodup.map fun a b heq => Option.some.inj heq
    · rw [List.mem_dedup, h]
  rw [← hperm.length_eq, List.length_map]

theorem length_dedup_eq_iff {α : Type} [DecidableEq α] (as : List α) :
    as.dedup.length = as.length ↔ as.Nodup := by
  rw [← List.dedup_eq_self]
  exact ⟨(List.dedup_sublist as).eq_of_length, congrArg List.length⟩

/-- The last of some lists has as many elements as all of them exactly if the others are empty. -/
theorem length_getLast?_eq_iff {α : Type} (lists : List (List α)) :
    (lists.getLast?.getD []).length ≤ lists.flatten.length ∧
      ((lists.getLast?.getD []).length = lists.flatten.length ↔
        ∀ list ∈ lists.dropLast, list = []) := by
  rcases List.eq_nil_or_concat' lists with rfl | ⟨front, last, rfl⟩
  · simp
  · have hfront : front.flatten.length = 0 ↔ ∀ list ∈ front, list = [] := by
      rw [List.length_eq_zero_iff, List.flatten_eq_nil_iff]
    have hsplit : (front ++ [last]).flatten.length = front.flatten.length + last.length := by
      rw [List.flatten_append, List.flatten_singleton, List.length_append]
    rw [hsplit, List.getLast?_concat, Option.getD_some, List.dropLast_concat, ← hfront]
    omega

theorem length_dedup_eq_total_iff_keepsSection (data : Entries) (s : Section) :
    (sectionTexts data s).dedup.length ≤ sectionTotal data s ∧
      ((sectionTexts data s).dedup.length = sectionTotal data s ↔ KeepsSection data s) := by
  have htexts : (sectionTexts data s).length = ((sectionKeys data s).getLast?.getD []).length :=
    List.length_map ..
  have hdistinct : (sectionTexts data s).dedup.length ≤ (sectionTexts data s).length :=
    (List.dedup_sublist _).length_le
  obtain ⟨hle, heq⟩ := length_getLast?_eq_iff (sectionKeys data s)
  rw [← htexts] at hle heq
  refine ⟨hdistinct.trans hle, ?_⟩
  rw [KeepsSection, ← heq, ← length_dedup_eq_iff]
  unfold sectionTotal
  omega

namespace Document

theorem of_modelOf_eq_ok {source : Option String} {data : Entries} {m : Model}
    (h : modelOf source data = .ok m) :
    ∃ prepared, prepare? data = some prepared ∧ Model.decode prepared = .good m := by
  unfold modelOf at h
  split at h
  · cases h
  next prepared hprepared =>
    split at h
    · cases h
    · split at h
      · cases h
      next model hdecode =>
        split at h
        · cases h
        · cases h
          exact ⟨prepared, hprepared, hdecode⟩

/-- The definitions of a section are as many as the distinct texts of its keys. -/
theorem length_definedNames_of_modelOf {source : Option String} {data : Entries} {m : Model}
    (h : modelOf source data = .ok m) (s : Section) :
    (m.definedNames s).length =
      ((((data.get? s.key).map Value.keys).getD []).map Scalar.text?).dedup.length := by
  obtain ⟨prepared, hprepared, hdecode⟩ := of_modelOf_eq_ok h
  obtain ⟨α, read, c, hfield, hnames⟩ := Model.exists_of_decode hdecode s
  obtain ⟨entries, hkeyed, htexts⟩ := exists_keyed_of_prepare? hprepared s
  refine length_eq_length_dedup (m.nodup_definedNames s) fun text => ?_
  rw [← htexts, ← hnames, List.mem_map, List.mem_map]
  simp only [mem_names_of_fieldWith hfield hkeyed]

/-- A model has as many definitions in a section as the keys of the last mapping for it have
distinct texts. This is never more than the document has, and it is all that the document has
exactly if the section keeps all its definitions. -/
theorem section_size_eq_total_iff_keeps {source : Option String} {text : String} {m : Model}
    (h : parse source text = .ok m) :
    ∃ root data, Yaml.load text = .ok root ∧ root.entries? = some data ∧ ∀ s,
      (m.definedNames s).length = (sectionTexts data s).dedup.length ∧
      (m.definedNames s).length ≤ sectionTotal data s ∧
      ((m.definedNames s).length = sectionTotal data s ↔ KeepsSection data s) := by
  rw [parse, load_eq] at h
  cases hentries : entriesOf text with
  | error fault =>
      rw [hentries] at h
      cases h
  | ok found =>
      rw [hentries] at h
      cases found with
      | none => cases h
      | some usual =>
          change modelOf source usual = .ok m at h
          obtain ⟨root, data, hload, hdata, hlast⟩ := exists_of_entriesOf hentries
          refine ⟨root, data, hload, hdata, fun s => ?_⟩
          have hsize : (m.definedNames s).length = (sectionTexts data s).dedup.length := by
            rw [sectionTexts, hlast, length_definedNames_of_modelOf h]
          obtain ⟨hle, hiff⟩ := length_dedup_eq_total_iff_keepsSection data s
          exact ⟨hsize, hsize ▸ hle, hsize ▸ hiff⟩

/-- The two sizes of a section, in the model and in the document, if the document is parsed. -/
def sizes? (text : String) (s : Section) : Option (Nat × Nat) :=
  match parse none text, Yaml.load text with
  | .ok m, .ok root =>
    root.entries?.map fun data => ((m.definedNames s).length, sectionTotal data s)
  | _, _ => none

theorem of_sizes?_eq_some {text : String} {s : Section} {size total : Nat}
    (h : sizes? text s = some (size, total)) :
    ∃ m root data, parse none text = .ok m ∧ Yaml.load text = .ok root ∧
      root.entries? = some data ∧ (m.definedNames s).length = size ∧
      sectionTotal data s = total := by
  unfold sizes? at h
  split at h
  next m root hparse hload =>
    obtain ⟨data, hdata, hsizes⟩ := Option.map_eq_some_iff.1 h
    cases hsizes
    exact ⟨m, root, data, hparse, hload, hdata, rfl, rfl⟩
  next => cases h

/-- A document with the given lines for its value objects. -/
def withValueObjects (lines : String) : String :=
  "version: \"1.0\"\nbounded_context: \x7bname: A, namespace: a\x7d\n" ++ lines

/-- A document with one key in both spellings, of which the first has nothing below it. -/
def emptySpelling : String :=
  withValueObjects "value_objects: \x7b\x7d\nvalue-objects: \x7b2: \x7b\x7d\x7d\n"

/-- A document with a definition under each of the two spellings of a key. -/
def bothSpellings : String :=
  withValueObjects
    "value_objects: \x7bA1: \x7b\x7d\x7d\nvalue-objects: \x7bB1: \x7b\x7d\x7d\n"

/-- A document with a definition under a number and one under the text of the number. -/
def numberAndText : String :=
  withValueObjects "value_objects: \x7b1: \x7b\x7d, \"1\": \x7b\x7d\x7d\n"

theorem emptySpelling_keeps_all :
    ∃ m, parse none emptySpelling = .ok m ∧ (m.definedNames .valueObjects).length = 1 ∧
      ∃ root data, Yaml.load emptySpelling = .ok root ∧ root.entries? = some data ∧ ∀ s,
        (m.definedNames s).length = (sectionTexts data s).dedup.length ∧
        (m.definedNames s).length ≤ sectionTotal data s ∧
        ((m.definedNames s).length = sectionTotal data s ↔ KeepsSection data s) := by
  have hsizes : sizes? emptySpelling .valueObjects = some (1, 1) := by decide +kernel
  obtain ⟨m, -, -, hparse, -, -, hsize, -⟩ := of_sizes?_eq_some hsizes
  exact ⟨m, hparse, hsize, section_size_eq_total_iff_keeps hparse⟩

/-- Both spellings of a key, and two keys with one text, each lose a definition. -/
theorem spellings_and_texts_lose_definitions :
    (∃ m root data, parse none bothSpellings = .ok m ∧ Yaml.load bothSpellings = .ok root ∧
      root.entries? = some data ∧ (m.definedNames .valueObjects).length = 1 ∧
      sectionTotal data .valueObjects = 2) ∧
    ∃ m root data, parse none numberAndText = .ok m ∧ Yaml.load numberAndText = .ok root ∧
      root.entries? = some data ∧ (m.definedNames .valueObjects).length = 1 ∧
      sectionTotal data .valueObjects = 2 :=
  ⟨of_sizes?_eq_some (by decide +kernel), of_sizes?_eq_some (by decide +kernel)⟩

end Document

end Groundplan
