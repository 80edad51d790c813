import Groundplan.Proofs.Stripping
import Groundplan.Settings.Load

/-!
# Overriding settings

Settings are overridden by writing their entries, replacing some, and decoding the whole again. So
the values that decoding has normalised once are normalised a second time, and this must neither
change nor refuse them. It does not change them. It refuses one: the path `/` is kept as the empty
path, which does not start with a slash. Settings with the empty path can be overridden only
together with a new path; all others stay as they are where nothing overrides them.
-/

namespace Groundplan

/-! ### Checked values -/

namespace Checked

variable {α β : Type}

theorem of_map_eq_good {f : α → β} {c : Checked α} {b : β} (h : f <$> c = .good b) :
    ∃ a, c = .good a ∧ f a = b := by
  cases c with
  | good a => exact ⟨a, rfl, Checked.good.inj h⟩
  | bad faults => cases h

theorem of_seq_eq_good {f : Checked (α → β)} {c : Checked α} {b : β} (h : f <*> c = .good b) :
    ∃ g a, f = .good g ∧ c = .good a ∧ g a = b := by
  cases f with
  | good g =>
      cases c with
      | good a => exact ⟨g, a, rfl, rfl, Checked.good.inj h⟩
      | bad faults => cases h
  | bad faults => cases c <;> cases h

theorem of_within_eq_good {part : String} {c : Checked α} {a : α} (h : c.within part = .good a) :
    c = .good a := by
  cases c with
  | good a' => exact h
  | bad faults => cases h

theorem of_narrow_eq_good {given : Value} {f : α → Except Cause β} {c : Checked α} {b : β}
    (h : c.narrow given f = .good b) : ∃ a, c = .good a ∧ f a = .ok b := by
  cases c with
  | bad faults => cases h
  | good a =>
      refine ⟨a, rfl, ?_⟩
      change ofExcept given (f a) = .good b at h
      cases hf : f a with
      | ok b' =>
          rw [hf] at h
          exact congrArg Except.ok (Checked.good.inj h)
      | error cause =>
          rw [hf] at h
          cases h

theorem narrow_good (given : Value) (f : α → Except Cause β) (a : α) :
    (Checked.good a).narrow given f = ofExcept given (f a) := rfl

end Checked

theorem Lenient.string_str (text : String) : Lenient.string (.str text) = .good text := rfl

theorem Lenient.integer_int (n : Int) : Lenient.integer (.scalar (.int n)) = .good n := rfl

/-! ### Entries -/

namespace Entries

theorem sameKey_str_left (name : String) (key : Scalar) :
    (Scalar.str name).sameKey key = decide (key = .str name) := by
  cases key <;> simp [Scalar.sameKey, Scalar.whole?, eq_comm]

theorem sameKey_str_right (key : Scalar) (name : String) :
    key.sameKey (.str name) = decide (key = .str name) := by
  cases key <;> simp [Scalar.sameKey, Scalar.whole?]

theorem get?_put_self (e : Entries) (name : String) (value : Value) :
    (e.put (.str name) value).get? name = some value := by
  induction e with
  | nil => simp [put, get?]
  | cons entry e ih =>
      obtain ⟨key, value'⟩ := entry
      by_cases hname : key = .str name
      · simp [put, get?, sameKey_str_right, hname]
      · unfold get? at ih ⊢
        rw [put, sameKey_str_right, if_neg (by simpa using hname),
          List.find?_cons_of_neg (by simpa using hname), ih]

/-- Setting another key leaves the value under a key as it is. -/
theorem get?_put_of_ne (e : Entries) {key : Scalar} {name : String} (h : key ≠ .str name)
    (value : Value) : (e.put key value).get? name = e.get? name := by
  induction e with
  | nil => simp [put, get?, h]
  | cons entry e ih =>
      obtain ⟨key', value'⟩ := entry
      -- The entry of the name itself is passed by, since its key is not the one that is set.
      by_cases hname : key' = .str name
      · subst hname
        have hsame : (Scalar.str name).sameKey key = false := by simpa [sameKey_str_left] using h
        simp [put, get?, hsame]
      · unfold get? at ih ⊢
        unfold put
        split
        · simp [hname]
        · rw [List.find?_cons_of_neg (by simpa using hname), ih,
            List.find?_cons_of_neg (by simpa using hname)]

theorem get?_foldl_put {overrides : Entries} {name : String}
    (h : ∀ entry ∈ overrides, entry.1 ≠ .str name) (e : Entries) :
    (overrides.foldl (fun data (key, value) => data.put key value) e).get? name = e.get? name := by
  induction overrides generalizing e with
  | nil => rfl
  | cons entry overrides ih =>
      rw [List.foldl_cons, ih (fun entry hmem => h entry (by simp [hmem])),
        get?_put_of_ne e (h entry (by simp))]

/-- A field is read from the value under its key. -/
theorem fieldOr_eq {α : Type} {e : Entries} {key : String} {value : Value}
    (h : e.get? key = some value) (absent : Checked α) (read : Value → Checked α) :
    e.fieldOr [key] absent read = (read value).within key := by
  simp [fieldOr, first?, h]

theorem of_fieldOr_eq_good {α : Type} {e : Entries} {keys : List String} {absent : Checked α}
    {read : Value → Checked α} {a : α} (h : e.fieldOr keys absent read = .good a) :
    absent = .good a ∨ ∃ value, read value = .good a := by
  unfold fieldOr at h
  split at h
  next key value _ => exact .inr ⟨value, Checked.of_within_eq_good h⟩
  next => exact .inl h

end Entries

/-! ### Normal forms -/

namespace Settings

theorem dropSlashes_dropSlashes (text : String) :
    dropSlashes (dropSlashes text) = dropSlashes text := by
  have hdrop (text : String) :
      dropSlashes text = String.ofList (text.toList.rdropWhile (· = '/')) := rfl
  rw [hdrop (dropSlashes text), hdrop text, String.toList_ofList, List.rdropWhile_idempotent]

/-- What is left of a path starts like the path, unless nothing is left. -/
theorem head?_dropSlashes {text : String} (h : text.toList.head? = some '/')
    (hne : dropSlashes text ≠ "") : (dropSlashes text).toList.head? = some '/' := by
  obtain ⟨after, hafter⟩ := List.rdropWhile_prefix (· = '/') text.toList
  have hchars : (dropSlashes text).toList = text.toList.rdropWhile (· = '/') := by
    rw [dropSlashes, String.toList_ofList]
    rfl
  obtain ⟨c, rest, hrest⟩ := List.exists_cons_of_ne_nil (mt String.toList_eq_nil_iff.1 hne)
  rw [← hafter, ← hchars, hrest] at h
  rw [hrest]
  exact h

/-- Settings whose values are as decoding leaves them. -/
structure Normal (s : Settings) : Prop where
  packageName : ∀ name, s.packageName = some name → checkPackageName name = .ok name
  servicePort : checkPort s.servicePort = .ok s.servicePort
  apiPath : s.apiPath ≠ "" → checkApiPath s.apiPath = .ok s.apiPath

theorem checkPackageName_self {text name : String} (h : checkPackageName text = .ok name) :
    checkPackageName name = .ok name := by
  simp only [checkPackageName] at h
  split at h
  next hidentifier =>
    obtain rfl := Except.ok.inj h
    simp only [checkPackageName, Text.strip_strip]
    rw [if_pos hidentifier]
  next => cases h

theorem checkPort_self {n port : Int} (h : checkPort n = .ok port) :
    checkPort port = .ok port := by
  have heq : n = port := by
    unfold checkPort at h
    split at h
    · cases h
    · split at h
      · cases h
      · exact Except.ok.inj h
  rwa [heq] at h

theorem checkApiPath_self {text path : String} (h : checkApiPath text = .ok path)
    (hne : path ≠ "") : checkApiPath path = .ok path := by
  unfold checkApiPath at h
  split at h
  next hslash =>
    obtain rfl := Except.ok.inj h
    rw [checkApiPath, if_pos (head?_dropSlashes hslash hne), dropSlashes_dropSlashes]
  next => cases h

/-! ### Decoding -/

/-- What each field of the settings is decoded from. -/
structure Decodes (e : Entries) (s : Settings) : Prop where
  version : e.fieldWith ["config_version"] usual.version Lenient.string = .good s.version
  packageName : e.field? ["package_name"]
    (fun v => (Lenient.string v).narrow v checkPackageName) = .good s.packageName
  servicePort : e.fieldWith ["service_port"] usual.servicePort
    (fun v => (Lenient.integer v).narrow v checkPort) = .good s.servicePort
  apiPath : e.fieldWith ["api_prefix"] usual.apiPath
    (fun v => (Lenient.string v).narrow v checkApiPath) = .good s.apiPath
  languageRange : e.fieldWith ["python_requires"] usual.languageRange Lenient.string =
    .good s.languageRange

theorem decodes_of_decode {e : Entries} {s : Settings} (h : decode e = .good s) :
    Decodes e s := by
  have hfields : decodeFields e = .good s := by
    unfold decode at h
    split at h
    · cases h
    · exact h
  -- The fields are peeled off from the last to the first.
  obtain ⟨_, _, hfive, -, rfl⟩ := Checked.of_seq_eq_good hfields
  obtain ⟨_, _, hfour, hlanguage, rfl⟩ := Checked.of_seq_eq_good hfive
  obtain ⟨_, _, hthree, hpath, rfl⟩ := Checked.of_seq_eq_good hfour
  obtain ⟨_, _, htwo, hport, rfl⟩ := Checked.of_seq_eq_good hthree
  obtain ⟨_, _, hone, hpackage, rfl⟩ := Checked.of_seq_eq_good htwo
  obtain ⟨_, hversion, rfl⟩ := Checked.of_map_eq_good hone
  exact ⟨hversion, hpackage, hport, hpath, hlanguage⟩

/-- Decoded settings are in normal form. -/
theorem normal_of_decode {e : Entries} {s : Settings} (h : decode e = .good s) : s.Normal := by
  obtain ⟨-, hpackage, hport, hpath, -⟩ := decodes_of_decode h
  -- A value is either the default or the output of its check, and checks fix their outputs.
  refine ⟨?_, ?_, ?_⟩
  · intro name hname
    rw [hname] at hpackage
    rcases Entries.of_fieldOr_eq_good hpackage with habsent | ⟨value, hvalue⟩
    · cases habsent
    · split at hvalue
      · cases hvalue
      · obtain ⟨name', hread, heq⟩ := Checked.of_map_eq_good hvalue
        obtain rfl := Option.some.inj heq
        obtain ⟨text, -, hcheck⟩ := Checked.of_narrow_eq_good hread
        exact checkPackageName_self hcheck
  · rcases Entries.of_fieldOr_eq_good hport with habsent | ⟨value, hvalue⟩
    · rw [← Checked.good.inj habsent]
      decide
    · obtain ⟨n, -, hcheck⟩ := Checked.of_narrow_eq_good hvalue
      exact checkPort_self hcheck
  · intro hne
    rcases Entries.of_fieldOr_eq_good hpath with habsent | ⟨value, hvalue⟩
    · rw [← Checked.good.inj habsent]
      decide
    · obtain ⟨text, -, hcheck⟩ := Checked.of_narrow_eq_good hvalue
      exact checkApiPath_self hcheck hne

/-- Settings that are made from entries or loaded from a file. -/
def Accepted (s : Settings) : Prop :=
  (∃ e, make e = .ok s) ∨ ∃ disk env path, load disk env path = .ok s

theorem decode_of_ofChecked {failure : List DecodeFault → SettingsFailure} {c : Checked Settings}
    {s : Settings} (h : ofChecked failure c = .ok s) : c = .good s := by
  cases c with
  | good s' => exact congrArg Checked.good (Except.ok.inj h)
  | bad faults => cases h

theorem Accepted.decoded {s : Settings} (h : s.Accepted) : ∃ e, decode e = .good s := by
  rcases h with ⟨e, hmake⟩ | ⟨disk, env, path, hload⟩
  · exact ⟨e, decode_of_ofChecked hmake⟩
  · unfold load at hload
    cases hentries : loadEntries disk env path with
    | error failure =>
        rw [hentries] at hload
        cases hload
    | ok e =>
        rw [hentries] at hload
        change ofFile path e = .ok s at hload
        unfold ofFile at hload
        split at hload
        · cases hload
        · split at hload
          · cases hload
          · split at hload
            · cases hload
            · exact ⟨_, decode_of_ofChecked hload⟩

/-! ### Decoding what was written -/

theorem get?_version (s : Settings) : s.entries.get? "config_version" = some (.str s.version) := by
  simp [entries, Entries.get?]

theorem get?_packageName (s : Settings) :
    s.entries.get? "package_name" = some ((s.packageName.map Value.str).getD .null) := by
  simp [entries, Entries.get?]

theorem get?_servicePort (s : Settings) :
    s.entries.get? "service_port" = some (.scalar (.int s.servicePort)) := by
  simp [entries, Entries.get?]

theorem get?_apiPath (s : Settings) : s.entries.get? "api_prefix" = some (.str s.apiPath) := by
  simp [entries, Entries.get?]

theorem get?_languageRange (s : Settings) :
    s.entries.get? "python_requires" = some (.str s.languageRange) := by
  simp [entries, Entries.get?]

/-- The fault in settings with the empty path. -/
def emptyPathFault : DecodeFault :=
  ⟨["api_prefix"], .refused "api_prefix must start with '/': ''", .str ""⟩

/-- Settings in normal form are decoded from their own entries as they are, but for the empty
path, which is refused. -/
theorem decode_entries {s : Settings} (h : s.Normal) :
    decode s.entries = if s.apiPath = "" then .bad [emptyPathFault] else .good s := by
  have hreadable : unreadableKey? s.entries = none := by
    simp [unreadableKey?, entries, Value.str?]
    decide
  have hkeys : checkKeys s.entries = .good () := by
    simp [checkKeys, entries, keys, Checked.each]
    rfl
  have hversion : s.entries.fieldWith ["config_version"] usual.version Lenient.string =
      .good s.version := by
    rw [Entries.fieldWith, Entries.fieldOr_eq s.get?_version, Lenient.string_str]
    rfl
  have hpackage : s.entries.field? ["package_name"]
      (fun v => (Lenient.string v).narrow v checkPackageName) = .good s.packageName := by
    rw [Entries.field?, Entries.fieldOr_eq s.get?_packageName]
    cases hname : s.packageName with
    | none => rfl
    | some name =>
        change Checked.within _ (some <$> (Lenient.string (.str name)).narrow _ _) = _
        rw [Lenient.string_str, Checked.narrow_good, h.packageName name hname]
        rfl
  have hport : s.entries.fieldWith ["service_port"] usual.servicePort
      (fun v => (Lenient.integer v).narrow v checkPort) = .good s.servicePort := by
    rw [Entries.fieldWith, Entries.fieldOr_eq s.get?_servicePort, Lenient.integer_int,
      Checked.narrow_good, h.servicePort]
    rfl
  have hpath : s.entries.fieldWith ["api_prefix"] usual.apiPath
      (fun v => (Lenient.string v).narrow v checkApiPath) =
        if s.apiPath = "" then .bad [emptyPathFault] else .good s.apiPath := by
    rw [Entries.fieldWith, Entries.fieldOr_eq s.get?_apiPath, Lenient.string_str,
      Checked.narrow_good]
    split
    next hempty =>
      have hcheck : checkApiPath "" = .error (.refused "api_prefix must start with '/': ''") := by
        decide
      rw [hempty, hcheck]
      rfl
    next hne =>
      rw [h.apiPath hne]
      rfl
  have hlanguage : s.entries.fieldWith ["python_requires"] usual.languageRange Lenient.string =
      .good s.languageRange := by
    rw [Entries.fieldWith, Entries.fieldOr_eq s.get?_languageRange, Lenient.string_str]
    rfl
  have hdecode : decode s.entries = decodeFields s.entries := by
    unfold decode
    rw [hreadable]
  rw [hdecode, decodeFields, hversion, hpackage, hport, hpath, hlanguage, hkeys]
  split
  · rfl
  · rfl

/-! ### Overriding -/

/-- Whether a key is given a value that counts. -/
def Overrides (overrides : Entries) (key : String) : Prop :=
  ∃ entry ∈ overrides, entry.1 = .str key ∧ entry.2.isNull = false

instance (overrides : Entries) (key : String) : Decidable (Overrides overrides key) :=
  inferInstanceAs (Decidable (∃ entry ∈ overrides, _))

/-- The entries that are decoded when settings are overridden. -/
def overriddenEntries (s : Settings) (overrides : Entries) : Entries :=
  (overrides.filter fun entry => !entry.2.isNull).foldl
    (fun data (key, value) => data.put key value) s.entries

theorem overriddenEntries_of_null (s : Settings) {overrides : Entries}
    (h : ∀ entry ∈ overrides, entry.2.isNull = true) :
    s.overriddenEntries overrides = s.entries := by
  have hnone : overrides.filter (fun entry => !entry.2.isNull) = [] := by
    rw [List.filter_eq_nil_iff]
    intro entry hmem
    simp [h entry hmem]
  rw [overriddenEntries, hnone]
  rfl

theorem get?_overriddenEntries (s : Settings) {overrides : Entries} {key : String}
    (h : ¬ Overrides overrides key) :
    (s.overriddenEntries overrides).get? key = s.entries.get? key := by
  refine Entries.get?_foldl_put ?_ s.entries
  intro entry hmem heq
  obtain ⟨hentry, hvalue⟩ := List.mem_filter.1 hmem
  exact h ⟨entry, hentry, heq, by simpa using hvalue⟩

/-- Overriding with nulls only gives the settings back, or refuses their empty path. -/
theorem merge_of_null {s : Settings} (hnormal : s.Normal) {overrides : Entries}
    (hnull : ∀ entry ∈ overrides, entry.2.isNull = true) :
    s.merge overrides =
      if overrides.has ownName then .error .ownName
      else if s.apiPath = "" then .error (.invalid [emptyPathFault])
      else .ok s := by
  have hdecode : s.override overrides = decode s.entries :=
    congrArg decode (s.overriddenEntries_of_null hnull)
  rw [merge, hdecode, decode_entries hnormal, apply_ite (ofChecked .invalid)]
  rfl

theorem decodes_of_merge {s t : Settings} {overrides : Entries} (h : s.merge overrides = .ok t) :
    Decodes (s.overriddenEntries overrides) t := by
  unfold merge at h
  split at h
  · cases h
  · exact decodes_of_decode (decode_of_ofChecked h)

/-- A field that is not overridden is decoded from the value that was written for it. -/
theorem read_of_not_overridden {α : Type} {s : Settings} {overrides : Entries} {key : String}
    (h : ¬ Overrides overrides key) {value : Value} (hvalue : s.entries.get? key = some value)
    {absent : Checked α} {read : Value → Checked α} {a : α}
    (hfield : (s.overriddenEntries overrides).fieldOr [key] absent read = .good a) :
    read value = .good a := by
  have hget : (s.overriddenEntries overrides).get? key = some value := by
    rw [s.get?_overriddenEntries h, hvalue]
  rw [Entries.fieldOr_eq hget] at hfield
  exact Checked.of_within_eq_good hfield

theorem checkApiPath_of_merge {s t : Settings} {overrides : Entries}
    (h : s.merge overrides = .ok t) (hnot : ¬ Overrides overrides "api_prefix") :
    checkApiPath s.apiPath = .ok t.apiPath := by
  have hread := read_of_not_overridden hnot s.get?_apiPath (decodes_of_merge h).apiPath
  obtain ⟨text, htext, hcheck⟩ := Checked.of_narrow_eq_good hread
  obtain rfl := Checked.good.inj htext
  exact hcheck

/-- Settings with the empty path are overridden only together with their path. -/
theorem ne_empty_of_merge {s t : Settings} {overrides : Entries} (h : s.merge overrides = .ok t)
    (hnot : ¬ Overrides overrides "api_prefix") : s.apiPath ≠ "" := by
  intro hempty
  have hcheck := checkApiPath_of_merge h hnot
  rw [hempty] at hcheck
  cases hcheck

/-- Where overriding succeeds, it keeps the value under every key that is not overridden. -/
theorem get?_entries_of_merge {s t : Settings} (hnormal : s.Normal) {overrides : Entries}
    (h : s.merge overrides = .ok t) {key : String} (hkey : key ∈ keys)
    (hnot : ¬ Overrides overrides key) : t.entries.get? key = s.entries.get? key := by
  have hdecodes := decodes_of_merge h
  simp only [keys, List.mem_cons, List.not_mem_nil, or_false] at hkey
  -- Each field is read from its own written value, which its check gives back.
  rcases hkey with rfl | rfl | rfl | rfl | rfl
  · have hread := read_of_not_overridden hnot s.get?_version hdecodes.version
    rw [t.get?_version, s.get?_version, Checked.good.inj hread]
  · have hread := read_of_not_overridden hnot s.get?_packageName hdecodes.packageName
    rw [t.get?_packageName, s.get?_packageName]
    cases hname : s.packageName with
    | none =>
        rw [hname] at hread
        rw [← Checked.good.inj hread]
    | some name =>
        rw [hname] at hread
        obtain ⟨name', hnarrow, hsome⟩ := Checked.of_map_eq_good hread
        obtain ⟨text, htext, hcheck⟩ := Checked.of_narrow_eq_good hnarrow
        obtain rfl := Checked.good.inj htext
        rw [hnormal.packageName _ hname] at hcheck
        rw [← hsome, Except.ok.inj hcheck]
  · have hread := read_of_not_overridden hnot s.get?_servicePort hdecodes.servicePort
    obtain ⟨n, hn, hcheck⟩ := Checked.of_narrow_eq_good hread
    obtain rfl := Checked.good.inj hn
    rw [hnormal.servicePort] at hcheck
    rw [t.get?_servicePort, s.get?_servicePort, Except.ok.inj hcheck]
  · have hcheck := checkApiPath_of_merge h hnot
    rw [hnormal.apiPath (ne_empty_of_merge h hnot)] at hcheck
    rw [t.get?_apiPath, s.get?_apiPath, Except.ok.inj hcheck]
  · have hread := read_of_not_overridden hnot s.get?_languageRange hdecodes.languageRange
    rw [t.get?_languageRange, s.get?_languageRange, Checked.good.inj hread]

/-- Overriding accepted settings with nothing but nulls gives them back, unless their path is empty,
which is then refused. Overriding them with anything else keeps what is not overridden where it
succeeds, and it succeeds on the empty path only if that is replaced. -/
theorem merge_of_accepted {s : Settings} (h : s.Accepted) :
    (∀ overrides : Entries, (∀ entry ∈ overrides, entry.2.isNull = true) →
      s.merge overrides =
        if overrides.has ownName then .error .ownName
        else if s.apiPath = "" then .error (.invalid [emptyPathFault])
        else .ok s) ∧
    ∀ (overrides : Entries) (t : Settings), s.merge overrides = .ok t →
      (∀ key ∈ keys, ¬ Overrides overrides key → t.entries.get? key = s.entries.get? key) ∧
        (s.apiPath = "" → Overrides overrides "api_prefix") := by
  obtain ⟨e, hdecode⟩ := h.decoded
  have hnormal := normal_of_decode hdecode
  refine ⟨fun overrides hnull => merge_of_null hnormal hnull, ?_⟩
  intro overrides t hmerge
  refine ⟨fun key hkey hnot => get?_entries_of_merge hnormal hmerge hkey hnot, ?_⟩
  intro hempty
  by_contra hnot
  exact ne_empty_of_merge hmerge hnot hempty

/-- Settings that differ from the default ones in their package, port and path. -/
def depot : Settings := ⟨"1", some "depot", 8080, "/v1", ">=3.9"⟩

theorem depot_merge :
    depot.Accepted ∧ depot.merge [(.str "api_prefix", .null)] = .ok depot ∧
      ∃ t, depot.merge [(.str "service_port", .scalar (.int 80)), (.str "api_prefix", .null)] =
          .ok t ∧ t.servicePort = 80 ∧
        ∀ key ∈ keys, key ≠ "service_port" → t.entries.get? key = depot.entries.get? key := by
  have haccepted : depot.Accepted := .inl ⟨[(.str "package_name", .str " depot "),
    (.str "service_port", .scalar (.int 8080)), (.str "api_prefix", .str "/v1//")], rfl⟩
  obtain ⟨hnull, hkeep⟩ := merge_of_accepted haccepted
  have hmerge : depot.merge [(.str "service_port", .scalar (.int 80)), (.str "api_prefix", .null)] =
      .ok { depot with servicePort := 80 } := rfl
  have hother : ∀ key ∈ keys, key ≠ "service_port" →
      ¬ Overrides [(.str "service_port", .scalar (.int 80)), (.str "api_prefix", .null)] key := by
    decide
  refine ⟨haccepted, hnull _ (by decide), _, hmerge, rfl, ?_⟩
  intro key hkey hne
  exact (hkeep _ _ hmerge).1 key hkey (hother key hkey hne)

/-- The root path is accepted and kept as the empty path, so an override of nothing refuses it. -/
theorem root_path_refused :
    make [(.str "api_prefix", .str "/")] = .ok { usual with apiPath := "" } ∧
      { usual with apiPath := "" }.merge [] = .error (.invalid [emptyPathFault]) :=
  ⟨rfl, rfl⟩

end Settings

end Groundplan
