import Groundplan.Proofs.DecimalNumerals
import Groundplan.Proofs.PairLine
import Groundplan.Proofs.SettingsOverride

/-!
# The order of versions

Versions are compared as texts. Where they are whole numbers, this compares them as numbers, since
the version that is understood is `1`: a file is refused exactly if its number is less than one, and
is read with a warning exactly if its number is greater. It does not matter whether the file gives
the number itself or its numeral between quotes, but for one thing. A number of more than 4300
digits is not written, and in base ten it is not even read. So the file that gives it without quotes
is refused for its size, and no version is compared.
-/

namespace Groundplan

/-! ### Texts in files -/

namespace Text

/-- A text without dollar signs refers to no variables. -/
theorem expand_of_not_mem {text : String} (h : '$' ∉ text.toList)
    (value? : String → Option String) : expand value? text = text := by
  have hchars {cs : List Char} (h : '$' ∉ cs) (keep : Bool) : expandFrom value? 0 keep cs = cs := by
    induction cs generalizing keep with
    | nil => rw [expandFrom]
    | cons c cs ih =>
        rw [List.mem_cons, not_or] at h
        rw [expandFrom, ih h.2]
        exact fun heq => h.1 heq.symm
  rw [expand, hchars h, String.ofList_toList]

/-- The bytes of a text in ASCII. -/
def asciiBytes (text : String) : List UInt8 :=
  text.toList.map fun c => c.toNat.toUInt8

theorem decodeUtf8_asciiBytes {text : String} (h : ∀ c ∈ text.toList, c.toNat < 128) :
    decodeUtf8 (asciiBytes text) = .ok text.toList := by
  have hchars {cs : List Char} (h : ∀ c ∈ cs, c.toNat < 128) (position : Nat) :
      decodeFrom cs.length position (cs.map fun c => c.toNat.toUInt8) = .ok cs := by
    induction cs generalizing position with
    | nil => rfl
    | cons c cs ih =>
        have hc : c.toNat < 128 := h c (by simp)
        have hbyte : c.toNat.toUInt8.toNat = c.toNat := by
          rw [Nat.toUInt8_eq, UInt8.toNat_ofNat', Nat.mod_eq_of_lt (by omega)]
        have hplan : utf8Plan? c.toNat.toUInt8 = some (0, 0x80, 0xbf) := by
          rw [utf8Plan?, if_pos]
          rw [UInt8.lt_iff_toNat_lt, hbyte]
          exact hc
        have hchar : utf8Char c.toNat.toUInt8 [] = c := by
          simp [utf8Char, hbyte]
        rw [List.map_cons, List.length_cons, decodeFrom, hplan]
        simp only [continued, if_true, List.drop_zero, List.take_zero, hchar]
        rw [ih fun d hd => h d (by simp [hd])]
        rfl
  rw [decodeUtf8, asciiBytes, List.length_map, hchars h]

theorem normalizeBreaks_of_not_mem {cs : List Char} (h : '\r' ∉ cs) : normalizeBreaks cs = cs := by
  induction cs with
  | nil => rfl
  | cons c cs ih =>
      rw [List.mem_cons, not_or] at h
      have hc : c ≠ '\r' := fun heq => h.1 heq.symm
      rw [normalizeBreaks, if_neg hc, ih h.2]
      exact fun _ heq => absurd heq hc

end Text

/-- A file in ASCII without carriage returns is read as it is. -/
theorem Disk.readText_asciiBytes {disk : Disk} {p : Path} {text : String}
    (hread : disk.read p = .ok (Text.asciiBytes text)) (hascii : ∀ c ∈ text.toList, c.toNat < 128)
    (hreturn : '\r' ∉ text.toList) : disk.readText p = .ok text := by
  have hcarry : Text.carry text.toList = text.toList := by
    refine Text.carry_of_unreserved fun c hc => ?_
    have := hascii c hc
    simp [Text.isReserved]
    omega
  rw [Disk.readText, hread]
  change (do
    let cs ← (Text.decodeUtf8 (Text.asciiBytes text)).mapError _
    return String.ofList (Text.carry (Text.normalizeBreaks cs))) = _
  rw [Text.decodeUtf8_asciiBytes hascii]
  change Except.ok (String.ofList (Text.carry (Text.normalizeBreaks text.toList))) = _
  rw [Text.normalizeBreaks_of_not_mem hreturn, hcarry, String.ofList_toList]

/-! ### Setting a key -/

namespace Entries

/-- The keys do not depend on the value that is set. -/
theorem map_fst_put (e : Entries) (key : Scalar) (value value' : Value) :
    (e.put key value).map Prod.fst = (e.put key value').map Prod.fst := by
  induction e with
  | nil => rfl
  | cons entry e ih =>
      obtain ⟨key', given⟩ := entry
      simp only [put]
      split
      · rfl
      · rw [List.map_cons, List.map_cons, ih]

/-- The other entries stay as they are. -/
theorem filter_put (e : Entries) (name : String) (value : Value) {p : Scalar × Value → Bool}
    (h : ∀ given, p (.str name, given) = false) :
    (e.put (.str name) value).filter p = e.filter p := by
  induction e with
  | nil => simp [put, h]
  | cons entry e ih =>
      obtain ⟨key, given⟩ := entry
      rw [put, sameKey_str_right]
      split
      next hname =>
        obtain rfl : key = .str name := by simpa using hname
        rw [List.filter_cons_of_neg (by simp [h]), List.filter_cons_of_neg (by simp [h])]
      next => rw [List.filter_cons, List.filter_cons, ih]

theorem fieldOr_put_of_ne {α : Type} (e : Entries) {name key : String} (h : key ≠ name)
    (value : Value) (absent : Checked α) (read : Value → Checked α) :
    (e.put (.str name) value).fieldOr [key] absent read = e.fieldOr [key] absent read := by
  have hne : Scalar.str name ≠ .str key := fun heq => h (Scalar.str.inj heq).symm
  have hget := e.get?_put_of_ne hne value
  simp only [fieldOr, first?, List.findSome?_cons, List.findSome?_nil, hget]

end Entries

namespace Settings

/-! ### Decoding with another version -/

/-- The entries of a file with a version set in them. -/
def withVersion (e : Entries) (version : String) : Entries :=
  e.put (.str "config_version") (.str version)

theorem unreadableKey?_withVersion (e : Entries) (version version' : String) :
    unreadableKey? (withVersion e version) = unreadableKey? (withVersion e version') := by
  have hkeys (e : Entries) : unreadableKey? e =
      ((e.map Prod.fst).filterMap fun key => (Value.scalar key).str?).find? Text.hasSurrogate := by
    rw [unreadableKey?, List.filterMap_map]
    rfl
  rw [hkeys, hkeys, withVersion, Entries.map_fst_put]
  rfl

theorem checkKeys_withVersion (e : Entries) (version : String) :
    checkKeys (withVersion e version) = checkKeys e := by
  rw [checkKeys, withVersion, Entries.filter_put _ _ _ (by simp [keys])]
  rfl

/-- Settings are decoded if their fields are and nothing else is there. -/
theorem decode_of_decodes {e : Entries} {s : Settings} (hreadable : unreadableKey? e = none)
    (hkeys : checkKeys e = .good ()) (h : Decodes e s) : decode e = .good s := by
  have hdecode : decode e = decodeFields e := by
    unfold decode
    rw [hreadable]
  rw [hdecode, decodeFields, h.version, h.packageName, h.servicePort, h.apiPath, h.languageRange,
    hkeys]
  rfl

/-- The version is decoded by itself: the other fields do not depend on it. -/
theorem decode_withVersion {e : Entries} {version : String} {s : Settings}
    (h : decode (withVersion e version) = .good s) (version' : String) :
    decode (withVersion e version') = .good { s with version := version' } := by
  have hreadable : unreadableKey? (withVersion e version) = none := by
    unfold decode at h
    split at h
    · cases h
    · assumption
  have hkeys : checkKeys (withVersion e version) = .good () := by
    rw [decode, hreadable] at h
    obtain ⟨_, _, -, hkeys, -⟩ := Checked.of_seq_eq_good h
    exact hkeys
  have hother {α : Type} {key : String} (hne : key ≠ "config_version") (absent : Checked α)
      (read : Value → Checked α) : (withVersion e version').fieldOr [key] absent read =
        (withVersion e version).fieldOr [key] absent read := by
    rw [withVersion, withVersion, e.fieldOr_put_of_ne hne, e.fieldOr_put_of_ne hne]
  -- Every field but the version is looked up past the entry that changes.
  obtain ⟨-, hpackage, hport, hpath, hlanguage⟩ := decodes_of_decode h
  refine decode_of_decodes ?_ ?_ ⟨?_, (hother (by decide) _ _).trans hpackage,
    (hother (by decide) _ _).trans hport, (hother (by decide) _ _).trans hpath,
    (hother (by decide) _ _).trans hlanguage⟩
  · rw [unreadableKey?_withVersion e version' version, hreadable]
  · rw [checkKeys_withVersion, ← checkKeys_withVersion e version, hkeys]
  · rw [withVersion, Entries.fieldWith, Entries.fieldOr_eq (e.get?_put_self _ _),
      Lenient.string_str]
    rfl

/-! ### Comparing -/

/-- Whether entries give a number as their version. -/
def GivesNumber (e : Entries) (n : Int) : Prop :=
  e.get? "config_version" = some (.scalar (.int n))

/-- Whether entries give the numeral of a number as their version. -/
def GivesNumeral (e : Entries) (n : Int) : Prop :=
  e.get? "config_version" = some (.str (Text.decimalInt n))

theorem GivesNumber.versionText {e : Entries} {n : Int} (h : GivesNumber e n) :
    versionText e = writable (Text.decimalInt? n) := by
  rw [Settings.versionText, h]
  rfl

theorem GivesNumeral.versionText {e : Entries} {n : Int} (h : GivesNumeral e n) :
    versionText e = .ok (Text.decimalInt n) := by
  rw [Settings.versionText, h]
  rfl

/-- The warning with which a file of a newer version is read. -/
def newerWarning (version : String) : String :=
  "UserWarning: This generator understands config_version " ++ currentVersion ++
    ", but file is " ++ version ++ ". Attempting best-effort parse."

theorem versionWarnings_decimalInt (n : Int) :
    versionWarnings (Text.decimalInt n) =
      if 1 < n then [newerWarning (Text.decimalInt n)] else [] := by
  have hnewer : currentVersion < Text.decimalInt n ↔ 1 < n := Text.one_lt_decimalInt_iff n
  unfold versionWarnings newerWarning
  simp only [hnewer]

theorem ofFile_of_versionText {e : Entries} {n : Int} {s : Settings}
    (h : versionText e = .ok (Text.decimalInt n))
    (hvalid : decode (withVersion e currentVersion) = .good s) (path : String) :
    ofFile path e =
      if n < 1 then .error (.oldVersion (Text.decimalInt n))
      else .ok { s with version := Text.decimalInt n } := by
  rw [ofFile, h]
  simp only [Text.isEmpty_decimalInt, Bool.false_eq_true, if_false, oldestVersion,
    Text.decimalInt_lt_one_iff]
  -- The settings are decoded with the numeral in place, so the valid ones have another version.
  exact congrArg (fun c => if n < 1 then _ else ofChecked (.invalidFile path) c)
    (decode_withVersion hvalid (Text.decimalInt n))

/-! ### Files of one line -/

/-- The line that gives a number as the version. -/
def numberLine (n : Int) : String :=
  Yaml.pairLine "config_version" (Text.decimalInt n)

/-- The line that gives the numeral of a number as the version, between quotes. -/
def numeralLine (n : Int) : String :=
  Yaml.pairLine "config_version" ("\"" ++ Text.decimalInt n ++ "\"")

theorem isKey_version : Yaml.IsKey "config_version" :=
  ⟨⟨List.all_eq_true.1 (by decide), by decide, by decide⟩, by decide, by decide⟩

theorem isWord_decimalInt (n : Int) : Yaml.IsWord (Text.decimalInt n).toList := by
  refine ⟨?_, ?_, ?_⟩
  · intro c hc
    rcases Text.of_mem_decimalInt hc with rfl | hdigit
    · decide
    · have halphanum : c.isAlphanum = true := by
        change (c.isAlpha || c.isDigit) = true
        rw [hdigit, Bool.or_true]
      rw [Yaml.isNameChar, halphanum]
      rfl
  · intro hnil
    have hempty := Text.isEmpty_decimalInt n
    rw [String.toList_eq_nil_iff.1 hnil] at hempty
    cases hempty
  · cases n with
    | ofNat n =>
        rw [Int.ofNat_eq_natCast, Text.decimalInt_natCast, Text.toList_decimal]
        intro hdash
        exact absurd (Text.isDigit_toDigits n '-' (by rw [hdash]; simp)) (by decide)
    | negSucc n =>
        rw [Text.toList_decimalInt_negSucc]
        intro hdash
        exact Nat.toDigits_ne_nil (List.cons.inj hdash).2

theorem parseEntries_of_load {text : String} {x : Scalar}
    (h : Yaml.load text = .ok (.node #[.map [(.str "config_version", .scalar x)]] 0)) :
    parseEntries text = .ok [(.str "config_version", .scalar x)] := by
  rw [parseEntries, h]
  rfl

/-- A number is read from its line, unless it has too many digits. -/
theorem parseEntries_numberLine (n : Int) :
    parseEntries (numberLine n) =
      if n.natAbs < Text.unwritable then .ok [(.str "config_version", .scalar (.int n))]
      else .error (.scalar (.integerSize (Nat.toDigits 10 n.natAbs).length)) := by
  have hload := Yaml.load_of_pairTokens
    (Yaml.tokens_plainLine isKey_version (isWord_decimalInt n)) (by decide)
    (by rw [Yaml.Grammar.scalarTag, if_pos rfl, Yaml.plainTag_decimalInt]; rfl)
  rw [Yaml.Grammar.scalarTag, if_pos rfl, Yaml.buildScalar_decimalInt] at hload
  by_cases hfew : n.natAbs < Text.unwritable
  · rw [if_pos hfew] at hload ⊢
    exact parseEntries_of_load hload
  · rw [if_neg hfew] at hload ⊢
    rw [parseEntries, numberLine, hload]
    rfl

theorem parseEntries_numeralLine (n : Int) :
    parseEntries (numeralLine n) = .ok [(.str "config_version", .str (Text.decimalInt n))] :=
  parseEntries_of_load (Yaml.load_of_pairTokens
    (Yaml.tokens_quotedLine isKey_version (isWord_decimalInt n).chars) (by decide) rfl)

/-- The characters of the lines, but for the digits. -/
def lineMarks : List Char :=
  "config_version: -\"\n".toList

theorem of_mem_line {n : Int} {c : Char}
    (h : c ∈ (numberLine n).toList ∨ c ∈ (numeralLine n).toList) :
    c ∈ lineMarks ∨ c.isDigit = true := by
  have hnumeral {c : Char} (hc : c ∈ (Text.decimalInt n).toList) :
      c ∈ lineMarks ∨ c.isDigit = true :=
    (Text.of_mem_decimalInt hc).imp_left fun hdash => by rw [hdash]; decide
  have hquoted {c : Char} (hc : c ∈ ("\"" ++ Text.decimalInt n ++ "\"").toList) :
      c ∈ lineMarks ∨ c.isDigit = true := by
    simp only [String.toList_append, List.mem_append] at hc
    rcases hc with (hc | hc) | hc
    · exact .inl (List.mem_singleton.1 hc ▸ by decide)
    · exact hnumeral hc
    · exact .inl (List.mem_singleton.1 hc ▸ by decide)
  have hline {value : String} (hvalue : ∀ d ∈ value.toList, d ∈ lineMarks ∨ d.isDigit = true)
      (hc : c ∈ (Yaml.pairLine "config_version" value).toList) :
      c ∈ lineMarks ∨ c.isDigit = true := by
    rw [Yaml.toList_pairLine, List.mem_append, List.mem_cons, List.mem_cons, List.mem_append,
      List.mem_singleton] at hc
    rcases hc with hc | rfl | rfl | hc | rfl
    · exact .inl (List.mem_append_left ": -\"\n".toList hc)
    · exact .inl (by decide)
    · exact .inl (by decide)
    · exact hvalue c hc
    · exact .inl (by decide)
  exact h.elim (hline fun _ => hnumeral) (hline fun _ => hquoted)

theorem not_mem_line {c : Char} (h : c ∉ lineMarks) (hdigit : c.isDigit = false) (n : Int) :
    c ∉ (numberLine n).toList ∧ c ∉ (numeralLine n).toList := by
  rw [← not_or]
  intro hmem
  rcases of_mem_line hmem with hmark | hnumeral
  · exact h hmark
  · rw [hdigit] at hnumeral
    cases hnumeral

/-! ### Loading -/

/-- Whether a file would be valid with the version that is understood, and its settings then. -/
def ValidBut (e : Entries) (s : Settings) : Prop :=
  decode (withVersion e currentVersion) = .good s

theorem load_of_loadEntries {disk : Disk} {env : Environment} {path : String} {e : Entries}
    (h : loadEntries disk env path = .ok e) :
    load disk env path = ofFile path e ∧
      loadWarnings disk env path = versionWarnings ((versionText e).toOption.getD "") := by
  refine ⟨?_, ?_⟩
  · unfold load
    rw [h]
    rfl
  · unfold loadWarnings
    rw [h]

theorem load_of_not_loadEntries {disk : Disk} {env : Environment} {path : String}
    {failure : SettingsFailure} (h : loadEntries disk env path = .error failure) :
    load disk env path = .error failure ∧ loadWarnings disk env path = [] := by
  refine ⟨?_, ?_⟩
  · unfold load
    rw [h]
    rfl
  · unfold loadWarnings
    rw [h]

theorem loadEntries_of_readFile {disk : Disk} {path text : String}
    (h : readFile disk path = .ok text) (hplain : '$' ∉ text.toList) (env : Environment) :
    loadEntries disk env path = parseEntries text := by
  rw [loadEntries, h]
  change parseEntries (Text.expand env text) = _
  rw [Text.expand_of_not_mem hplain]

/-- A version that is a whole number is compared as a number. A file that is otherwise valid is
refused for its version exactly if the number is less than one. It is read with the warning about
newer versions exactly if the number is greater than one, and its version is then the numeral. This
holds for a numeral between quotes of any length, and for a number of at most 4300 digits. A number
of more digits is refused for its size without a warning, whether it has been read from another base
or is written out in base ten. -/
theorem versions_ordered_as_numbers (disk : Disk) (env : Environment) (path : String) (n : Int) :
    (∀ e s, loadEntries disk env path = .ok e → ValidBut e s →
      GivesNumeral e n ∨ GivesNumber e n ∧ n.natAbs < Text.unwritable →
        load disk env path =
          (if n < 1 then .error (.oldVersion (Text.decimalInt n))
          else .ok { s with version := Text.decimalInt n }) ∧
        loadWarnings disk env path =
          if 1 < n then [newerWarning (Text.decimalInt n)] else []) ∧
    (∀ e, loadEntries disk env path = .ok e → GivesNumber e n → Text.unwritable ≤ n.natAbs →
      load disk env path = .error .unwritableNumber ∧ loadWarnings disk env path = []) ∧
    (readFile disk path = .ok (numberLine n) → Text.unwritable ≤ n.natAbs →
      load disk env path = .error (.scalar (.integerSize (Nat.toDigits 10 n.natAbs).length)) ∧
        loadWarnings disk env path = []) := by
  refine ⟨?_, ?_, ?_⟩
  · intro e s hentries hvalid hgives
    obtain ⟨hload, hwarnings⟩ := load_of_loadEntries hentries
    have hversion : versionText e = .ok (Text.decimalInt n) := by
      rcases hgives with hnumeral | ⟨hnumber, hfew⟩
      · exact hnumeral.versionText
      · rw [hnumber.versionText, Text.decimalInt?, if_pos hfew]
        rfl
    rw [hload, hwarnings, hversion]
    exact ⟨ofFile_of_versionText hversion hvalid path, versionWarnings_decimalInt n⟩
  · intro e hentries hnumber hmany
    obtain ⟨hload, hwarnings⟩ := load_of_loadEntries hentries
    have hversion : versionText e = .error .number := by
      rw [hnumber.versionText, Text.decimalInt?, if_neg (Nat.not_lt.2 hmany)]
      rfl
    rw [hload, hwarnings, ofFile, hversion]
    exact ⟨rfl, rfl⟩
  · -- The reader refuses the digits before there are entries whose version could be compared.
    intro hread hmany
    have hentries := loadEntries_of_readFile hread (not_mem_line (by decide) (by decide) n).1 env
    rw [parseEntries_numberLine, if_neg (Nat.not_lt.2 hmany)] at hentries
    exact load_of_not_loadEntries hentries

/-- The disk with one file of settings. -/
def settingsDisk (text : String) : Disk :=
  [(.ofString "c.yaml", .file (Text.asciiBytes text))]

theorem readFile_settingsDisk {text : String} (hascii : ∀ c ∈ text.toList, c.toNat < 128)
    (hreturn : '\r' ∉ text.toList) : readFile (settingsDisk text) "c.yaml" = .ok text := by
  have hlocate : (settingsDisk text).locate (.ofString "c.yaml") = .ok (.ofString "c.yaml") := by
    have hshort : ¬ Disk.pathLimit < FileName.size (Path.ofString "c.yaml").text := by decide
    have hparts : (Path.ofString "c.yaml").parts = ["c.yaml"] := by decide
    rw [Disk.locate, if_neg hshort, hparts, Disk.follow, if_neg (by decide), if_neg (by decide)]
    rfl
  have hget : (settingsDisk text).get? (.ofString "c.yaml") =
      some (.file (Text.asciiBytes text)) := by
    have hbelow : ((Path.ofString "c.yaml").parts.all (· = "..")) = false := by decide
    rw [Disk.get?, hbelow, settingsDisk, List.lookup_cons_self]
    rfl
  have hread : (settingsDisk text).read (.ofString "c.yaml") = .ok (Text.asciiBytes text) := by
    rw [Disk.read, hlocate]
    simp only [hget]
  have hask : (settingsDisk text).unaskable? (.ofString "c.yaml") = none := by
    rw [Disk.unaskable?, hlocate]
  have hhas : (settingsDisk text).has (.ofString "c.yaml") = true := by
    rw [Disk.has, Disk.at?, hlocate]
    simp only [hget]
    rfl
  have htext := Disk.readText_asciiBytes hread hascii hreturn
  unfold readFile
  simp only [hask, hhas, if_true, htext]

theorem readFile_lines (n : Int) :
    readFile (settingsDisk (numberLine n)) "c.yaml" = .ok (numberLine n) ∧
      readFile (settingsDisk (numeralLine n)) "c.yaml" = .ok (numeralLine n) := by
  have hascii {c : Char} (h : c ∈ (numberLine n).toList ∨ c ∈ (numeralLine n).toList) :
      c.toNat < 128 := by
    rcases of_mem_line h with hkey | hdigit
    · have hall : lineMarks.all (fun c => decide (c.toNat < 128)) = true := by decide
      exact of_decide_eq_true (List.all_eq_true.1 hall c hkey)
    · have := Text.bounds_of_isDigit hdigit
      omega
  obtain ⟨hnumber, hnumeral⟩ := @not_mem_line '\r' (by decide) (by decide) n
  exact ⟨readFile_settingsDisk (fun _ hc => hascii (.inl hc)) hnumber,
    readFile_settingsDisk (fun _ hc => hascii (.inr hc)) hnumeral⟩

theorem loadEntries_lines (n : Int) (env : Environment) :
    loadEntries (settingsDisk (numberLine n)) env "c.yaml" = parseEntries (numberLine n) ∧
      loadEntries (settingsDisk (numeralLine n)) env "c.yaml" = parseEntries (numeralLine n) := by
  obtain ⟨hnumber, hnumeral⟩ := readFile_lines n
  obtain ⟨hplain, hplain'⟩ := @not_mem_line '$' (by decide) (by decide) n
  exact ⟨loadEntries_of_readFile hnumber hplain env, loadEntries_of_readFile hnumeral hplain' env⟩

/-- A file of version ten is read with a warning, and one of version minus ten is refused. -/
theorem versions_ordered_at_ten :
    load (settingsDisk (numberLine 10)) (fun _ => none) "c.yaml" =
        .ok { usual with version := "10" } ∧
      loadWarnings (settingsDisk (numberLine 10)) (fun _ => none) "c.yaml" = [newerWarning "10"] ∧
      load (settingsDisk (numeralLine (-10))) (fun _ => none) "c.yaml" =
        .error (.oldVersion "-10") ∧
      loadWarnings (settingsDisk (numeralLine (-10))) (fun _ => none) "c.yaml" = [] := by
  have hfew : (10 : Int).natAbs < Text.unwritable := (Text.length_toDigits_le_iff 10).1 (by decide)
  have hnumber := (loadEntries_lines 10 fun _ => none).1
  rw [parseEntries_numberLine, if_pos hfew] at hnumber
  have hnumeral := (loadEntries_lines (-10) fun _ => none).2
  rw [parseEntries_numeralLine] at hnumeral
  have hten := (versions_ordered_as_numbers _ _ _ 10).1 _ usual hnumber rfl (.inr ⟨rfl, hfew⟩)
  have hminus := (versions_ordered_as_numbers _ _ _ (-10)).1 _ usual hnumeral rfl (.inl rfl)
  rw [show Text.decimalInt 10 = "10" by decide] at hten
  rw [show Text.decimalInt (-10) = "-10" by decide] at hminus
  exact ⟨hten.1, hten.2, hminus.1, hminus.2⟩

/-- The least number of 4301 digits is greater than one, but its file is neither read nor warned
about. -/
theorem oversized_version_unread :
    1 < Text.unwritable ∧
      load (settingsDisk (numberLine Text.unwritable)) (fun _ => none) "c.yaml" =
        .error (.scalar (.integerSize 4301)) ∧
      loadWarnings (settingsDisk (numberLine Text.unwritable)) (fun _ => none) "c.yaml" = [] := by
  have hentries := (loadEntries_lines Text.unwritable fun _ => none).1
  rw [parseEntries_numberLine, Int.natAbs_natCast, if_neg (Nat.lt_irrefl _),
    Text.length_toDigits_unwritable] at hentries
  exact ⟨(Text.length_toDigits_le_iff 1).1 (by decide), load_of_not_loadEntries hentries⟩

end Settings

end Groundplan
