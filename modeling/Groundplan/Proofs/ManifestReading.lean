import Groundplan.Proofs.BareProject
import Groundplan.Proofs.ChecklistRules
import Groundplan.Proofs.SettingsOverride
import Groundplan.Proofs.TomlStrings

/-!
# Reading the manifest

The strings of a manifest can be read back, all of them and in their order, unless a text in it has
a delete character or a surrogate. Then there is no reading it: the string with that text is none.
The names in a manifest have no such characters. The description of the project and the range of
language versions come from the model and the settings as they are, and may have them.
-/

namespace Groundplan

/-! ### Names -/

namespace Text

/-- Where no boundary is passed, membership in a set of code points does not change. -/
theorem withinBounds_eq {bounds : List Nat} {first last n : Nat}
    (h : bounds.all (fun bound => bound ≤ first || last < bound) = true) (hfirst : first ≤ n)
    (hlast : n ≤ last) : withinBounds bounds n = withinBounds bounds first := by
  induction bounds with
  | nil => rfl
  | cons bound bounds ih =>
      rw [List.all_cons, Bool.and_eq_true] at h
      obtain ⟨hbound, hbounds⟩ := h
      have hpassed : decide (bound ≤ n) = decide (bound ≤ first) := by
        simp only [Bool.or_eq_true, decide_eq_true_eq] at hbound
        exact decide_eq_decide.2 (by omega)
      rw [withinBounds, withinBounds, hpassed, ih hbounds]

/-- Whether the set with the given boundaries has neither reserved characters nor the delete
character. -/
def excludesReserved (bounds : List Nat) : Bool :=
  bounds.all (fun bound => bound ≤ 0xdd800 || 0xde000 < bound) &&
    !withinBounds bounds 0xdd800 && !withinBounds bounds 0x7f

theorem of_excludesReserved {bounds : List Nat} (h : excludesReserved bounds = true) {c : Char}
    (hc : withinBounds bounds c.toNat = true) : isReserved c = false ∧ c.toNat ≠ 0x7f := by
  simp only [excludesReserved, Bool.and_eq_true, Bool.not_eq_true'] at h
  obtain ⟨⟨hbounds, hreserved⟩, hdelete⟩ := h
  constructor
  · rw [← Bool.not_eq_true]
    intro hrange
    simp only [isReserved, Bool.and_eq_true, decide_eq_true_eq] at hrange
    rw [withinBounds_eq hbounds hrange.1 hrange.2, hreserved] at hc
    cases hc
  · intro heq
    rw [heq, hdelete] at hc
    cases hc

theorem excludesReserved_identifierBounds :
    excludesReserved identifierStartBounds = true ∧
      excludesReserved identifierContinueBounds = true := by
  decide +kernel

theorem isPlain_of_isIdentifier {text : String} (h : isIdentifier text = true) :
    Toml.IsPlain text := by
  obtain ⟨hstart, hcontinue⟩ := excludesReserved_identifierBounds
  rw [isIdentifier] at h
  unfold Toml.IsPlain
  cases hchars : text.toList with
  | nil => simp
  | cons c cs =>
      rw [hchars, isIdentifierChars, Bool.and_eq_true, List.all_eq_true] at h
      refine List.forall_mem_cons.2 ⟨of_excludesReserved hstart h.1, fun d hd => ?_⟩
      exact of_excludesReserved hcontinue (h.2 d hd)

end Text

/-! ### Lines of a manifest -/

namespace Project

open Text

/-- A line of a manifest: its strings, each behind what stands before it, and the end of the
line. -/
structure ManifestLine where
  strings : List (String × String)
  ending : String

namespace ManifestLine

/-- Strings with what stands before them, and the end of a line. -/
def textOf (ending : String) : List (String × String) → String
  | [] => ending
  | (lead, text) :: strings => lead ++ (literal text ++ textOf ending strings)

/-- The text of a line. -/
def text (line : ManifestLine) : String :=
  textOf line.ending line.strings

/-- The texts of the strings of a line. -/
def texts (line : ManifestLine) : List String :=
  line.strings.map Prod.snd

/-- Whether characters can stand in front of a string. -/
def isLead (cs : List Char) : Bool :=
  !cs.isEmpty && cs.all fun c => !isReserved c && Toml.isBare c.toNat

/-- Whether characters can stand at the end of a line: there may be a comment. -/
def isEnding : List Char → Bool
  | [] => true
  | c :: cs =>
    !isReserved c && if c = '#' then cs.all (fun d => !isReserved d && d ≠ '\n')
      else Toml.isBare c.toNat && isEnding cs

/-- Whether a line has no strings but those that it lists. -/
def IsSound (line : ManifestLine) : Prop :=
  isEnding line.ending.toList = true ∧
    ∀ string ∈ line.strings, isLead string.1.toList = true

theorem points_append {text : String} (h : text.toList.any isReserved = false) (rest : String) :
    points (text ++ rest) = text.toList.map Char.toNat ++ points rest := by
  rw [points, String.toList_append, pointsOf_append h]
  rfl

/-- What can stand in front of a string is passed over, and does not start with a quote. -/
theorem strings?_lead {lead : String} (h : isLead lead.toList = true) (rest : String) :
    Toml.strings? (points (lead ++ rest)) = Toml.strings? (points rest) ∧
      (points (lead ++ rest)).head? ≠ some Toml.quote := by
  simp only [isLead, Bool.and_eq_true, Bool.not_eq_true', List.all_eq_true] at h
  obtain ⟨hne, hchars⟩ := h
  have hreserved : lead.toList.any isReserved = false :=
    List.any_eq_false.2 fun c hc => by simp [(hchars c hc).1]
  have hbare : (lead.toList.map Char.toNat).all Toml.isBare = true := by
    rw [List.all_map, List.all_eq_true]
    exact fun c hc => (hchars c hc).2
  rw [points_append hreserved]
  refine ⟨Toml.strings?_bare hbare _, ?_⟩
  cases hlead : lead.toList with
  | nil => simp [hlead] at hne
  | cons c cs =>
      intro heq
      have hc := (hchars c (by simp [hlead])).2
      rw [Option.some.inj heq] at hc
      exact absurd hc (by decide)

theorem strings?_newline (ns : List Nat) :
    Toml.strings? (Toml.newline :: ns) = Toml.strings? ns :=
  @Toml.strings?_bare [Toml.newline] (by decide) ns

theorem unreserved_of_isEnding {cs : List Char} (h : isEnding cs = true) :
    cs.any isReserved = false := by
  induction cs with
  | nil => rfl
  | cons c cs ih =>
      rw [isEnding, Bool.and_eq_true, Bool.not_eq_true'] at h
      obtain ⟨hc, hcs⟩ := h
      rw [List.any_cons, hc, Bool.false_or]
      split at hcs
      · simp only [List.all_eq_true, Bool.and_eq_true, Bool.not_eq_true'] at hcs
        exact List.any_eq_false.2 fun d hd => by simp [(hcs d hd).1]
      · rw [Bool.and_eq_true] at hcs
        exact ih hcs.2

theorem strings?_of_isEnding {cs : List Char} (h : isEnding cs = true) (ns : List Nat) :
    Toml.strings? (cs.map Char.toNat ++ Toml.newline :: ns) = Toml.strings? ns := by
  induction cs with
  | nil => exact strings?_newline ns
  | cons c cs ih =>
      rw [isEnding, Bool.and_eq_true] at h
      have hcs := h.2
      rw [List.map_cons, List.cons_append]
      split at hcs
      next hhash =>
        have hline : Toml.newline ∉ cs.map Char.toNat := by
          intro hmem
          obtain ⟨d, hd, hfeed⟩ := List.mem_map.1 hmem
          simp only [List.all_eq_true, Bool.and_eq_true, decide_eq_true_eq] at hcs
          exact (hcs d hd).2 (Char.toNat_inj.1 hfeed)
        rw [hhash]
        exact (Toml.strings?_comment hline ns).trans (strings?_newline ns)
      next =>
        rw [Bool.and_eq_true] at hcs
        refine (@Toml.strings?_bare [c.toNat] ?_ _).trans (ih hcs.2)
        rw [List.all_cons, hcs.1]
        rfl

/-- What can stand at the end of a line is passed over, and does not start with a quote. -/
theorem strings?_ending {ending : String} (h : isEnding ending.toList = true) (rest : String) :
    Toml.strings? (points (ending ++ ("\n" ++ rest))) = Toml.strings? (points rest) ∧
      (points (ending ++ ("\n" ++ rest))).head? ≠ some Toml.quote := by
  have hfeed : points ("\n" ++ rest) = Toml.newline :: points rest := points_append (by decide) rest
  rw [points_append (unreserved_of_isEnding h), hfeed]
  refine ⟨strings?_of_isEnding h _, ?_⟩
  cases hending : ending.toList with
  | nil => simp [Toml.newline, Toml.quote]
  | cons c cs =>
      rw [hending, isEnding, Bool.and_eq_true] at h
      intro heq
      obtain rfl : c = '"' := Char.toNat_inj.1 (Option.some.inj heq)
      have hquote := h.2
      rw [if_neg (by decide), Bool.and_eq_true] at hquote
      exact absurd hquote.1 (by decide)

/-- A line of a document is read as its strings, unless one of them cannot be read. -/
theorem strings?_textOf {ending : String} (hending : isEnding ending.toList = true)
    {strings : List (String × String)}
    (h : ∀ string ∈ strings, isLead string.1.toList = true) (rest : String) :
    Toml.strings? (points (textOf ending strings ++ ("\n" ++ rest))) =
        (if ∀ text ∈ strings.map Prod.snd, Toml.IsReadable text then
          (Toml.strings? (points rest)).map ((strings.map Prod.snd).map points ++ ·) else none) ∧
      (points (textOf ending strings ++ ("\n" ++ rest))).head? ≠ some Toml.quote := by
  -- That no quote comes first is carried along: the literal before it must not run into another.
  induction strings with
  | nil =>
      obtain ⟨hread, hhead⟩ := strings?_ending hending rest
      refine ⟨?_, hhead⟩
      rw [textOf, hread]
      simp
  | cons string strings ih =>
      obtain ⟨lead, text⟩ := string
      obtain ⟨hlead, hstrings⟩ := List.forall_mem_cons.1 h
      obtain ⟨hread, hhead⟩ := ih hstrings
      have hparts : textOf ending ((lead, text) :: strings) ++ ("\n" ++ rest) =
          lead ++ (literal text ++ (textOf ending strings ++ ("\n" ++ rest))) := by
        simp only [textOf, String.append_assoc]
      obtain ⟨hskip, hfirst⟩ := strings?_lead hlead
        (literal text ++ (textOf ending strings ++ ("\n" ++ rest)))
      rw [hparts]
      refine ⟨?_, hfirst⟩
      rw [hskip, Toml.strings?_literal_append _ _ hhead, hread, List.map_cons]
      by_cases htext : Toml.IsReadable text
      · by_cases hothers : ∀ text ∈ strings.map Prod.snd, Toml.IsReadable text
        · rw [if_pos htext, if_pos hothers, if_pos (List.forall_mem_cons.2 ⟨htext, hothers⟩),
            Option.map_map]
          rfl
        · rw [if_pos htext, if_neg hothers,
            if_neg fun hall => hothers (List.forall_mem_cons.1 hall).2]
          rfl
      · rw [if_neg htext, if_neg fun hall => htext (List.forall_mem_cons.1 hall).1]

/-- Lines with a line feed behind each of them. -/
def document : List ManifestLine → String
  | [] => ""
  | line :: lines => line.text ++ ("\n" ++ document lines)

theorem fileText_eq_document {lines : List ManifestLine} (h : lines ≠ []) :
    Source.fileText (lines.map text) = document lines := by
  induction lines with
  | nil => exact absurd rfl h
  | cons line lines ih =>
      cases lines with
      | nil => simp [Source.fileText, Source.joinLines, document]
      | cons next lines =>
          rw [document, ← ih (by simp)]
          simp only [Source.fileText, Source.joinLines, List.map_cons,
            String.intercalate_cons_cons, String.append_assoc]

/-- A document of sound lines is read as the strings of its lines, unless one of them cannot be
read. -/
theorem strings?_document {lines : List ManifestLine} (h : ∀ line ∈ lines, line.IsSound) :
    Toml.strings? (points (document lines)) =
      if ∀ text ∈ lines.flatMap texts, Toml.IsReadable text then
        some ((lines.flatMap texts).map points) else none := by
  induction lines with
  | nil => exact Toml.strings?_nil
  | cons line lines ih =>
      obtain ⟨⟨hending, hleads⟩, hlines⟩ := List.forall_mem_cons.1 h
      rw [document, text, (strings?_textOf hending hleads (document lines)).1, ih hlines, ← texts,
        List.flatMap_cons]
      by_cases hline : ∀ text ∈ line.texts, Toml.IsReadable text
      · by_cases hothers : ∀ text ∈ lines.flatMap texts, Toml.IsReadable text
        · rw [if_pos hline, if_pos hothers, if_pos (List.forall_mem_append.2 ⟨hline, hothers⟩),
            Option.map_some, List.map_append]
        · rw [if_pos hline, if_neg hothers,
            if_neg fun hall => hothers (List.forall_mem_append.1 hall).2]
          rfl
      · rw [if_neg hline, if_neg fun hall => hline (List.forall_mem_append.1 hall).1]

end ManifestLine

/-- The lines of the manifest, with their strings told apart. -/
def manifestLayout (m : Model) (s : Settings) : List ManifestLine := [
  ⟨[], "[build-system]"⟩,
  ⟨[("requires = [", "setuptools>=61.0")], "]"⟩,
  ⟨[("build-backend = ", "setuptools.build_meta")], ""⟩,
  ⟨[], ""⟩,
  ⟨[], "[project]"⟩,
  ⟨[("name = ", distributionName m)], ""⟩,
  ⟨[("version = ", projectVersion)], ""⟩,
  ⟨[("description = ", description m)], ""⟩,
  ⟨[("readme = ", "README.md")], ""⟩,
  ⟨[("requires-python = ", s.languageRange)], ""⟩,
  ⟨[], "dependencies = ["⟩,
  ⟨[], "    # HTTP server and routing"⟩,
  ⟨[("    ", "fastapi>=0.110")], ","⟩,
  ⟨[("    ", "uvicorn[standard]>=0.27")], ","⟩,
  ⟨[], "    # Serialization and validation"⟩,
  ⟨[("    ", "pydantic>=2.5")], ","⟩,
  ⟨[], "    # Date and time handling"⟩,
  ⟨[("    ", "python-dateutil>=2.8")], ","⟩,
  ⟨[], "    # Structured logging"⟩,
  ⟨[("    ", "structlog>=24.1")], ","⟩,
  ⟨[], "    # OpenAPI documentation is served by fastapi"⟩,
  ⟨[], "    # uuid and decimal come from the standard library"⟩,
  ⟨[], "]"⟩,
  ⟨[], ""⟩,
  ⟨[], "[project.optional-dependencies]"⟩,
  ⟨[("sql = [", "sqlalchemy>=2.0")], "]"⟩,
  ⟨[("dev = [", "pytest>=7.4"), (", ", "httpx>=0.27")], "]"⟩,
  ⟨[], ""⟩,
  ⟨[], "[tool.setuptools]"⟩,
  ⟨[("package-dir = \x7b", packageName m s), (" = ", "src")], "\x7d"⟩,
  ⟨("packages = [", packageName m s) ::
    subpackages.map fun part => (", ", packageName m s ++ "." ++ part), "]"⟩]

theorem manifestLines_eq_map (m : Model) (s : Settings) :
    manifestLines m s = (manifestLayout m s).map ManifestLine.text := by
  have hsource : " = " ++ (literal "src" ++ "\x7d") = " = \"src\"\x7d" := by decide
  simp only [manifestLines, manifestLayout, List.map_cons, List.map_nil, ManifestLine.text,
    ManifestLine.textOf, packages, subpackages, String.append_empty, String.append_assoc, hsource,
    String.intercalate_cons_cons, String.intercalate_singleton, List.cons.injEq, and_true, true_and]
  and_intros
  all_goals decide

theorem isSound_of_mem_layout (m : Model) (s : Settings) :
    ∀ line ∈ manifestLayout m s, line.IsSound := by
  simp only [manifestLayout, List.forall_mem_cons, List.not_mem_nil, false_imp_iff, implies_true,
    and_true, ManifestLine.IsSound, subpackages, List.map_cons, List.map_nil]
  and_intros
  all_goals decide

/-! ### The manifest -/

/-- The texts that the model and the settings give to the manifest: the name under which the project
is distributed, its description, the range of language versions, and the package twice, once with
its parts. -/
def givenTexts (m : Model) (s : Settings) : List String :=
  [distributionName m, description m, s.languageRange, packageName m s] ++
    packages (packageName m s)

/-- The texts of all strings of the manifest. -/
def manifestTexts (m : Model) (s : Settings) : List String := [
  "setuptools>=61.0", "setuptools.build_meta", distributionName m, projectVersion, description m,
  "README.md", s.languageRange, "fastapi>=0.110", "uvicorn[standard]>=0.27", "pydantic>=2.5",
  "python-dateutil>=2.8", "structlog>=24.1", "sqlalchemy>=2.0", "pytest>=7.4", "httpx>=0.27",
  packageName m s, "src"] ++ packages (packageName m s)

theorem flatMap_texts_layout (m : Model) (s : Settings) :
    (manifestLayout m s).flatMap ManifestLine.texts = manifestTexts m s :=
  rfl

theorem forall_manifestTexts_iff (m : Model) (s : Settings) :
    (∀ text ∈ manifestTexts m s, Toml.IsReadable text) ↔
      ∀ text ∈ givenTexts m s, Toml.IsReadable text := by
  have hfixed : ∀ text ∈ ["setuptools>=61.0", "setuptools.build_meta", projectVersion, "README.md",
      "fastapi>=0.110", "uvicorn[standard]>=0.27", "pydantic>=2.5", "python-dateutil>=2.8",
      "structlog>=24.1", "sqlalchemy>=2.0", "pytest>=7.4", "httpx>=0.27", "src"],
      Toml.IsReadable text := by
    decide
  simp only [List.forall_mem_cons, List.not_mem_nil, false_imp_iff, implies_true, and_true]
    at hfixed
  simp only [manifestTexts, givenTexts, List.forall_mem_append, List.forall_mem_cons,
    List.not_mem_nil, false_imp_iff, implies_true, and_true, hfixed, true_and]

theorem strings?_manifest (m : Model) (s : Settings) :
    Toml.strings? (points (manifest m s)) =
      if ∀ text ∈ givenTexts m s, Toml.IsReadable text then some ((manifestTexts m s).map points)
      else none := by
  have hread := ManifestLine.strings?_document (isSound_of_mem_layout m s)
  rw [← ManifestLine.fileText_eq_document (by simp [manifestLayout]), ← manifestLines_eq_map,
    flatMap_texts_layout] at hread
  rw [manifest, hread]
  exact if_congr (forall_manifestTexts_iff m s) rfl rfl

/-! ### Names in the manifest -/

/-- Accepted settings name a package by an identifier, if they name one. -/
theorem isPlain_packageName (m : Model) {s : Settings} (h : s.Accepted) :
    Toml.IsPlain (packageName m s) := by
  obtain ⟨e, hdecode⟩ := h.decoded
  have hnormal := Settings.normal_of_decode hdecode
  unfold packageName
  cases hname : s.packageName with
  | none => exact Toml.isPlain_of_name (Name.isPlain_field m.context.name)
  | some name =>
      have hcheck := hnormal.packageName name hname
      simp only [Settings.checkPackageName] at hcheck
      split at hcheck
      next hidentifier =>
        rw [Except.ok.inj hcheck] at hidentifier
        exact isPlain_of_isIdentifier hidentifier
      next => cases hcheck

theorem isPlain_of_mem_packages {package : String} (h : Toml.IsPlain package) :
    ∀ name ∈ packages package, Toml.IsPlain name := by
  have hparts : ∀ part ∈ subpackages, Toml.IsPlain part := by decide
  refine List.forall_mem_cons.2 ⟨h, fun name hname => ?_⟩
  obtain ⟨part, hpart, rfl⟩ := List.mem_map.1 hname
  exact (h.append (by decide)).append (hparts part hpart)

/-- Every text that the model and the settings give to the manifest is written as a basic string
that stands for it exactly when it has neither the delete character nor a surrogate, and the strings
of the manifest can be read back exactly when this holds of all these texts. The names among them
never have such characters, so it depends on the description and the language range alone. -/
theorem manifest_strings_read (m : Model) (s : Settings) :
    (∀ text ∈ givenTexts m s,
      Toml.basicString? (points (literal text)) =
        if Toml.IsReadable text then some (points text, []) else none) ∧
      Toml.strings? (points (manifest m s)) =
        (if ∀ text ∈ givenTexts m s, Toml.IsReadable text then
          some ((manifestTexts m s).map points) else none) ∧
      Toml.IsReadable (distributionName m) ∧
      (s.Accepted →
        ∀ name ∈ packageName m s :: packages (packageName m s), Toml.IsReadable name) := by
  refine ⟨fun text _ => Toml.basicString?_literal text, strings?_manifest m s, ?_, ?_⟩
  · exact (Toml.isPlain_of_name (Name.isPlain_kebab m.context.name)).isReadable
  · intro haccepted name hname
    have hpackage := isPlain_packageName m haccepted
    rcases List.mem_cons.1 hname with rfl | hname
    · exact hpackage.isReadable
    · exact (isPlain_of_mem_packages hpackage name hname).isReadable

/-- A model whose description is a delete character. -/
def deleting : Model :=
  bareModel "1.0" ⟨"Depot", "acme.depot", some "\x7f"⟩

/-- The checklist lets a delete character into the description, and the string of the manifest that
is written for it cannot be read, nor can the manifest. -/
theorem delete_character_unread :
    deleting.violation? = none ∧
      description deleting ∈ givenTexts deleting Settings.usual ∧
      Toml.basicString? (points (literal (description deleting))) = none ∧
      Toml.strings? (points (manifest deleting Settings.usual)) = none := by
  have hdescription : description deleting ∈ givenTexts deleting Settings.usual := by
    simp [givenTexts]
  have hforbidden : ¬ Toml.IsReadable (description deleting) := by decide
  refine ⟨?_, hdescription, ?_, ?_⟩
  · rw [Model.violation?_eq_none_iff]
    intro rule
    cases rule <;> decide
  · rw [Toml.basicString?_literal, if_neg hforbidden]
  · rw [strings?_manifest, if_neg fun hall => hforbidden (hall _ hdescription)]

end Project

end Groundplan
