import Groundplan.CommandLine.Run
import Groundplan.Proofs.Encodability

/-!
# Validating and generating agree

Both commands announce the document, read it and report what is wrong with it; they differ in the
first word of the announcement and in what follows a document that was read. So where the document
is not read, both fail with the same lines behind the announcement, and neither changes the disk.
Where it is read, generating goes on to the project.

Validating does not always succeed there. It ends by printing a summary, and a context name,
namespace or version with a surrogate can be read but not printed. Up to that it succeeds exactly
when generating gets past reading the document.
-/

namespace Groundplan.CommandLine

open Text (IsEncodable encodable_append_iff)

/-! ### Printing -/

theorem printable_snd_eq_none_iff (lines : List String) :
    (printable lines).2 = none ↔ ∀ line ∈ lines, IsEncodable line := by
  induction lines with
  | nil => simp [printable]
  | cons line lines ih =>
      cases hfault : Text.encodeFault? line with
      | none => simp [printable, hfault, ih, IsEncodable]
      | some fault => simp [printable, hfault, IsEncodable]

theorem printable_cons {line : String} (h : IsEncodable line) (lines : List String) :
    printable (line :: lines) = (line :: (printable lines).1, (printable lines).2) := by
  rw [printable, show Text.encodeFault? line = none from h]

theorem printable_of_encodable {lines : List String} (h : ∀ line ∈ lines, IsEncodable line) :
    printable lines = (lines, none) := by
  induction lines with
  | nil => rfl
  | cons line lines ih =>
      rw [List.forall_mem_cons] at h
      rw [printable_cons h.1, ih h.2]

namespace Run

theorem disk_printed (r : Run) : r.printed.disk = r.disk := by
  unfold printed
  split <;> rfl

theorem disk_showing (r : Run) (verbose : Bool) : (r.showing verbose).disk = r.disk := rfl

theorem lines_showing (r : Run) (verbose : Bool) : (r.showing verbose).lines = r.lines := rfl

theorem exitCode_showing (r : Run) (verbose : Bool) : (r.showing verbose).exitCode = r.exitCode :=
  rfl

theorem printed_of_encodable {r : Run} (h : ∀ line ∈ r.lines, IsEncodable line) :
    r.printed = r := by
  rw [printed, printable_of_encodable h]

theorem exitCode_printed_of_not_encodable {r : Run} (h : ¬ ∀ line ∈ r.lines, IsEncodable line) :
    r.printed.exitCode = 1 := by
  unfold printed
  split
  next hnone =>
    refine absurd ?_ h
    rw [← printable_snd_eq_none_iff, hnone]
  · rfl

/-- A run that ends with another code than success still does after printing. -/
theorem exitCode_printed_of_failed {r : Run} (h : r.exitCode = 1) : r.printed.exitCode = 1 := by
  by_cases hlines : ∀ line ∈ r.lines, IsEncodable line
  · rw [printed_of_encodable hlines, h]
  · exact exitCode_printed_of_not_encodable hlines

/-- A run with one more line in front. -/
def after (line : String) (r : Run) : Run :=
  { r with lines := line :: r.lines }

theorem lines_printed_after {line : String} (h : IsEncodable line) (r : Run) :
    (after line r).printed.lines = line :: (printable r.lines).1 := by
  unfold printed
  rw [show (after line r).lines = line :: r.lines from rfl, printable_cons h]
  cases hrest : (printable r.lines).2 with
  | none =>
      have hlines := (printable_snd_eq_none_iff r.lines).1 hrest
      simp [after, printable_of_encodable hlines]
  | some fault => rfl

end Run

theorem announced_of_encodable {line : String} (h : IsEncodable line) (disk : Disk)
    (warnings : List String) (rest : Run) :
    announced disk warnings line rest = rest.after line := by
  rw [announced, show Text.encodeFault? line = none from h]
  rfl

theorem announced_of_not_encodable {line : String} (h : ¬ IsEncodable line) (disk : Disk)
    (warnings : List String) (rest : Run) :
    ∃ cause, announced disk warnings line rest = ⟨disk, [], [], warnings, .escaped cause⟩ := by
  obtain ⟨fault, hfault⟩ := Option.ne_none_iff_exists'.1 h
  exact ⟨_, by rw [announced, hfault]⟩

/-! ### Failed runs -/

/-- The lines that report a failure, if it is reported. -/
def reportLines (f : Failure) : List String :=
  if f.isReported then [failureLine f] else []

theorem failedRun_spec (disk : Disk) (notes : List Note) (warnings : List String) (f : Failure) :
    (failedRun disk [] notes warnings f).disk = disk ∧
      (failedRun disk [] notes warnings f).exitCode = 1 ∧
      (failedRun disk [] notes warnings f).lines = reportLines f := by
  unfold failedRun reportLines
  split <;> exact ⟨rfl, rfl, rfl⟩

/-! ### Summaries -/

/-- Whether the texts of a summary can be encoded. -/
def IsPrintable (s : Summary) : Prop :=
  IsEncodable s.context ∧ IsEncodable s.namespaceName ∧ IsEncodable s.version

theorem encodable_count {label : String} (h : Text.Unreserved label) (n : Nat) :
    IsEncodable (label ++ Text.decimal n) := by
  rw [encodable_append_iff h]
  exact Text.encodable_of_unreserved (Text.unreserved_decimal n)

/-- Only the name, the namespace and the version can keep a summary from being printed. -/
theorem encodable_summaryLines_iff (s : Summary) :
    (∀ line ∈ summaryLines true s, IsEncodable line) ↔ IsPrintable s := by
  have hcontext : Text.Unreserved "📦 Bounded context: " := by decide
  have hnamespace : Text.Unreserved "   Namespace: " := by decide
  have hversion : Text.Unreserved "   IR version: " := by decide
  have hlabels : ∀ label ∈ ["   Aggregates: ", "   Value objects: ", "   Commands: ",
      "   Events: ", "   Queries: ", "   External subscriptions: "],
      ∀ n, IsEncodable (label ++ Text.decimal n) := by
    have hfixed : ∀ label ∈ ["   Aggregates: ", "   Value objects: ", "   Commands: ",
      "   Events: ", "   Queries: ", "   External subscriptions: "], Text.Unreserved label := by
      decide
    exact fun label hlabel n => encodable_count (hfixed label hlabel) n
  simp only [List.forall_mem_cons, List.not_mem_nil, false_imp_iff, implies_true,
    and_true] at hlabels
  obtain ⟨haggregates, hvalues, hcommands, hevents, hqueries, hsubscriptions⟩ := hlabels
  unfold summaryLines IsPrintable
  simp only [if_true, List.forall_mem_append, List.forall_mem_cons, List.not_mem_nil,
    false_imp_iff, implies_true, and_true, encodable_append_iff hcontext,
    encodable_append_iff hnamespace, encodable_append_iff hversion, haggregates, hvalues,
    hcommands, hevents, hqueries, hsubscriptions]
  exact and_assoc

/-! ### Announcements -/

/-- The announcement of a document that is validated. -/
def validating (input : Path) : String :=
  "🔍 Validating domain model: " ++ input.text

/-- The announcement of a document that a project is generated from. -/
def reading (input : Path) : String :=
  "🔍 Reading domain model: " ++ input.text

theorem encodable_validating_iff (input : Path) :
    IsEncodable (validating input) ↔ IsEncodable input.text := by
  have hfixed : Text.Unreserved "🔍 Validating domain model: " := by decide
  exact encodable_append_iff hfixed input.text

theorem encodable_reading_iff (input : Path) :
    IsEncodable (reading input) ↔ IsEncodable input.text := by
  have hfixed : Text.Unreserved "🔍 Reading domain model: " := by decide
  exact encodable_append_iff hfixed input.text

/-! ### The stage of reading -/

/-- The stage of reading the document is passed with a model: the document is announced and a model
that meets all rules is read from it. -/
def Reads (disk : Disk) (input : Path) (m : Model) : Prop :=
  IsEncodable input.text ∧ Document.parseFile disk input.text = .ok m

/-- A run that announces a document, reads it and goes on with the model. -/
def readingRun (disk : Disk) (warnings : List String) (line : String) (input : Path)
    (next : Model → Run) : Run :=
  announced disk warnings line <|
    match Document.parseFile disk input.text with
    | .error f => failedRun disk [] (Document.fileNotes disk input.text) warnings f
    | .ok m => next m

theorem validate_eq (disk : Disk) (input : Path) :
    validate disk input = readingRun disk [] (validating input) input fun m =>
      ⟨disk, "✅ Domain model is valid" :: summaryLines true m.summary,
        Document.fileNotes disk input.text, [], .success⟩ := by
  unfold validate readingRun
  cases Document.parseFile disk input.text <;> rfl

/-- The warnings that loading settings leaves. -/
def settingsWarnings (disk : Disk) (env : Environment) : Option Path → List String
  | some p => Settings.loadWarnings disk env p.text
  | none => []

/-- With settings, generating reads the document in the same way. -/
theorem generate_of_settings {disk : Disk} {env : Environment} {config : Option Path}
    {packageName : Option String} {servicePort : Option Int} {s : Settings}
    (h : settings disk env config packageName servicePort = .ok s) (input output : Path) :
    generate disk env input output config packageName servicePort =
      readingRun disk (settingsWarnings disk env config) (reading input) input fun m =>
        generateProject disk output s m (Document.fileNotes disk input.text)
          (settingsWarnings disk env config) := by
  unfold generate readingRun
  rw [h]
  cases Document.parseFile disk input.text <;> rfl

theorem generate_of_settings_error {disk : Disk} {env : Environment} {config : Option Path}
    {packageName : Option String} {servicePort : Option Int} {f : SettingsFailure}
    (h : settings disk env config packageName servicePort = .error f) (input output : Path) :
    (generate disk env input output config packageName servicePort).disk = disk ∧
      (generate disk env input output config packageName servicePort).exitCode = 1 := by
  unfold generate
  rw [h]
  dsimp only
  split <;> exact ⟨rfl, rfl⟩

section Stage

variable {disk : Disk} {input : Path} {line : String}

theorem readingRun_of_reads {m : Model} (hread : Reads disk input m)
    (hline : IsEncodable line ↔ IsEncodable input.text) (warnings : List String)
    (next : Model → Run) :
    readingRun disk warnings line input next = (next m).after line := by
  rw [readingRun, announced_of_encodable (hline.2 hread.1), hread.2]

theorem readingRun_of_error (hline : IsEncodable line) {f : Failure}
    (hparse : Document.parseFile disk input.text = .error f) (warnings : List String)
    (next : Model → Run) :
    let r := (readingRun disk warnings line input next).printed
    r.disk = disk ∧ r.exitCode = 1 ∧ r.lines = line :: (printable (reportLines f)).1 := by
  obtain ⟨hdisk, hcode, hlines⟩ :=
    failedRun_spec disk (Document.fileNotes disk input.text) warnings f
  rw [readingRun, announced_of_encodable hline, hparse]
  refine ⟨?_, Run.exitCode_printed_of_failed hcode, ?_⟩
  · rw [Run.disk_printed]
    exact hdisk
  · rw [Run.lines_printed_after hline, hlines]

theorem readingRun_of_not_encodable (hline : ¬ IsEncodable line) (disk : Disk) (input : Path)
    (warnings : List String) (next : Model → Run) :
    let r := (readingRun disk warnings line input next).printed
    r.disk = disk ∧ r.exitCode = 1 ∧ r.lines = [] := by
  rw [readingRun]
  obtain ⟨cause, heq⟩ := announced_of_not_encodable hline disk warnings _
  rw [heq]
  exact ⟨rfl, rfl, rfl⟩

/-- The lines behind the announcement of a document that is not read. -/
def unreadLines (disk : Disk) (input : Path) : List String :=
  if IsEncodable input.text then
    match Document.parseFile disk input.text with
    | .error f => (printable (reportLines f)).1
    | .ok _ => []
  else []

/-- A document that is not read ends every run that reads it in the same way. -/
theorem readingRun_of_not_reads (hread : ∀ m, ¬ Reads disk input m)
    (hline : IsEncodable line ↔ IsEncodable input.text) (warnings : List String)
    (next : Model → Run) :
    let r := (readingRun disk warnings line input next).printed
    r.disk = disk ∧ r.exitCode = 1 ∧ r.lines.tail = unreadLines disk input := by
  by_cases hinput : IsEncodable input.text
  · cases hparse : Document.parseFile disk input.text with
    | ok m => exact absurd ⟨hinput, hparse⟩ (hread m)
    | error f =>
        obtain ⟨hdisk, hcode, hlines⟩ :=
          readingRun_of_error (hline.2 hinput) hparse warnings next
        refine ⟨hdisk, hcode, ?_⟩
        rw [hlines, unreadLines, if_pos hinput, hparse]
        rfl
  · obtain ⟨hdisk, hcode, hlines⟩ :=
      readingRun_of_not_encodable (mt hline.1 hinput) disk input warnings next
    refine ⟨hdisk, hcode, ?_⟩
    rw [hlines, unreadLines, if_neg hinput]
    rfl

end Stage

/-! ### Validating -/

theorem disk_validate (disk : Disk) (input : Path) : (validate disk input).printed.disk = disk := by
  have hline := encodable_validating_iff input
  rw [validate_eq]
  by_cases hread : ∃ m, Reads disk input m
  · obtain ⟨m, hread⟩ := hread
    rw [readingRun_of_reads hread hline, Run.disk_printed]
    rfl
  · exact (readingRun_of_not_reads (not_exists.1 hread) hline _ _).1

/-- The lines of a successful validation can be printed exactly when the summary can. -/
theorem encodable_validLines_iff {input : Path} (hinput : IsEncodable input.text) (s : Summary) :
    (∀ line ∈ validating input :: "✅ Domain model is valid" :: summaryLines true s,
      IsEncodable line) ↔ IsPrintable s := by
  have hvalid : IsEncodable "✅ Domain model is valid" := by decide
  rw [List.forall_mem_cons, List.forall_mem_cons, encodable_summaryLines_iff]
  exact ⟨fun h => h.2.2, fun h => ⟨(encodable_validating_iff input).2 hinput, hvalid, h⟩⟩

/-- Validating succeeds exactly when a model is read whose summary can be printed. -/
theorem exitCode_validate_eq_zero_iff (disk : Disk) (input : Path) :
    (validate disk input).printed.exitCode = 0 ↔
      ∃ m, Reads disk input m ∧ IsPrintable m.summary := by
  have hline := encodable_validating_iff input
  rw [validate_eq]
  by_cases hread : ∃ m, Reads disk input m
  · obtain ⟨m, hread⟩ := hread
    -- A document has one model, so the summary that counts is that of `m`.
    have hunique : ∀ m', Reads disk input m' → m' = m := fun m' hread' =>
      Except.ok.inj (hread'.2.symm.trans hread.2)
    rw [readingRun_of_reads hread hline]
    by_cases hprint : IsPrintable m.summary
    · rw [Run.printed_of_encodable ((encodable_validLines_iff hread.1 _).2 hprint)]
      exact ⟨fun _ => ⟨m, hread, hprint⟩, fun _ => rfl⟩
    · rw [Run.exitCode_printed_of_not_encodable (mt (encodable_validLines_iff hread.1 _).1 hprint)]
      refine ⟨nofun, ?_⟩
      rintro ⟨m', hread', hprint'⟩
      exact absurd (hunique m' hread' ▸ hprint') hprint
  · rw [(readingRun_of_not_reads (not_exists.1 hread) hline _ _).2.1]
    exact ⟨nofun, fun ⟨m, hm, _⟩ => absurd ⟨m, hm⟩ hread⟩

/-! ### Agreement -/

/-- Validating changes nothing, and generating changes nothing unless it gets past reading the
document. Where the settings load, validating succeeds exactly when generating gets past reading
with a model whose summary can be printed. Where generating does not get past reading, both fail and
print the same lines behind the announcement; a failure that is reported is the last of them. -/
theorem validate_agrees_with_generate (disk : Disk) (env : Environment) (input output : Path)
    (config : Option Path) (packageName : Option String) (servicePort : Option Int)
    (verbose verbose' : Bool) :
    let v := Invocation.run disk env (.validate input verbose)
    let g := Invocation.run disk env
      (.generate input output config packageName servicePort verbose')
    v.disk = disk ∧
      (∀ f, settings disk env config packageName servicePort = .error f →
        g.disk = disk ∧ g.exitCode = 1) ∧
      ∀ s, settings disk env config packageName servicePort = .ok s →
        (v.exitCode = 0 ↔ ∃ m, Reads disk input m ∧ IsPrintable m.summary) ∧
        (∀ m, Reads disk input m → g = (((generateProject disk output s m
          (Document.fileNotes disk input.text) (settingsWarnings disk env config)).after
            (reading input)).printed.showing verbose')) ∧
        ((∀ m, ¬ Reads disk input m) →
          v.exitCode = 1 ∧ g.exitCode = 1 ∧ g.disk = disk ∧ v.lines.tail = g.lines.tail) ∧
        ∀ f, IsEncodable input.text → Document.parseFile disk input.text = .error f →
          f.isReported = true → IsEncodable (failureLine f) →
            v.lines = [validating input, failureLine f] ∧
              g.lines = [reading input, failureLine f] := by
  have hvalidating := encodable_validating_iff input
  have hreading := encodable_reading_iff input
  simp only [Invocation.run, Run.disk_showing, Run.lines_showing, Run.exitCode_showing]
  refine ⟨disk_validate disk input, ?_, ?_⟩
  · intro f hsettings
    obtain ⟨hdisk, hcode⟩ := generate_of_settings_error hsettings input output
    exact ⟨(Run.disk_printed _).trans hdisk, Run.exitCode_printed_of_failed hcode⟩
  · intro s hsettings
    rw [generate_of_settings hsettings]
    refine ⟨exitCode_validate_eq_zero_iff disk input, ?_, ?_, ?_⟩
    · intro m hread
      rw [readingRun_of_reads hread hreading]
    · intro hread
      rw [validate_eq]
      obtain ⟨-, hcode, hlines⟩ := readingRun_of_not_reads hread hvalidating [] _
      obtain ⟨hdisk', hcode', hlines'⟩ := readingRun_of_not_reads hread hreading
        (settingsWarnings disk env config) _
      exact ⟨hcode, hcode', hdisk', hlines.trans hlines'.symm⟩
    · intro f hinput hparse hreported hline
      have hreport : (printable (reportLines f)).1 = [failureLine f] := by
        rw [reportLines, if_pos hreported, printable_cons hline]
        rfl
      rw [validate_eq, (readingRun_of_error (hvalidating.2 hinput) hparse _ _).2.2,
        (readingRun_of_error (hreading.2 hinput) hparse _ _).2.2, hreport]
      exact ⟨rfl, rfl⟩

/-- A disk with a document whose version has a surrogate. -/
def surrogateDisk : Disk := [(.ofString "m.yaml", .file
  "version: \"1.0\\ud800\"\nbounded_context: \x7bname: A, namespace: a\x7d\n".toUTF8.toList)]

/-- Validating can fail although generating gets past reading the document. -/
theorem surrogate_version_disagrees :
    settings surrogateDisk (fun _ => none) none none none = .ok Settings.usual ∧
      (∃ m, Reads surrogateDisk (.ofString "m.yaml") m) ∧
      (Invocation.run surrogateDisk (fun _ => none)
        (.validate (.ofString "m.yaml") false)).exitCode = 1 := by
  have hread : (Document.parseFile surrogateDisk (Path.ofString "m.yaml").text).isOk = true := by
    decide +kernel
  refine ⟨rfl, ?_, by decide +kernel⟩
  cases hparse : Document.parseFile surrogateDisk (Path.ofString "m.yaml").text with
  | ok m => exact ⟨m, by decide, hparse⟩
  | error f =>
      rw [hparse] at hread
      cases hread

end Groundplan.CommandLine
