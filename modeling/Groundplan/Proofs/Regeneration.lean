import Groundplan.Project.Write
import Groundplan.Proofs.BareProject
import Groundplan.Proofs.DiskChanges

/-!
# Generating into a directory again

Every project has the same paths, so a project written over another one meets the directories that
it needs and replaces every file. What is on the disk after that is what would be there had the
first project never been written.

This takes a project that can be written at all. Rendering may break off, and a text may have
surrogates and no encoding; neither depends on the disk. Writing stops at a text without an
encoding, its file is left empty, and the files behind it are still those of the first project.
-/

namespace Groundplan.Project

open Disk

/-! ### Making directories -/

theorem keeps_makeAll (disk : Disk) (ps : List Path) : disk.Keeps (makeAll disk ps).1 := by
  induction ps generalizing disk with
  | nil => exact .refl disk
  | cons p ps ih =>
      have hfirst : disk.Keeps (disk.makeDirectories p).1 :=
        keeps_makeDirectoriesFrom disk p.parts.length p
      rw [makeAll]
      cases hmade : disk.makeDirectories p with
      | mk made refusal =>
          rw [hmade] at hfirst
          cases refusal with
          | some refusal => exact hfirst
          | none => exact hfirst.trans (ih made)

theorem isDirectory_makeAll {disk : Disk} {ps : List Path} (h : (makeAll disk ps).2 = none) :
    ∀ p ∈ ps, (makeAll disk ps).1.isDirectory p = true := by
  induction ps generalizing disk with
  | nil => simp
  | cons p ps ih =>
      rw [makeAll] at h ⊢
      cases hmade : disk.makeDirectories p with
      | mk made refusal =>
          rw [hmade] at h
          cases refusal with
          | some refusal => cases h
          | none =>
              have hfirst : made.isDirectory p = true := by
                have hnone : (disk.makeDirectoriesFrom p.parts.length p).2 = none := by
                  rw [← makeDirectories, hmade]
                have hthere := isDirectory_makeDirectoriesFrom hnone
                rwa [← makeDirectories, hmade] at hthere
              intro q hq
              rcases List.mem_cons.1 hq with rfl | hq
              · exact isDirectory_of_keeps (keeps_makeAll made ps) hfirst
              · exact ih h q hq

/-- Directories that are there are not made. -/
theorem makeAll_of_isDirectory {disk : Disk} {ps : List Path}
    (h : ∀ p ∈ ps, disk.isDirectory p = true) : makeAll disk ps = (disk, none) := by
  induction ps with
  | nil => rfl
  | cons p ps ih =>
      obtain ⟨hp, hps⟩ := List.forall_mem_cons.1 h
      rw [makeAll, makeDirectories_of_isDirectory hp]
      exact ih hps

/-! ### Writing files -/

/-- A file can be written by a path below a directory that is there. -/
structure Receives (disk : Disk) (p : Path) : Prop where
  below : disk.isDirectory p.parent = true
  admits : ∃ location, disk.Admits p location

theorem Receives.of_sameDirectories {disk disk' : Disk} (hsame : disk.SameDirectories disk')
    {p : Path} (h : Receives disk p) : Receives disk' p where
  below := isDirectory_of_keeps hsame.1 h.below
  admits := h.admits.imp fun _ hadmits => hadmits.of_sameDirectories hsame

/-- The location that a path leads to, if it leads to one. -/
def landing (disk : Disk) (p : Path) : Path :=
  match disk.locate p with
  | .ok location => location
  | .error _ => p

theorem Receives.landing_admits {disk : Disk} {p : Path} (h : Receives disk p) :
    disk.Admits p (landing disk p) := by
  obtain ⟨location, hadmits⟩ := h.admits
  rwa [landing, hadmits.located]

theorem Receives.landing_eq {disk disk' : Disk} (hsame : disk.SameDirectories disk') {p : Path}
    (h : Receives disk p) : landing disk' p = landing disk p := by
  have hthere := h.landing_admits.of_sameDirectories hsame
  rw [landing, hthere.located]

theorem writeFile_of_receives {disk : Disk} {p : Path} (h : Receives disk p) (text : String) :
    writeFile disk p text = (disk.put (landing disk p) (.file (contentOf text)),
      (Text.encodeFault? text).map .unencodable) := by
  rw [writeFile, makeDirectories_of_isDirectory h.below]
  exact writeText_of_admits h.landing_admits text

theorem sameDirectories_put_landing {disk : Disk} {p : Path} (h : Receives disk p)
    (content : List UInt8) : disk.SameDirectories (disk.put (landing disk p) (.file content)) :=
  sameDirectories_put_file h.landing_admits.free content

/-- What writing some files puts on a disk, if all of them can be encoded. -/
def placed (disk : Disk) (files : List (Path × String)) : List (Path × Entry) :=
  files.map fun file => (landing disk file.1, .file (contentOf file.2))

theorem map_fst_placed (disk : Disk) (files : List (Path × String)) :
    (placed disk files).map Prod.fst = (files.map Prod.fst).map (landing disk) := by
  rw [placed, List.map_map, List.map_map]
  rfl

theorem placed_eq {disk disk' : Disk} (hsame : disk.SameDirectories disk')
    {files : List (Path × String)} (h : ∀ file ∈ files, Receives disk file.1) :
    placed disk' files = placed disk files :=
  List.map_congr_left fun file hfile => by rw [(h file hfile).landing_eq hsame]

theorem sameDirectories_putAll_placed {disk : Disk} {files : List (Path × String)}
    (h : ∀ file ∈ files, Receives disk file.1) :
    disk.SameDirectories (disk.putAll (placed disk files)) := by
  induction files generalizing disk with
  | nil => exact .refl disk
  | cons file files ih =>
      obtain ⟨hfile, hfiles⟩ := List.forall_mem_cons.1 h
      have hput := sameDirectories_put_landing hfile (contentOf file.2)
      have hrest := ih fun other hother => (hfiles other hother).of_sameDirectories hput
      rw [placed_eq hput hfiles] at hrest
      exact hput.trans hrest

/-- Files that are received fail at the first text that cannot be encoded, and at nothing else. -/
theorem failure_writeAll {disk : Disk} {files : List (Path × String)}
    (h : ∀ file ∈ files, Receives disk file.1) :
    (writeAll disk files).failure =
      (files.findSome? fun file => Text.encodeFault? file.2).map .unencodable := by
  induction files generalizing disk with
  | nil => rfl
  | cons file files ih =>
      obtain ⟨p, text⟩ := file
      obtain ⟨hfile, hfiles⟩ := List.forall_mem_cons.1 h
      rw [writeAll, writeFile_of_receives hfile, List.findSome?_cons]
      cases Text.encodeFault? text with
      | some fault => rfl
      | none =>
          have hput := sameDirectories_put_landing hfile (contentOf text)
          exact ih fun other hother => (hfiles other hother).of_sameDirectories hput

theorem writeAll_of_encodable {disk : Disk} {files : List (Path × String)}
    (h : ∀ file ∈ files, Receives disk file.1)
    (hencodable : ∀ file ∈ files, Text.IsEncodable file.2) :
    writeAll disk files = ⟨disk.putAll (placed disk files), files.map Prod.fst, none⟩ := by
  induction files generalizing disk with
  | nil => rfl
  | cons file files ih =>
      obtain ⟨p, text⟩ := file
      obtain ⟨hfile, hfiles⟩ := List.forall_mem_cons.1 h
      obtain ⟨htext, htexts⟩ := List.forall_mem_cons.1 hencodable
      have hput := sameDirectories_put_landing hfile (contentOf text)
      have hrest := ih (fun other hother => (hfiles other hother).of_sameDirectories hput) htexts
      have hnone : Text.encodeFault? text = none := htext
      rw [writeAll, writeFile_of_receives hfile, hnone]
      simp only [Option.map_none]
      rw [hrest, placed_eq hput hfiles]
      rfl

/-- Files that were written below directories that were there are files that the disk receives. -/
theorem receives_of_writeAll {disk : Disk} {files : List (Path × String)}
    (hbelow : ∀ file ∈ files, disk.isDirectory file.1.parent = true)
    (h : (writeAll disk files).failure = none) :
    ∀ file ∈ files, Receives disk file.1 ∧ Text.IsEncodable file.2 := by
  induction files generalizing disk with
  | nil => simp
  | cons file files ih =>
      obtain ⟨p, text⟩ := file
      obtain ⟨hp, hps⟩ := List.forall_mem_cons.1 hbelow
      have hwrite : writeFile disk p text = disk.writeText p text := by
        rw [writeFile, makeDirectories_of_isDirectory hp]
      have hnone : (disk.writeText p text).2 = none := by
        rw [writeAll, hwrite] at h
        cases hwritten : disk.writeText p text with
        | mk written fault =>
            rw [hwritten] at h
            cases fault with
            | none => rfl
            | some fault => cases h
      have hreceives : Receives disk p := ⟨hp, admits_of_writeText hnone⟩
      have htext : Text.encodeFault? text = none := by
        rw [writeText_of_admits hreceives.landing_admits] at hnone
        exact Option.map_eq_none_iff.1 hnone
      -- A file in its place changes no directory, so the rest goes on as on the disk before.
      have hput := sameDirectories_put_landing hreceives (contentOf text)
      rw [writeAll, writeFile_of_receives hreceives, htext] at h
      have hrest := ih (fun other hother => isDirectory_of_keeps hput.1 (hps other hother)) h
      refine List.forall_mem_cons.2 ⟨⟨hreceives, htext⟩, fun other hother => ?_⟩
      exact (hrest other hother).imp (.of_sameDirectories hput.symm) id

/-! ### The paths of a project -/

/-- The paths of all projects, in order. -/
def allPaths : List String :=
  (renderers.map Prod.fst).mergeSort fun a b => !(b < a)

theorem map_fst_sortedFiles (m : Model) (s : Settings) :
    (render m s).sortedFiles.map Prod.fst = allPaths := by
  have hfiles : (render m s).files.map Prod.fst = renderers.map Prod.fst := by
    rw [render, List.map_map]
    rfl
  rw [sortedFiles, allPaths, ← hfiles]
  exact List.map_mergeSort fun _ _ _ _ => rfl

theorem map_fst_filesUnder (root : Path) (m : Model) (s : Settings) :
    ((render m s).filesUnder root).map Prod.fst = allPaths.map root.join := by
  rw [← map_fst_sortedFiles m s, filesUnder, List.map_map, List.map_map]
  rfl

theorem exists_path_of_mem_filesUnder {root : Path} {m : Model} {s : Settings}
    {file : Path × String} (h : file ∈ (render m s).filesUnder root) :
    ∃ path ∈ allPaths, root.join path = file.1 := by
  rw [← List.mem_map, ← map_fst_filesUnder root m s]
  exact List.mem_map_of_mem h

theorem mem_sortedFiles_iff (p : Project) (file : String × String) :
    file ∈ p.sortedFiles ↔ file ∈ p.files :=
  (List.mergeSort_perm _ _).mem_iff

/-- Every path has a name, and what is above it is the output directory or a directory of all
projects. -/
theorem parent_mem_directoriesUnder (root : Path) {path : String} (h : path ∈ allPaths) :
    (root.join path).parent ∈ directoriesUnder root := by
  have hnames : ∀ path ∈ renderers.map Prod.fst,
      Path.names path ≠ [] ∧ (Path.names path).dropLast ∈ [] :: directories.map Path.names := by
    decide +kernel
  obtain ⟨hne, habove⟩ := hnames path ((List.mergeSort_perm _ _).mem_iff.1 h)
  have hparent : (root.join path).parent =
      { root with parts := root.parts ++ (Path.names path).dropLast } := by
    rw [Path.parent, Path.join, List.dropLast_append_of_ne_nil hne]
  rw [hparent, directoriesUnder]
  rcases List.mem_cons.1 habove with hroot | hbelow
  · simp [hroot]
  · obtain ⟨directory, hdirectory, hnames⟩ := List.mem_map.1 hbelow
    rw [← hnames]
    exact List.mem_cons_of_mem root (List.mem_map_of_mem hdirectory)

/-! ### Generating -/

/-- The project of a model can be written: rendering it does not break off, and every text of it
can be encoded. -/
def CanBeWritten (m : Model) (s : Settings) : Prop :=
  (renderTrail m s).obstacle = none ∧ ∀ file ∈ (render m s).files, Text.IsEncodable file.2

/-- The disk with the directories of a project and without its files. -/
def prepared (disk : Disk) (root : Path) : Disk :=
  (makeAll disk (directoriesUnder root)).1

/-- The disk with the files of a project in their places. -/
def filled (disk : Disk) (root : Path) (p : Project) : Disk :=
  (prepared disk root).putAll (placed (prepared disk root) (p.filesUnder root))

/-- A disk takes projects under an output directory, whatever their texts are. -/
structure Accepts (disk : Disk) (root : Path) : Prop where
  askable : Failure.ofPath? root = none
  made : (makeAll disk (directoriesUnder root)).2 = none
  received : ∀ path ∈ allPaths, Receives (prepared disk root) (root.join path)

theorem result_eq_ok {m : Model} {s : Settings} (h : (renderTrail m s).obstacle = none) :
    (renderTrail m s).result (render m s) = .ok (render m s) := by
  rw [Trail.result, h]

theorem generate_eq_write {disk : Disk} {root : Path} {m : Model} {s : Settings}
    (h : (renderTrail m s).obstacle = none) :
    generate disk root m s = (render m s).write disk root := by
  unfold generate
  rw [result_eq_ok h]

theorem rendered_of_generate {disk : Disk} {root : Path} {m : Model} {s : Settings}
    (h : (generate disk root m s).failure = none) : (renderTrail m s).obstacle = none := by
  unfold generate Trail.result at h
  cases hobstacle : (renderTrail m s).obstacle with
  | none => rfl
  | some obstacle =>
      rw [hobstacle] at h
      cases obstacle <;> cases h

/-- A disk that one project was written to accepts every project. -/
theorem accepts_of_generate {disk : Disk} {root : Path} {m : Model} {s : Settings}
    (h : (generate disk root m s).failure = none) : Accepts disk root := by
  rw [generate_eq_write (rendered_of_generate h), write] at h
  cases haskable : Failure.ofPath? root with
  | some failure => simp [haskable] at h
  | none =>
      rw [haskable] at h
      cases hmade : makeAll disk (directoriesUnder root) with
      | mk made failure =>
          rw [hmade] at h
          cases failure with
          | some failure => cases h
          | none =>
              have hnone : (makeAll disk (directoriesUnder root)).2 = none := by rw [hmade]
              have hprepared : prepared disk root = made := by rw [prepared, hmade]
              -- Every file is below a directory of the project, so writing it made none, and that
              -- it was written tells where it can be written.
              have hbelow : ∀ file ∈ (render m s).filesUnder root,
                  made.isDirectory file.1.parent = true := by
                intro file hfile
                obtain ⟨path, hpath, heq⟩ := exists_path_of_mem_filesUnder hfile
                have hthere := isDirectory_makeAll hnone _ (parent_mem_directoriesUnder root hpath)
                rwa [hmade, heq] at hthere
              have hreceives := receives_of_writeAll hbelow h
              refine ⟨haskable, hnone, fun path hpath => ?_⟩
              have hfile : root.join path ∈ ((render m s).filesUnder root).map Prod.fst := by
                rw [map_fst_filesUnder]
                exact List.mem_map_of_mem hpath
              obtain ⟨file, hfile, heq⟩ := List.mem_map.1 hfile
              rw [hprepared, ← heq]
              exact (hreceives file hfile).1

namespace Accepts

variable {disk : Disk} {root : Path} {m : Model} {s : Settings}

theorem write_eq (h : Accepts disk root) (p : Project) :
    p.write disk root = writeAll (prepared disk root) (p.filesUnder root) := by
  have hmade : makeAll disk (directoriesUnder root) = (prepared disk root, none) := by
    rw [← h.made, prepared]
  rw [write, h.askable, hmade]

theorem receives (h : Accepts disk root) (m : Model) (s : Settings) :
    ∀ file ∈ (render m s).filesUnder root, Receives (prepared disk root) file.1 := by
  intro file hfile
  obtain ⟨path, hpath, heq⟩ := exists_path_of_mem_filesUnder hfile
  rw [← heq]
  exact h.received path hpath

theorem failure_write (h : Accepts disk root) (m : Model) (s : Settings) :
    ((render m s).write disk root).failure =
      ((render m s).sortedFiles.findSome? fun file => Text.encodeFault? file.2).map
        .unencodable := by
  rw [h.write_eq, failure_writeAll (h.receives m s), filesUnder, List.findSome?_map]
  rfl

/-- On disks that accept it, a project fails for reasons of its own. -/
theorem failure_generate_eq {disk' : Disk} (h : Accepts disk root) (h' : Accepts disk' root)
    (m : Model) (s : Settings) :
    (generate disk root m s).failure = (generate disk' root m s).failure := by
  cases hobstacle : (renderTrail m s).obstacle with
  | some obstacle =>
      unfold generate Trail.result
      rw [hobstacle]
  | none =>
      rw [generate_eq_write hobstacle, generate_eq_write hobstacle, h.failure_write,
        h'.failure_write]

theorem generate_eq (h : Accepts disk root) (hwritten : CanBeWritten m s) :
    generate disk root m s =
      ⟨filled disk root (render m s), allPaths.map root.join, none⟩ := by
  have hencodable : ∀ file ∈ (render m s).filesUnder root, Text.IsEncodable file.2 := by
    intro file hfile
    obtain ⟨found, hfound, rfl⟩ := List.mem_map.1 hfile
    exact hwritten.2 found ((mem_sortedFiles_iff _ found).1 hfound)
  rw [generate_eq_write hwritten.1, h.write_eq, ← map_fst_filesUnder root m s]
  exact writeAll_of_encodable (h.receives m s) hencodable

theorem failure_generate_eq_none_iff (h : Accepts disk root) (m : Model) (s : Settings) :
    (generate disk root m s).failure = none ↔ CanBeWritten m s := by
  constructor
  · intro hnone
    have hrendered := rendered_of_generate hnone
    refine ⟨hrendered, fun file hfile => ?_⟩
    rw [generate_eq_write hrendered, h.failure_write] at hnone
    have hall := List.findSome?_eq_none_iff.1 (Option.map_eq_none_iff.1 hnone)
    exact hall file ((mem_sortedFiles_iff _ file).2 hfile)
  · intro hwritten
    rw [h.generate_eq hwritten]

/-! ### Generating over a project -/

theorem sameDirectories_filled (h : Accepts disk root) (m : Model) (s : Settings) :
    (prepared disk root).SameDirectories (filled disk root (render m s)) :=
  sameDirectories_putAll_placed (h.receives m s)

theorem makeAll_filled (h : Accepts disk root) (m : Model) (s : Settings) :
    makeAll (filled disk root (render m s)) (directoriesUnder root) =
      (filled disk root (render m s), none) :=
  makeAll_of_isDirectory fun p hp =>
    isDirectory_of_keeps (h.sameDirectories_filled m s).1 (isDirectory_makeAll h.made p hp)

/-- A project needs no directories that another one did not need. -/
theorem prepared_filled (h : Accepts disk root) (m : Model) (s : Settings) :
    prepared (filled disk root (render m s)) root = filled disk root (render m s) := by
  rw [prepared, h.makeAll_filled]

/-- What accepts one project accepts another one over it. -/
theorem filled (h : Accepts disk root) (m : Model) (s : Settings) :
    Accepts (filled disk root (render m s)) root where
  askable := h.askable
  made := by rw [h.makeAll_filled]
  received := fun path hpath => by
    rw [h.prepared_filled]
    exact (h.received path hpath).of_sameDirectories (h.sameDirectories_filled m s)

/-- The files of one project leave nothing of those of another. -/
theorem filled_filled (h : Accepts disk root) (a b : Model) (s t : Settings) :
    Project.filled (Project.filled disk root (render a s)) root (render b t) =
      Project.filled disk root (render b t) := by
  have hplaces : placed (Project.filled disk root (render a s)) ((render b t).filesUnder root) =
      placed (prepared disk root) ((render b t).filesUnder root) :=
    placed_eq (h.sameDirectories_filled a s) (h.receives b t)
  have hlocations : (placed (prepared disk root) ((render a s).filesUnder root)).map Prod.fst =
      (placed (prepared disk root) ((render b t).filesUnder root)).map Prod.fst := by
    rw [map_fst_placed, map_fst_placed, map_fst_filesUnder, map_fst_filesUnder]
  -- Both projects have the same paths, and each path leads to the same place as before.
  calc
    Project.filled (Project.filled disk root (render a s)) root (render b t)
        = (Project.filled disk root (render a s)).putAll
            (placed (prepared disk root) ((render b t).filesUnder root)) := by
          rw [Project.filled, h.prepared_filled, hplaces]
    _ = Project.filled disk root (render b t) := putAll_putAll _ hlocations

end Accepts

/-! ### A disk and two projects -/

theorem accepts_empty : Accepts [] (.ofString "out") where
  askable := by decide +kernel
  made := by decide +kernel
  received := by
    have hpaths : ∀ path ∈ renderers.map Prod.fst,
        (prepared [] (.ofString "out")).isDirectory ((Path.ofString "out").join path).parent =
            true ∧
          (prepared [] (.ofString "out")).locate ((Path.ofString "out").join path) =
            .ok ((Path.ofString "out").join path) ∧
          (prepared [] (.ofString "out")).get? ((Path.ofString "out").join path) ≠
            some .directory := by
      decide +kernel
    intro path hpath
    obtain ⟨hbelow, hlocated, hfree⟩ := hpaths path ((List.mergeSort_perm _ _).mem_iff.1 hpath)
    exact ⟨hbelow, _, hlocated, hfree⟩

theorem canBeWritten_bareModel {version : String} {context : Context} {s : Settings}
    (h : CarriesPlainly version context s) : CanBeWritten (bareModel version context) s :=
  ⟨obstacle_bareModel version context s,
    fun file hfile => Text.encodable_of_unreserved (unreserved_render h file hfile)⟩

/-- The context of a depot. -/
def depot : Context := ⟨"Depot", "depot", none⟩

/-- The context of a depot whose description has a surrogate. -/
def unsaidDepot : Context := ⟨"Depot", "depot", some (String.singleton (Text.standIn 0xd800))⟩

theorem carriesPlainly_depot {version : String} (h : Text.Unreserved version) :
    CarriesPlainly version depot .usual where
  version := h
  name := by decide
  description := nofun
  packageName := nofun
  apiPath := by decide
  languageRange := by decide

theorem not_canBeWritten_unsaidDepot (s : Settings) :
    ¬ CanBeWritten (bareModel "1.0" unsaidDepot) s := by
  have hroot : ¬ Text.IsEncodable (packageRoot (bareModel "1.0" unsaidDepot)) := by decide +kernel
  intro hwritten
  refine hroot (hwritten.2 ("src/__init__.py", packageRoot (bareModel "1.0" unsaidDepot)) ?_)
  exact List.mem_map.2 ⟨("src/__init__.py", fun m _ => packageRoot m), by simp [renderers], rfl⟩

end Groundplan.Project
