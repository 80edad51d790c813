import Groundplan.Proofs.DiskFrames
import Groundplan.Proofs.Regeneration

/-!
# What writing a project comes to

A project is written in two runs, over its directories and over its files in order of path. The
first run only adds directories, so if it is refused no file has changed. The second one replaces
files, each at a location of its own, so if it is refused the files before that one hold their texts
and all others are as they were. Whatever comes of it, nothing changes but below the output
directory and where directories on the way to it were missing.

There is one more way to fail. A text may have no encoding; this is found out when its file has been
emptied, so that one file is neither as it was nor as it should be, and the failure names no path.
-/

namespace Groundplan.Project

open Disk

/-! ### Directories -/

theorem grows_makeAll (disk : Disk) (ps : List Path) :
    Grows (fun q => ∃ p ∈ ps, q ∈ p.beginnings) disk (makeAll disk ps).1 := by
  induction ps generalizing disk with
  | nil => exact .refl _ disk
  | cons p ps ih =>
      have hfirst : Grows (fun q => ∃ p' ∈ p :: ps, q ∈ p'.beginnings) disk
          (disk.makeDirectories p).1 :=
        (grows_makeDirectoriesFrom disk p.parts.length p).mono fun q hq => ⟨p, by simp, hq⟩
      rw [makeAll]
      cases hmade : disk.makeDirectories p with
      | mk made refusal =>
          rw [hmade] at hfirst
          cases refusal with
          | some refusal => exact hfirst
          | none =>
              refine hfirst.trans ((ih made).mono ?_)
              rintro q ⟨p', hp', hq⟩
              exact ⟨p', by simp [hp'], hq⟩

/-- Directories are not made where one on the way to one of them cannot be made. -/
theorem of_makeAll_eq_some {disk : Disk} {ps : List Path} {failure : Failure}
    (h : (makeAll disk ps).2 = some failure) :
    ∃ p ∈ ps, ∃ q ∈ p.beginnings, ∃ refusal, failure = .file p (.directory refusal) ∧
      (makeAll disk ps).1.makeDirectory q = .error refusal ∧
        (makeAll disk ps).1.isDirectory q = false := by
  induction ps generalizing disk with
  | nil => cases h
  | cons p ps ih =>
      rw [makeAll] at h ⊢
      cases hmade : disk.makeDirectories p with
      | mk made refusal =>
          rw [hmade] at h
          cases refusal with
          | some refusal =>
              have hrefused : (disk.makeDirectoriesFrom p.parts.length p).2 = some refusal := by
                rw [← makeDirectories, hmade]
              obtain ⟨q, hq, hmake, hmissing⟩ := of_makeDirectoriesFrom_eq_some hrefused
              rw [← makeDirectories, hmade] at hmake hmissing
              exact ⟨p, by simp, q, hq, refusal, (Option.some.inj h).symm, hmake, hmissing⟩
          | none =>
              obtain ⟨p', hp', hrefused⟩ := ih h
              exact ⟨p', by simp [hp'], hrefused⟩

/-! ### Files -/

/-- How writing files comes to an end, on a disk that has the files before it: behind the last one,
at a path by which no file can be written, or at a text that has no encoding. -/
inductive Ends (now : Disk) (written : List Path) : List (Path × String) → Writing → Prop where
  | done : Ends now written [] ⟨now, written, none⟩
  | refused {p : Path} {text : String} {after : List (Path × String)} {refusal : Refusal}
      (hrefused : ∀ content, now.write p content = .error refusal) :
      Ends now written ((p, text) :: after) ⟨now, written, some (.file p (.unwritable refusal))⟩
  | unencodable {p : Path} {text : String} {after : List (Path × String)} {fault : Text.EncodeFault}
      (hreceives : Receives now p) (hfault : Text.encodeFault? text = some fault) :
      Ends now written ((p, text) :: after)
        ⟨now.put (landing now p) (.file (contentOf text)), written, some (.unencodable fault)⟩

theorem Ends.cons {now : Disk} {written : List Path} {rest : List (Path × String)} {w : Writing}
    (h : Ends now written rest w) (p : Path) :
    Ends now (p :: written) rest { w with written := p :: w.written } := by
  cases h with
  | done => exact .done
  | refused hrefused => exact .refused hrefused
  | unencodable hreceives hfault => exact .unencodable hreceives hfault

/-- A path that no file can be written by refuses every content in the same way. -/
theorem write_eq_error {disk : Disk} {p : Path} {content : List UInt8} {refusal : Refusal}
    (h : disk.write p content = .error refusal) (other : List UInt8) :
    disk.write p other = .error refusal := by
  unfold Disk.write at h ⊢
  cases hlocate : disk.locate p with
  | error reason => simpa [hlocate] using h
  | ok location =>
      cases hfound : disk.get? location with
      | none => simp [hlocate, hfound] at h
      | some entry =>
          cases entry with
          | file old => simp [hlocate, hfound] at h
          | directory => simpa [hlocate, hfound] using h

/-- A file is written, or its text has no encoding, or its path is refused. -/
theorem writeFile_cases {disk : Disk} {p : Path} (hbelow : disk.isDirectory p.parent = true)
    (text : String) :
    (Receives disk p ∧ writeFile disk p text = (disk.put (landing disk p) (.file (contentOf text)),
        (Text.encodeFault? text).map .unencodable)) ∨
      ∃ refusal, (∀ content, disk.write p content = .error refusal) ∧
        writeFile disk p text = (disk, some (.refused refusal)) := by
  cases hwrite : disk.write p (contentOf text) with
  | ok written =>
      obtain ⟨location, hadmits⟩ := admits_of_write hwrite
      have hreceives : Receives disk p := ⟨hbelow, location, hadmits⟩
      exact .inl ⟨hreceives, writeFile_of_receives hreceives text⟩
  | error refusal =>
      refine .inr ⟨refusal, write_eq_error hwrite, ?_⟩
      rw [writeFile, makeDirectories_of_isDirectory hbelow]
      simp only [writeText, write_eq_error hwrite]

/-- Files are written in order up to where writing ends, and each of those before was received and
could be encoded. -/
theorem exists_ends {disk : Disk} {files : List (Path × String)}
    (hbelow : ∀ file ∈ files, disk.isDirectory file.1.parent = true) :
    ∃ before rest, files = before ++ rest ∧
      (∀ file ∈ before, Receives disk file.1 ∧ Text.IsEncodable file.2) ∧
      Ends (disk.putAll (placed disk before)) (before.map Prod.fst) rest (writeAll disk files) := by
  induction files generalizing disk with
  | nil => exact ⟨[], [], rfl, by simp, .done⟩
  | cons file files ih =>
      obtain ⟨p, text⟩ := file
      obtain ⟨hp, hps⟩ := List.forall_mem_cons.1 hbelow
      rcases writeFile_cases hp text with ⟨hreceives, hwrite⟩ | ⟨refusal, hrefused, hwrite⟩
      · cases hfault : Text.encodeFault? text with
        | some fault =>
            refine ⟨[], (p, text) :: files, rfl, by simp, ?_⟩
            rw [writeAll, hwrite, hfault]
            exact .unencodable hreceives hfault
        | none =>
            -- A file in its place changes no directory, so the rest goes on as on the disk before.
            have hput := sameDirectories_put_landing hreceives (contentOf text)
            obtain ⟨before, rest, rfl, hbefore, hends⟩ :=
              ih fun file hfile => isDirectory_of_keeps hput.1 (hps file hfile)
            have hback : ∀ file ∈ before, Receives disk file.1 ∧ Text.IsEncodable file.2 :=
              fun file hfile => (hbefore file hfile).imp (.of_sameDirectories hput.symm) id
            rw [placed_eq hput fun file hfile => (hback file hfile).1] at hends
            refine ⟨(p, text) :: before, rest, rfl,
              List.forall_mem_cons.2 ⟨⟨hreceives, hfault⟩, hback⟩, ?_⟩
            rw [writeAll, hwrite, hfault]
            exact hends.cons p
      · refine ⟨[], (p, text) :: files, rfl, by simp, ?_⟩
        rw [writeAll, hwrite]
        exact .refused hrefused

/-! ### The places of a project -/

/-- The names in the paths of a project lead down, and no two paths have the same names. -/
theorem names_spec :
    (∀ path ∈ directories ++ renderers.map Prod.fst,
      Path.names path ≠ [] ∧ ∀ name ∈ Path.names path, IsPlainName name) ∧
      ((renderers.map Prod.fst).map Path.names).Nodup := by
  decide +kernel

theorem mem_renderers_of_mem_allPaths {path : String} (h : path ∈ allPaths) :
    path ∈ renderers.map Prod.fst :=
  (List.mergeSort_perm _ _).mem_iff.1 h

theorem plain_of_mem_allPaths {path : String} (h : path ∈ allPaths) :
    Path.names path ≠ [] ∧ ∀ name ∈ Path.names path, IsPlainName name :=
  names_spec.1 path (List.mem_append_right _ (mem_renderers_of_mem_allPaths h))

theorem nodup_allPaths : allPaths.Nodup :=
  (List.mergeSort_perm _ _).nodup_iff.2 (List.Nodup.of_map _ names_spec.2)

/-- The paths of a project are in strict order. -/
theorem pairwise_allPaths : allPaths.Pairwise (· < ·) := by
  have hle (a b : String) : (!decide (b < a)) = true ↔ a ≤ b := by
    rw [Bool.not_eq_true', decide_eq_false_iff_not, String.not_lt]
  have hsorted := @List.pairwise_mergeSort _ (fun a b : String => !(b < a))
    (fun a b c hab hbc => (hle a c).2 (String.le_trans ((hle a b).1 hab) ((hle b c).1 hbc)))
    (fun a b => by rw [Bool.or_eq_true, hle, hle]; exact String.le_total a b)
    (renderers.map Prod.fst)
  refine List.Pairwise.imp₂ (fun a b hab hne => ?_) hsorted nodup_allPaths
  by_contra hlt
  exact hne (String.le_antisymm ((hle a b).1 hab) (String.not_lt.1 hlt))

/-- A file of a project leads to a place of its own below the output directory. -/
theorem locate_file {disk : Disk} {root top location : Path} {path : String}
    (hroot : disk.locate root = .ok top) (hpath : path ∈ allPaths)
    (h : disk.locate (root.join path) = .ok location) : location = top.join path :=
  locate_join hroot (plain_of_mem_allPaths hpath).2 h

theorem join_inj {top : Path} {path path' : String} (hpath : path ∈ allPaths)
    (hpath' : path' ∈ allPaths) (h : top.join path = top.join path') : path = path' := by
  have hnames : Path.names path = Path.names path' :=
    List.append_cancel_left (congrArg Path.parts h)
  exact List.inj_on_of_nodup_map names_spec.2 (mem_renderers_of_mem_allPaths hpath)
    (mem_renderers_of_mem_allPaths hpath') hnames

section Placing

variable {disk made : Disk} {root top : Path} {m : Model} {s : Settings}

/-- No two files of a project lead to the same location. -/
theorem eq_of_locate_eq (hroot : made.locate root = .ok top) {p p' : Path}
    (hp : p ∈ ((render m s).filesUnder root).map Prod.fst)
    (hp' : p' ∈ ((render m s).filesUnder root).map Prod.fst) {location : Path}
    (h : made.locate p = .ok location) (h' : made.locate p' = .ok location) : p = p' := by
  rw [map_fst_filesUnder] at hp hp'
  obtain ⟨path, hpath, rfl⟩ := List.mem_map.1 hp
  obtain ⟨path', hpath', rfl⟩ := List.mem_map.1 hp'
  have hplace := (locate_file hroot hpath h).symm.trans (locate_file hroot hpath' h')
  rw [join_inj hpath hpath' hplace]

theorem nodup_filesUnder (root : Path) (m : Model) (s : Settings) :
    (((render m s).filesUnder root).map Prod.fst).Nodup := by
  rw [map_fst_filesUnder]
  exact List.Nodup.map_on (fun path hpath path' hpath' => join_inj hpath hpath') nodup_allPaths

/-! ### Files before and behind the end -/

/-- The files of two disks are the same but at the locations that some paths lead to. -/
def SameFilesBut (paths : List Path) (disk disk' : Disk) : Prop :=
  ∀ location, (∀ p ∈ paths, disk'.locate p ≠ .ok location) → ∀ content,
    disk'.get? location = some (.file content) ↔ disk.get? location = some (.file content)

/-- Each of some files holds the encoding of its text. -/
def HoldsTexts (disk : Disk) (files : List (Path × String)) : Prop :=
  ∀ file ∈ files, ∃ content, Text.encodeUtf8 file.2 = .ok content ∧
    disk.read file.1 = .ok content

/-- Where a path leads to there is a file if there was one before, with the same content. -/
def Untouched (disk disk' : Disk) (p : Path) : Prop :=
  ∀ location, disk'.locate p = .ok location → ∀ content,
    disk'.get? location = some (.file content) ↔ disk.get? location = some (.file content)

variable {files rest : List (Path × String)}

/-- The first files of a project are put in different locations. -/
theorem nodup_placed (hroot : made.locate root = .ok top)
    (hfiles : (render m s).filesUnder root = files ++ rest)
    (h : ∀ file ∈ files, Receives made file.1) : ((placed made files).map Prod.fst).Nodup := by
  have hmem : ∀ file ∈ files, file.1 ∈ ((render m s).filesUnder root).map Prod.fst := by
    intro file hfile
    rw [hfiles]
    exact List.mem_map_of_mem (List.mem_append_left rest hfile)
  have hnodup := nodup_filesUnder root m s
  rw [hfiles, List.map_append] at hnodup
  rw [map_fst_placed]
  refine List.Nodup.map_on (fun p hp p' hp' heq => ?_) hnodup.of_append_left
  obtain ⟨file, hfile, rfl⟩ := List.mem_map.1 hp
  obtain ⟨file', hfile', rfl⟩ := List.mem_map.1 hp'
  have hthere := (h file' hfile').landing_admits.located
  rw [← heq] at hthere
  exact eq_of_locate_eq hroot (hmem file hfile) (hmem file' hfile')
    (h file hfile).landing_admits.located hthere

/-- What is written to different locations is read from each of them. -/
theorem read_putAll_placed (hnodup : ((placed made files).map Prod.fst).Nodup)
    (h : ∀ file ∈ files, Receives made file.1) {file : Path × String} (hfile : file ∈ files) :
    (made.putAll (placed made files)).read file.1 = .ok (contentOf file.2) := by
  have hadmits := (h file hfile).landing_admits
  have hlocate := locate_of_keeps (sameDirectories_putAll_placed h).1 hadmits.located
  have hmem : (landing made file.1, Entry.file (contentOf file.2)) ∈ placed made files :=
    List.mem_map_of_mem hfile
  have hfound := get?_putAll_of_mem hnodup hmem hadmits.free
  simp only [Disk.read, hlocate, hfound]

theorem sameFilesBut_putAll (h : ∀ file ∈ files, Receives made file.1)
    (hsame : ∀ location content,
      made.get? location = some (.file content) ↔ disk.get? location = some (.file content)) :
    SameFilesBut (files.map Prod.fst) disk (made.putAll (placed made files)) := by
  intro location hother content
  have hfree : location ∉ (placed made files).map Prod.fst := by
    rw [map_fst_placed]
    intro hmem
    obtain ⟨p, hp, rfl⟩ := List.mem_map.1 hmem
    obtain ⟨file, hfile, rfl⟩ := List.mem_map.1 hp
    refine hother file.1 hp ?_
    exact locate_of_keeps (sameDirectories_putAll_placed h).1 (h file hfile).landing_admits.located
  rw [get?_putAll_of_not_mem hfree]
  exact hsame location content

/-- The files of a project behind the first ones have locations of their own. -/
theorem untouched_of_sameFilesBut {disk' : Disk} (hroot : disk'.locate root = .ok top)
    (hfiles : (render m s).filesUnder root = files ++ rest)
    (h : SameFilesBut (files.map Prod.fst) disk disk') :
    ∀ file ∈ rest, Untouched disk disk' file.1 := by
  intro file hfile location hlocate
  have hnodup := nodup_filesUnder root m s
  rw [hfiles, List.map_append] at hnodup
  have hrest : file.1 ∈ rest.map Prod.fst := List.mem_map_of_mem hfile
  refine h location fun p hp hp' => ?_
  have hmem : ∀ q, q ∈ files.map Prod.fst ∨ q ∈ rest.map Prod.fst →
      q ∈ ((render m s).filesUnder root).map Prod.fst := by
    intro q hq
    rw [hfiles, List.map_append]
    exact List.mem_append.2 hq
  have heq := eq_of_locate_eq hroot (hmem p (.inl hp)) (hmem file.1 (.inr hrest)) hp' hlocate
  exact (List.disjoint_of_nodup_append hnodup) hp (heq ▸ hrest)

end Placing

/-! ### Where changes can be -/

/-- Whether a location is below another one. -/
def LiesUnder (top location : Path) : Prop :=
  ∃ names, names ≠ [] ∧ location = { top with parts := top.parts ++ names }

/-- Nothing changed but below a directory, and where directories on the way to it were missing. -/
def StaysWithin (root : Path) (disk disk' : Disk) : Prop :=
  ∀ location, disk'.get? location = disk.get? location ∨
    (disk.get? location = none ∧ disk'.get? location = some .directory ∧
      ∃ q ∈ root.beginnings, disk'.locate q = .ok location) ∨
    ∃ top, disk'.locate root = .ok top ∧ LiesUnder top location

theorem StaysWithin.refl (root : Path) (disk : Disk) : StaysWithin root disk disk :=
  fun _ => .inl rfl

theorem StaysWithin.trans {root : Path} {disk disk' disk'' : Disk} (hkeeps : disk'.Keeps disk'')
    (h : StaysWithin root disk disk') (h' : StaysWithin root disk' disk'') :
    StaysWithin root disk disk'' := by
  intro location
  rcases h' location with hsame | ⟨hnone, hdirectory, hway⟩ | hunder
  · rw [hsame]
    rcases h location with hsame | ⟨hnone, hdirectory, q, hq, hlocate⟩ | ⟨top, hroot, hunder⟩
    · exact .inl hsame
    · exact .inr (.inl ⟨hnone, hdirectory, q, hq, locate_of_keeps hkeeps hlocate⟩)
    · exact .inr (.inr ⟨top, locate_of_keeps hkeeps hroot, hunder⟩)
  · rcases h location with hsame | ⟨-, hdirectory', -⟩ | ⟨top, hroot, hunder⟩
    · exact .inr (.inl ⟨hsame ▸ hnone, hdirectory, hway⟩)
    · rw [hdirectory'] at hnone
      cases hnone
    · exact .inr (.inr ⟨top, locate_of_keeps hkeeps hroot, hunder⟩)
  · exact .inr (.inr hunder)

/-- The directories of a project are made below the output directory or on the way to it. -/
theorem staysWithin_makeAll (disk : Disk) (root : Path) :
    StaysWithin root disk (makeAll disk (directoriesUnder root)).1 := by
  have hfirst := grows_makeDirectoriesFrom disk root.parts.length root
  rw [← makeDirectories] at hfirst
  rw [directoriesUnder, makeAll]
  cases hmade : disk.makeDirectories root with
  | mk made refusal =>
      rw [hmade] at hfirst
      have hway : StaysWithin root disk made := fun location => (hfirst location).imp_right .inl
      cases refusal with
      | some refusal => exact hway
      | none =>
          -- The output directory is there, so what is below it by path is below it by location.
          have hgrows := grows_makeAll made (directories.map root.join)
          have hthere : made.isDirectory root = true := by
            have hnone : (disk.makeDirectoriesFrom root.parts.length root).2 = none := by
              rw [← makeDirectories, hmade]
            have hdirectory := isDirectory_makeDirectoriesFrom hnone
            rwa [← makeDirectories, hmade] at hdirectory
          obtain ⟨top, htop, -⟩ := (isDirectory_iff made root).1 hthere
          have hroot := locate_of_keeps hgrows.keeps htop
          refine hway.trans hgrows.keeps fun location => ?_
          rcases hgrows location with hsame | ⟨hnone, hdirectory, q, ⟨p, hp, hq⟩, hlocate⟩
          · exact .inl hsame
          · obtain ⟨path, hpath, rfl⟩ := List.mem_map.1 hp
            rcases Path.of_mem_beginnings_append hq with hbegins | ⟨n, -, hne, rfl⟩
            · exact .inr (.inl ⟨hnone, hdirectory, q, hbegins, hlocate⟩)
            · have hplain := (names_spec.1 path (List.mem_append_left _ hpath)).2
              have hplace := locate_join hroot
                (fun name hname => hplain name (List.mem_of_mem_take hname)) hlocate
              exact .inr (.inr ⟨top, hroot, _, hne, hplace⟩)

/-- Files of a project are written below the output directory. -/
theorem staysWithin_putAll {made : Disk} {root top : Path} {m : Model} {s : Settings}
    {files rest : List (Path × String)} (hroot : made.locate root = .ok top)
    (hfiles : (render m s).filesUnder root = files ++ rest)
    (h : ∀ file ∈ files, Receives made file.1) :
    StaysWithin root made (made.putAll (placed made files)) := by
  intro location
  by_cases hmem : location ∈ (placed made files).map Prod.fst
  · rw [map_fst_placed] at hmem
    obtain ⟨p, hp, rfl⟩ := List.mem_map.1 hmem
    obtain ⟨file, hfile, rfl⟩ := List.mem_map.1 hp
    have hunder : file ∈ (render m s).filesUnder root := by
      rw [hfiles]
      exact List.mem_append_left rest hfile
    obtain ⟨path, hpath, heq⟩ := exists_path_of_mem_filesUnder hunder
    have hlocate := (h file hfile).landing_admits.located
    rw [← heq] at hlocate ⊢
    exact .inr (.inr ⟨top, locate_of_keeps (sameDirectories_putAll_placed h).1 hroot, _,
      (plain_of_mem_allPaths hpath).1, locate_file hroot hpath hlocate⟩)
  · exact .inl (get?_putAll_of_not_mem hmem)

/-! ### Outcomes -/

/-- What writing some files in order below an output directory can come to. -/
inductive Outcome (disk : Disk) (root : Path) (files : List (Path × String)) : Writing → Prop where
  /-- Nothing can be asked about the output directory, and nothing is done. -/
  | unaskable {failure : Failure} (hpath : Failure.ofPath? root = some failure) :
      Outcome disk root files ⟨disk, [], some failure⟩
  /-- A directory cannot be made, and no file has changed. -/
  | noDirectory {disk' : Disk} {p q : Path} {refusal : Refusal} (hp : p ∈ directoriesUnder root)
      (hq : q ∈ p.beginnings) (hrefused : disk'.makeDirectory q = .error refusal)
      (hmissing : disk'.isDirectory q = false) (hsame : SameFilesBut [] disk disk') :
      Outcome disk root files ⟨disk', [], some (.file p (.directory refusal))⟩
  /-- A file cannot be written. Those before it hold their texts, and all others are as they
  were. -/
  | noFile {disk' : Disk} {before after : List (Path × String)} {p : Path} {text : String}
      {refusal : Refusal} (hfiles : files = before ++ (p, text) :: after)
      (hrefused : ∀ content, disk'.write p content = .error refusal)
      (hthere : ∀ q ∈ directoriesUnder root, disk'.isDirectory q = true)
      (hholds : HoldsTexts disk' before) (hsame : SameFilesBut (before.map Prod.fst) disk disk')
      (hrest : ∀ file ∈ (p, text) :: after, Untouched disk disk' file.1) :
      Outcome disk root files ⟨disk', before.map Prod.fst, some (.file p (.unwritable refusal))⟩
  /-- A text has no encoding. Its file is empty, those before it hold their texts, and all others
  are as they were. -/
  | noEncoding {disk' : Disk} {before after : List (Path × String)} {p : Path} {text : String}
      {fault : Text.EncodeFault} (hfiles : files = before ++ (p, text) :: after)
      (hfault : Text.encodeFault? text = some fault) (hempty : disk'.read p = .ok [])
      (hthere : ∀ q ∈ directoriesUnder root, disk'.isDirectory q = true)
      (hholds : HoldsTexts disk' before)
      (hsame : SameFilesBut (before.map Prod.fst ++ [p]) disk disk')
      (hrest : ∀ file ∈ after, Untouched disk disk' file.1) :
      Outcome disk root files ⟨disk', before.map Prod.fst, some (.unencodable fault)⟩
  /-- All files hold their texts, and all others are as they were. -/
  | done {disk' : Disk} (hthere : ∀ q ∈ directoriesUnder root, disk'.isDirectory q = true)
      (hholds : HoldsTexts disk' files) (hsame : SameFilesBut (files.map Prod.fst) disk disk') :
      Outcome disk root files ⟨disk', files.map Prod.fst, none⟩

theorem encodeUtf8_eq {text : String} (h : Text.IsEncodable text) :
    Text.encodeUtf8 text = .ok (contentOf text) := by
  have hnone : Text.encodeFault? text = none := h
  simp [contentOf, Text.encodeUtf8, hnone]

theorem contentOf_eq_nil {text : String} {fault : Text.EncodeFault}
    (h : Text.encodeFault? text = some fault) : contentOf text = [] := by
  simp [contentOf, Text.encodeUtf8, h]

/-- To put the file at which writing ends behind those before it is to put them all. -/
theorem put_landing_putAll {made : Disk} {before : List (Path × String)} {p : Path} {text : String}
    (h : ∀ file ∈ before, Receives made file.1)
    (hp : Receives (made.putAll (placed made before)) p) :
    (made.putAll (placed made before)).put (landing (made.putAll (placed made before)) p)
        (.file (contentOf text)) =
      made.putAll (placed made (before ++ [(p, text)])) := by
  have hsame := sameDirectories_putAll_placed h
  have hreceives : Receives made p := hp.of_sameDirectories hsame.symm
  rw [hreceives.landing_eq hsame]
  simp [placed, putAll, List.foldl_append]

section Outcomes

variable {disk made : Disk} {root top : Path} {m : Model} {s : Settings}

/-- From a disk that has the directories of a project, writing its files has one of the outcomes. -/
theorem outcome_writeAll (hroot : made.locate root = .ok top)
    (hthere : ∀ q ∈ directoriesUnder root, made.isDirectory q = true)
    (hsame : ∀ location content,
      made.get? location = some (.file content) ↔ disk.get? location = some (.file content)) :
    Outcome disk root ((render m s).filesUnder root)
        (writeAll made ((render m s).filesUnder root)) ∧
      StaysWithin root made (writeAll made ((render m s).filesUnder root)).disk ∧
      made.Keeps (writeAll made ((render m s).filesUnder root)).disk := by
  have hbelow : ∀ file ∈ (render m s).filesUnder root, made.isDirectory file.1.parent = true := by
    intro file hfile
    obtain ⟨path, hpath, heq⟩ := exists_path_of_mem_filesUnder hfile
    rw [← heq]
    exact hthere _ (parent_mem_directoriesUnder root hpath)
  -- What holds of the disk with any first files of the project, whether they can be encoded or not.
  have hput : ∀ files rest, (render m s).filesUnder root = files ++ rest →
      (∀ file ∈ files, Receives made file.1) →
      (∀ q ∈ directoriesUnder root, (made.putAll (placed made files)).isDirectory q = true) ∧
      (∀ file ∈ files, (made.putAll (placed made files)).read file.1 = .ok (contentOf file.2)) ∧
      SameFilesBut (files.map Prod.fst) disk (made.putAll (placed made files)) ∧
      (∀ file ∈ rest, Untouched disk (made.putAll (placed made files)) file.1) ∧
      StaysWithin root made (made.putAll (placed made files)) ∧
      made.Keeps (made.putAll (placed made files)) := by
    intro files rest hfiles hreceives
    have hkeeps := (sameDirectories_putAll_placed hreceives).1
    have hothers := sameFilesBut_putAll hreceives hsame
    exact ⟨fun q hq => isDirectory_of_keeps hkeeps (hthere q hq),
      fun file => read_putAll_placed (nodup_placed hroot hfiles hreceives) hreceives, hothers,
      untouched_of_sameFilesBut (locate_of_keeps hkeeps hroot) hfiles hothers,
      staysWithin_putAll hroot hfiles hreceives, hkeeps⟩
  obtain ⟨before, rest, hfiles, hbefore, hends⟩ := exists_ends hbelow
  have hreceives : ∀ file ∈ before, Receives made file.1 := fun file hfile => (hbefore file hfile).1
  obtain ⟨hnow, hread, hothers, hrest, hstays, hkeeps⟩ := hput before rest hfiles hreceives
  have hholds : HoldsTexts (made.putAll (placed made before)) before := fun file hfile =>
    ⟨_, encodeUtf8_eq (hbefore file hfile).2, hread file hfile⟩
  generalize writeAll made ((render m s).filesUnder root) = w at hends ⊢
  cases hends with
  | done =>
      rw [List.append_nil] at hfiles
      rw [hfiles]
      exact ⟨.done hnow hholds hothers, hstays, hkeeps⟩
  | refused hrefused => exact ⟨.noFile hfiles hrefused hnow hholds hothers hrest, hstays, hkeeps⟩
  | @unencodable p text after fault hp hfault =>
      -- The file that was emptied counts as one of those that were written.
      have hall : ∀ file ∈ before ++ [(p, text)], Receives made file.1 := by
        intro file hfile
        rcases List.mem_append.1 hfile with hfile | hfile
        · exact hreceives file hfile
        · rw [List.mem_singleton.1 hfile]
          exact hp.of_sameDirectories (sameDirectories_putAll_placed hreceives).symm
      rw [put_landing_putAll hreceives hp]
      obtain ⟨hnow, hread, hothers, hrest, hstays, hkeeps⟩ :=
        hput (before ++ [(p, text)]) after (by rw [hfiles, List.append_cons]) hall
      have hempty := hread (p, text) (by simp)
      rw [contentOf_eq_nil hfault] at hempty
      rw [List.map_append] at hothers
      exact ⟨.noEncoding hfiles hfault hempty hnow (fun file hfile =>
          ⟨_, encodeUtf8_eq (hbefore file hfile).2, hread file (List.mem_append_left _ hfile)⟩)
        hothers hrest, hstays, hkeeps⟩

/-- Writing a project has one of the outcomes, and stays within the output directory. -/
theorem outcome_write (disk : Disk) (root : Path) (m : Model) (s : Settings) :
    Outcome disk root ((render m s).filesUnder root) ((render m s).write disk root) ∧
      StaysWithin root disk ((render m s).write disk root).disk := by
  have hgrows := grows_makeAll disk (directoriesUnder root)
  have hstays := staysWithin_makeAll disk root
  rw [write]
  cases hpath : Failure.ofPath? root with
  | some failure => exact ⟨.unaskable hpath, .refl root disk⟩
  | none =>
      cases hmade : makeAll disk (directoriesUnder root) with
      | mk made failure =>
          rw [hmade] at hgrows hstays
          cases failure with
          | some failure =>
              have hfailed : (makeAll disk (directoriesUnder root)).2 = some failure := by
                rw [hmade]
              obtain ⟨p, hp, q, hq, refusal, rfl, hrefused, hmissing⟩ := of_makeAll_eq_some hfailed
              rw [hmade] at hrefused hmissing
              exact ⟨.noDirectory hp hq hrefused hmissing fun location _ content =>
                hgrows.get?_eq_file_iff location content, hstays⟩
          | none =>
              have hnone : (makeAll disk (directoriesUnder root)).2 = none := by rw [hmade]
              have hthere := isDirectory_makeAll hnone
              rw [hmade] at hthere
              obtain ⟨top, hroot, -⟩ := (isDirectory_iff made root).1
                (hthere root (by simp [directoriesUnder]))
              obtain ⟨houtcome, hwithin, hkeeps⟩ := outcome_writeAll (m := m) (s := s) hroot hthere
                hgrows.get?_eq_file_iff
              exact ⟨houtcome, hstays.trans hkeeps hwithin⟩

end Outcomes

/-- Writing the project of a model goes by its paths in strict order. It has one of five outcomes,
and stays within the output directory in each of them. -/
theorem write_succeeds_or_stops (disk : Disk) (root : Path) (m : Model) (s : Settings) :
    (render m s).paths.Pairwise (· < ·) ∧
      ((render m s).filesUnder root).map Prod.fst = (render m s).paths.map root.join ∧
      Outcome disk root ((render m s).filesUnder root) ((render m s).write disk root) ∧
      StaysWithin root disk ((render m s).write disk root).disk := by
  rw [map_fst_filesUnder, paths, map_fst_sortedFiles]
  exact ⟨pairwise_allPaths, rfl, outcome_write disk root m s⟩

theorem read_nil_ne (p : Path) (content : List UInt8) : Disk.read [] p ≠ .ok content := by
  unfold Disk.read Disk.get?
  split
  · simp
  · split <;> simp_all

/-- A depot whose description has a surrogate leaves an empty file where nothing was, and its
failure names no path. -/
theorem unsaidDepot_leaves_empty_file :
    ∃ p fault, ((render (bareModel "1.0" unsaidDepot) .usual).write [] (.ofString "out")).failure =
        some (.unencodable fault) ∧
      p ∉ ((render (bareModel "1.0" unsaidDepot) .usual).write [] (.ofString "out")).written ∧
      Disk.read [] p ≠ .ok [] ∧
      ((render (bareModel "1.0" unsaidDepot) .usual).write [] (.ofString "out")).disk.read p =
        .ok [] := by
  have hfailed : ((render (bareModel "1.0" unsaidDepot) .usual).write []
      (.ofString "out")).failure ≠ none := by
    rw [← generate_eq_write (obstacle_bareModel "1.0" unsaidDepot .usual), Ne,
      accepts_empty.failure_generate_eq_none_iff]
    exact not_canBeWritten_unsaidDepot .usual
  have hencoding := accepts_empty.failure_write (bareModel "1.0" unsaidDepot) .usual
  have hnodup := nodup_filesUnder (.ofString "out") (bareModel "1.0" unsaidDepot) .usual
  have houtcome := (outcome_write [] (.ofString "out") (bareModel "1.0" unsaidDepot) .usual).1
  generalize write [] _ _ = w at houtcome hfailed hencoding ⊢
  -- Only a text without an encoding can be in the way, since the empty disk accepts the paths.
  cases houtcome with
  | unaskable hpath =>
      rw [accepts_empty.askable] at hpath
      cases hpath
  | noDirectory | noFile =>
      obtain ⟨fault, -, heq⟩ := Option.map_eq_some_iff.1 hencoding.symm
      cases heq
  | noEncoding hfiles hfault hempty =>
      refine ⟨_, _, rfl, ?_, read_nil_ne _ _, hempty⟩
      rw [hfiles, List.map_append, List.map_cons] at hnodup
      exact fun hmem => (List.disjoint_of_nodup_append hnodup) hmem List.mem_cons_self
  | done => exact absurd rfl hfailed

end Groundplan.Project
