import Groundplan.Files.Read
import Groundplan.Proofs.Encodability

/-!
# What changes on a disk

A path is followed through directories only, so where it leads depends on the directories of a disk
and on nothing else. Making directories adds to them, and writing a file leaves them as they are.
Two disks with the same directories therefore lead every path that leads somewhere to the same
location. They may differ in why a path leads nowhere: a file on the way is another reason than
nothing on the way.

Putting something where something is replaces it in its place. What is put in several locations, and
then again in the same ones, is as if only the second had been put; this is an equality of disks and
not only of what is found on them.
-/

namespace Groundplan.Disk

/-! ### Putting -/

theorem lookup_put (disk : Disk) (location other : Path) (entry : Entry) :
    (disk.put location entry).lookup other =
      if other = location then some entry else disk.lookup other := by
  induction disk with
  | nil =>
      by_cases hother : other = location
      · simp [put, hother]
      · have hbeq : (other == location) = false := beq_eq_false_iff_ne.2 hother
        simp [put, List.lookup_cons, hother, hbeq]
  | cons found disk ih =>
      obtain ⟨location', entry'⟩ := found
      by_cases hlocation : location' = location
      · subst hlocation
        by_cases hother : other = location'
        · simp [put, hother]
        · have hbeq : (other == location') = false := beq_eq_false_iff_ne.2 hother
          simp [put, List.lookup_cons, hother, hbeq]
      · simp only [put, if_neg hlocation, List.lookup_cons, ih]
        by_cases hother : other = location'
        · simp [hother, hlocation]
        · have hbeq : (other == location') = false := beq_eq_false_iff_ne.2 hother
          simp [hbeq]

theorem get?_put_of_ne {location other : Path} (h : other ≠ location) (disk : Disk)
    (entry : Entry) : (disk.put location entry).get? other = disk.get? other := by
  rw [get?, get?, lookup_put, if_neg h]

/-- A location that is no directory of itself holds what was put there. -/
theorem get?_put_self {disk : Disk} {location : Path} (h : disk.get? location ≠ some .directory)
    (entry : Entry) : (disk.put location entry).get? location = some entry := by
  have hbelow : location.parts.all (· = "..") = false := by
    rw [← Bool.not_eq_true]
    intro hall
    exact h (if_pos hall)
  rw [get?, hbelow, lookup_put, if_pos rfl]
  rfl

theorem put_put_self (disk : Disk) (location : Path) (entry entry' : Entry) :
    (disk.put location entry).put location entry' = disk.put location entry' := by
  induction disk with
  | nil => simp [put]
  | cons found disk ih =>
      obtain ⟨location', kept⟩ := found
      by_cases hlocation : location' = location
      · simp [put, hlocation]
      · simp [put, hlocation, ih]

/-- Whether something was put in a location, so that it has its place in the list. -/
def Holds (disk : Disk) (location : Path) : Prop :=
  location ∈ disk.map Prod.fst

theorem holds_put_self (disk : Disk) (location : Path) (entry : Entry) :
    (disk.put location entry).Holds location := by
  induction disk with
  | nil => simp [Holds, put]
  | cons found disk ih =>
      obtain ⟨location', kept⟩ := found
      by_cases hlocation : location' = location
      · simp [Holds, put, hlocation]
      · have htail : Holds (put disk location entry) location := ih
        simp only [Holds, put, if_neg hlocation, List.map_cons, List.mem_cons]
        exact .inr htail

theorem Holds.put {disk : Disk} {location : Path} (h : disk.Holds location) (other : Path)
    (entry : Entry) : (disk.put other entry).Holds location := by
  induction disk with
  | nil => cases h
  | cons found disk ih =>
      obtain ⟨location', kept⟩ := found
      have hsplit : location = location' ∨ Holds disk location := by
        simpa only [Holds, List.map_cons, List.mem_cons] using h
      by_cases hother : location' = other
      · subst hother
        simpa only [Holds, Disk.put, if_pos, List.map_cons, List.mem_cons] using hsplit
      · simp only [Holds, Disk.put, if_neg hother, List.map_cons, List.mem_cons]
        exact hsplit.imp id ih

/-- What has its place keeps it, whatever is put elsewhere first. -/
theorem put_put_comm {disk : Disk} {location other : Path} (hheld : disk.Holds location)
    (hne : other ≠ location) (entry entry' : Entry) :
    (disk.put other entry').put location entry = (disk.put location entry).put other entry' := by
  induction disk with
  | nil => cases hheld
  | cons found disk ih =>
      obtain ⟨location', kept⟩ := found
      by_cases hlocation : location' = location
      · subst hlocation
        simp [Disk.put, hne.symm]
      · have htail : Holds disk location := by
          have hsplit : location = location' ∨ Holds disk location := by
            simpa only [Holds, List.map_cons, List.mem_cons] using hheld
          exact hsplit.resolve_left fun h => hlocation h.symm
        by_cases hother : location' = other
        · subst hother
          simp [Disk.put, hlocation]
        · simp [Disk.put, hlocation, hother, ih htail]

/-- Puts several things, one after the other. -/
def putAll (disk : Disk) (entries : List (Path × Entry)) : Disk :=
  entries.foldl (fun disk entry => disk.put entry.1 entry.2) disk

@[simp] theorem putAll_nil (disk : Disk) : disk.putAll [] = disk := rfl

@[simp] theorem putAll_cons (disk : Disk) (entry : Path × Entry) (entries : List (Path × Entry)) :
    disk.putAll (entry :: entries) = (disk.put entry.1 entry.2).putAll entries := rfl

/-- To put something in a held location after others is to put it there first, and to put it again
wherever the others are about to replace it. -/
theorem put_putAll {disk : Disk} {location : Path} (hheld : disk.Holds location) (entry : Entry)
    (entries : List (Path × Entry)) :
    (disk.putAll entries).put location entry = (disk.put location entry).putAll
      (entries.map fun found => (found.1, if found.1 = location then entry else found.2)) := by
  induction entries generalizing disk with
  | nil => rfl
  | cons found entries ih =>
      obtain ⟨other, entry'⟩ := found
      simp only [putAll_cons, List.map_cons]
      rw [ih (hheld.put other entry')]
      by_cases hother : other = location
      · rw [hother, if_pos rfl, put_put_self, put_put_self]
      · rw [if_neg hother, put_put_comm hheld hother]

/-- Putting things in the same locations again leaves nothing of what was put there first. -/
theorem putAll_putAll (disk : Disk) {first second : List (Path × Entry)}
    (h : first.map Prod.fst = second.map Prod.fst) :
    (disk.putAll first).putAll second = disk.putAll second := by
  induction second generalizing disk first with
  | nil =>
      have hnil : first = [] := List.map_eq_nil_iff.1 h
      rw [hnil, putAll_nil]
  | cons found second ih =>
      obtain ⟨location, entry⟩ := found
      obtain ⟨replaced, first, rfl⟩ : ∃ replaced rest, first = replaced :: rest := by
        refine List.exists_cons_of_ne_nil fun hnil => ?_
        simp [hnil] at h
      obtain ⟨hlocation, hrest⟩ := List.cons.inj h
      obtain ⟨location', entry'⟩ := replaced
      simp only at hlocation
      subst hlocation
      have hheld := holds_put_self disk location' entry'
      -- The first location is taken to the front, where the second entry replaces the first.
      rw [putAll_cons, putAll_cons, putAll_cons, put_putAll hheld, put_put_self]
      refine ih _ ?_
      rw [← hrest, List.map_map]
      rfl

/-! ### Directories -/

/-- Every directory of the first disk is one of the second. -/
def Keeps (disk disk' : Disk) : Prop :=
  ∀ location, disk.get? location = some .directory → disk'.get? location = some .directory

theorem Keeps.refl (disk : Disk) : disk.Keeps disk := fun _ h => h

theorem Keeps.trans {disk disk' disk'' : Disk} (h : disk.Keeps disk') (h' : disk'.Keeps disk'') :
    disk.Keeps disk'' := fun location hdirectory => h' location (h location hdirectory)

theorem keeps_put_directory (disk : Disk) (location : Path) :
    disk.Keeps (disk.put location .directory) := by
  intro other hdirectory
  by_cases hother : other = location
  · subst hother
    by_cases hall : other.parts.all (· = "..") = true
    · exact if_pos hall
    · rw [get?, if_neg hall, lookup_put, if_pos rfl]
  · rwa [get?_put_of_ne hother]

theorem follow_of_keeps {disk disk' : Disk} (h : disk.Keeps disk') {here location : Path}
    {names : List String} (hfollow : disk.follow here names = .ok location) :
    disk'.follow here names = .ok location := by
  induction names generalizing here with
  | nil => exact hfollow
  | cons name names ih =>
      rw [follow] at hfollow ⊢
      by_cases hup : name = ".."
      · rw [if_pos hup] at hfollow ⊢
        exact ih hfollow
      · rw [if_neg hup] at hfollow ⊢
        by_cases hlong : nameLimit < FileName.size name
        · rw [if_pos hlong] at hfollow
          cases hfollow
        · rw [if_neg hlong] at hfollow ⊢
          cases names with
          | nil => exact hfollow
          | cons next names =>
              -- On the way there has to be a directory, and it is still there.
              simp only at hfollow ⊢
              cases hfound : disk.get? (here.child (FileName.stored name)) with
              | none => simp [hfound] at hfollow
              | some entry =>
                  cases entry with
                  | file content => simp [hfound] at hfollow
                  | directory =>
                      rw [hfound] at hfollow
                      rw [h _ hfound]
                      exact ih hfollow

theorem locate_of_keeps {disk disk' : Disk} (h : disk.Keeps disk') {p location : Path}
    (hlocate : disk.locate p = .ok location) : disk'.locate p = .ok location := by
  unfold locate at hlocate ⊢
  split at hlocate
  · cases hlocate
  next hshort =>
    rw [if_neg hshort]
    exact follow_of_keeps h hlocate

theorem isDirectory_iff (disk : Disk) (p : Path) :
    disk.isDirectory p = true ↔
      ∃ location, disk.locate p = .ok location ∧ disk.get? location = some .directory := by
  rw [isDirectory, decide_eq_true_eq, at?]
  cases disk.locate p with
  | ok location => simp
  | error reason => simp

theorem isDirectory_of_keeps {disk disk' : Disk} (h : disk.Keeps disk') {p : Path}
    (hdirectory : disk.isDirectory p = true) : disk'.isDirectory p = true := by
  rw [isDirectory_iff] at hdirectory ⊢
  obtain ⟨location, hlocate, hfound⟩ := hdirectory
  exact ⟨location, locate_of_keeps h hlocate, h location hfound⟩

/-- Two disks have the same directories. -/
def SameDirectories (disk disk' : Disk) : Prop :=
  disk.Keeps disk' ∧ disk'.Keeps disk

theorem SameDirectories.refl (disk : Disk) : disk.SameDirectories disk :=
  ⟨.refl disk, .refl disk⟩

theorem SameDirectories.trans {disk disk' disk'' : Disk} (h : disk.SameDirectories disk')
    (h' : disk'.SameDirectories disk'') : disk.SameDirectories disk'' :=
  ⟨h.1.trans h'.1, h'.2.trans h.2⟩

theorem SameDirectories.symm {disk disk' : Disk} (h : disk.SameDirectories disk') :
    disk'.SameDirectories disk := ⟨h.2, h.1⟩

/-- A file in the place of anything but a directory changes no directory. -/
theorem sameDirectories_put_file {disk : Disk} {location : Path}
    (h : disk.get? location ≠ some .directory) (content : List UInt8) :
    disk.SameDirectories (disk.put location (.file content)) := by
  constructor
  · intro other hdirectory
    have hother : other ≠ location := fun heq => h (heq ▸ hdirectory)
    rwa [get?_put_of_ne hother]
  · intro other hdirectory
    have hother : other ≠ location := by
      rintro rfl
      rw [get?_put_self h] at hdirectory
      cases hdirectory
    rwa [get?_put_of_ne hother] at hdirectory

/-! ### Making directories -/

theorem makeDirectory_cases (disk : Disk) (p : Path) :
    (∃ location, disk.locate p = .ok location ∧
      disk.makeDirectory p = .ok (disk.put location .directory)) ∨
    ∃ refusal, disk.makeDirectory p = .error refusal := by
  unfold makeDirectory
  cases hlocate : disk.locate p with
  | error reason => exact .inr ⟨_, rfl⟩
  | ok location =>
      cases hfound : disk.get? location with
      | some entry => exact .inr ⟨⟨.taken, p⟩, by simp [hfound]⟩
      | none => exact .inl ⟨location, rfl, by simp [hfound]⟩

/-- A directory that is there is not made. -/
theorem makeIfAbsent_of_isDirectory {disk : Disk} {p : Path} (h : disk.isDirectory p = true) :
    disk.makeIfAbsent p = (disk, none) := by
  obtain ⟨location, hlocate, hfound⟩ := (isDirectory_iff disk p).1 h
  have hmake : disk.makeDirectory p = .error ⟨.taken, p⟩ := by
    simp [makeDirectory, hlocate, hfound]
  simp [makeIfAbsent, hmake, h]

theorem keeps_makeIfAbsent (disk : Disk) (p : Path) : disk.Keeps (disk.makeIfAbsent p).1 := by
  rcases makeDirectory_cases disk p with ⟨location, -, hmake⟩ | ⟨refusal, hmake⟩
  · rw [makeIfAbsent, hmake]
    exact keeps_put_directory disk location
  · rw [makeIfAbsent, hmake]
    exact .refl disk

theorem isDirectory_makeIfAbsent {disk : Disk} {p : Path}
    (h : (disk.makeIfAbsent p).2 = none) : (disk.makeIfAbsent p).1.isDirectory p = true := by
  rcases makeDirectory_cases disk p with ⟨location, hlocate, hmake⟩ | ⟨refusal, hmake⟩
  · have hkeeps := keeps_put_directory disk location
    rw [makeIfAbsent, hmake, isDirectory_iff]
    refine ⟨location, locate_of_keeps hkeeps hlocate, ?_⟩
    by_cases hall : location.parts.all (· = "..") = true
    · exact if_pos hall
    · rw [get?, if_neg hall, lookup_put, if_pos rfl]
  · rw [makeIfAbsent, hmake] at h ⊢
    simpa using h

/-- Making directories is making one if it is absent, perhaps after those above it. -/
theorem makeDirectoriesFrom_cases (disk : Disk) (depth : Nat) (p : Path) :
    disk.makeDirectoriesFrom depth p = disk.makeIfAbsent p ∨
      ∃ depth', depth = depth' + 1 ∧
        ((disk.makeDirectoriesFrom depth' p.parent).2 = none ∧
            disk.makeDirectoriesFrom depth p =
              (disk.makeDirectoriesFrom depth' p.parent).1.makeIfAbsent p ∨
          (disk.makeDirectoriesFrom depth' p.parent).2 ≠ none ∧
            disk.makeDirectoriesFrom depth p = disk.makeDirectoriesFrom depth' p.parent) := by
  cases depth with
  | zero => exact .inl rfl
  | succ depth =>
      rw [makeDirectoriesFrom]
      split
      · refine .inr ⟨depth, rfl, ?_⟩
        cases hparent : disk.makeDirectoriesFrom depth p.parent with
        | mk made refusal => cases refusal <;> simp
      · exact .inl rfl

theorem keeps_makeDirectoriesFrom (disk : Disk) (depth : Nat) (p : Path) :
    disk.Keeps (disk.makeDirectoriesFrom depth p).1 := by
  induction depth generalizing p with
  | zero => exact keeps_makeIfAbsent disk p
  | succ depth ih =>
      rcases makeDirectoriesFrom_cases disk (depth + 1) p with
        heq | ⟨depth', hdepth, ⟨-, heq⟩ | ⟨-, heq⟩⟩
      · rw [heq]
        exact keeps_makeIfAbsent disk p
      · obtain rfl : depth = depth' := by omega
        rw [heq]
        exact (ih p.parent).trans (keeps_makeIfAbsent _ p)
      · obtain rfl : depth = depth' := by omega
        rw [heq]
        exact ih p.parent

theorem isDirectory_makeDirectoriesFrom {disk : Disk} {depth : Nat} {p : Path}
    (h : (disk.makeDirectoriesFrom depth p).2 = none) :
    (disk.makeDirectoriesFrom depth p).1.isDirectory p = true := by
  rcases makeDirectoriesFrom_cases disk depth p with heq | ⟨depth', -, ⟨-, heq⟩ | ⟨hrefused, heq⟩⟩
  · rw [heq] at h ⊢
    exact isDirectory_makeIfAbsent h
  · rw [heq] at h ⊢
    exact isDirectory_makeIfAbsent h
  · rw [heq] at h
    exact absurd h hrefused

theorem makeDirectories_of_isDirectory {disk : Disk} {p : Path} (h : disk.isDirectory p = true) :
    disk.makeDirectories p = (disk, none) := by
  obtain ⟨location, hlocate, hfound⟩ := (isDirectory_iff disk p).1 h
  have hmake : disk.makeDirectory p = .error ⟨.taken, p⟩ := by
    simp [makeDirectory, hlocate, hfound]
  rw [makeDirectories]
  cases p.parts.length with
  | zero => exact makeIfAbsent_of_isDirectory h
  | succ depth =>
      rw [makeDirectoriesFrom, hmake]
      exact makeIfAbsent_of_isDirectory h

/-! ### Writing files -/

/-- A file can be written by a path: it leads to a location that is no directory. -/
structure Admits (disk : Disk) (p location : Path) : Prop where
  located : disk.locate p = .ok location
  free : disk.get? location ≠ some .directory

theorem Admits.of_sameDirectories {disk disk' : Disk} (hsame : disk.SameDirectories disk')
    {p location : Path} (h : disk.Admits p location) : disk'.Admits p location where
  located := locate_of_keeps hsame.1 h.located
  free := fun hdirectory => h.free (hsame.2 location hdirectory)

/-- What a file holds that a text was written to: nothing, if the text cannot be encoded. -/
def contentOf (text : String) : List UInt8 :=
  match Text.encodeUtf8 text with
  | .ok content => content
  | .error _ => []

theorem write_of_admits {disk : Disk} {p location : Path} (h : disk.Admits p location)
    (content : List UInt8) : disk.write p content = .ok (disk.put location (.file content)) := by
  unfold write
  rw [h.located]
  cases hfound : disk.get? location with
  | none => simp only [hfound]
  | some entry =>
      cases entry with
      | file old => simp only [hfound]
      | directory => exact absurd hfound h.free

theorem admits_of_write {disk disk' : Disk} {p : Path} {content : List UInt8}
    (h : disk.write p content = .ok disk') : ∃ location, disk.Admits p location := by
  unfold write at h
  cases hlocate : disk.locate p with
  | error reason => simp [hlocate] at h
  | ok location =>
      refine ⟨location, hlocate, ?_⟩
      intro hdirectory
      simp [hlocate, hdirectory] at h

/-- Writing a text by a path that admits it can only fail to encode the text. -/
theorem writeText_of_admits {disk : Disk} {p location : Path} (h : disk.Admits p location)
    (text : String) :
    disk.writeText p text = (disk.put location (.file (contentOf text)),
      (Text.encodeFault? text).map .unencodable) := by
  cases hfault : Text.encodeFault? text with
  | none => simp [writeText, contentOf, Text.encodeUtf8, hfault, write_of_admits h]
  | some fault => simp [writeText, contentOf, Text.encodeUtf8, hfault, write_of_admits h]

theorem admits_of_writeText {disk : Disk} {p : Path} {text : String}
    (h : (disk.writeText p text).2 = none) : ∃ location, disk.Admits p location := by
  have hok : ∃ disk', disk.write p (contentOf text) = .ok disk' := by
    cases hwrite : disk.write p (contentOf text) with
    | ok disk' => exact ⟨disk', rfl⟩
    | error refusal =>
        cases hfault : Text.encodeFault? text with
        | none => simp_all [writeText, contentOf, Text.encodeUtf8]
        | some fault => simp_all [writeText, contentOf, Text.encodeUtf8]
  obtain ⟨disk', hwrite⟩ := hok
  exact admits_of_write hwrite

end Groundplan.Disk
