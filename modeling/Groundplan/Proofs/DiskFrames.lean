import Groundplan.Proofs.DiskChanges

/-!
# Where changes on a disk can be

A path that goes on from another one leads below the location of the other. So what a directory and
the names below it lead to is told by the location of the directory.

Making a directory puts directories where nothing was, at locations that beginnings of its path lead
to, and does nothing else. Files stay as they are, and so does every location that is on no such
way.
-/

namespace Groundplan

namespace Disk

/-! ### Following in two parts -/

/-- Following names and more names leads over the location of the first ones. -/
theorem exists_follow_of_append {disk : Disk} {here location : Path} {names more : List String}
    (hmore : more ≠ []) (h : disk.follow here (names ++ more) = .ok location) :
    ∃ between, disk.follow here names = .ok between ∧ disk.follow between more = .ok location := by
  induction names generalizing here with
  | nil => exact ⟨here, rfl, h⟩
  | cons name names ih =>
      rw [List.cons_append, follow] at h
      by_cases hup : name = ".."
      · rw [if_pos hup] at h
        rw [follow, if_pos hup]
        exact ih h
      · rw [if_neg hup] at h
        by_cases hlong : nameLimit < FileName.size name
        · rw [if_pos hlong] at h
          cases h
        · rw [if_neg hlong] at h
          rw [follow, if_neg hup, if_neg hlong]
          -- Something follows the name, so there has to be a directory.
          obtain ⟨next, others, hnext⟩ := List.exists_cons_of_ne_nil
            (List.append_ne_nil_of_right_ne_nil names hmore)
          rw [hnext] at h
          simp only at h ⊢
          cases hfound : disk.get? (here.child (FileName.stored name)) with
          | none => simp [hfound] at h
          | some entry =>
              cases entry with
              | file content => simp [hfound] at h
              | directory =>
                  rw [hfound] at h
                  simp only at h
                  rw [← hnext] at h
                  obtain ⟨between, hbetween, hlocation⟩ := ih h
                  cases names with
                  | nil => exact ⟨_, rfl, Except.ok.inj hbetween ▸ hlocation⟩
                  | cons name' names => exact ⟨between, hbetween, hlocation⟩

/-- Whether a name leads down and is stored as it is. -/
def IsPlainName (name : String) : Prop :=
  name ≠ ".." ∧ FileName.stored name = name

instance : DecidablePred IsPlainName := fun _ => inferInstanceAs (Decidable (_ ∧ _))

theorem follow_eq_of_plain {disk : Disk} {here location : Path} {names : List String}
    (hplain : ∀ name ∈ names, IsPlainName name) (h : disk.follow here names = .ok location) :
    location = { here with parts := here.parts ++ names } := by
  induction names generalizing here with
  | nil =>
      rw [List.append_nil]
      exact (Except.ok.inj h).symm
  | cons name names ih =>
      obtain ⟨⟨hup, hstored⟩, hrest⟩ := List.forall_mem_cons.1 hplain
      rw [follow, if_neg hup, hstored] at h
      split at h
      · cases h
      · cases names with
        | nil => exact (Except.ok.inj h).symm
        | cons next names =>
            simp only at h
            cases hfound : disk.get? (here.child name) with
            | none => simp [hfound] at h
            | some entry =>
                cases entry with
                | file content => simp [hfound] at h
                | directory =>
                    rw [hfound] at h
                    rw [ih hrest h, Path.child, List.append_assoc, List.singleton_append]

/-- A path below another one leads below the location of the other. -/
theorem locate_join {disk : Disk} {root top location : Path} {names : List String}
    (hroot : disk.locate root = .ok top) (hplain : ∀ name ∈ names, IsPlainName name)
    (h : disk.locate { root with parts := root.parts ++ names } = .ok location) :
    location = { top with parts := top.parts ++ names } := by
  have hfollow : disk.follow root.base root.parts = .ok top := by
    unfold locate at hroot
    split at hroot
    · cases hroot
    · exact hroot
  cases names with
  | nil =>
      simp only [List.append_nil] at h ⊢
      rw [hroot] at h
      exact (Except.ok.inj h).symm
  | cons name names =>
      unfold locate at h
      split at h
      · cases h
      · obtain ⟨between, hbetween, hlocation⟩ := exists_follow_of_append (by simp) h
        have hsame : between = top := by
          have heq := hbetween.symm.trans hfollow
          exact Except.ok.inj heq
        rw [hsame] at hlocation
        exact follow_eq_of_plain hplain hlocation

/-! ### Making directories -/

/-- A disk differs from another one by directories only that are where nothing was, each of them
where one of the given paths leads. -/
def Grows (ways : Path → Prop) (disk disk' : Disk) : Prop :=
  ∀ location, disk'.get? location = disk.get? location ∨
    disk.get? location = none ∧ disk'.get? location = some .directory ∧
      ∃ q, ways q ∧ disk'.locate q = .ok location

namespace Grows

variable {ways ways' : Path → Prop} {disk disk' disk'' : Disk}

theorem refl (ways : Path → Prop) (disk : Disk) : Grows ways disk disk := fun _ => .inl rfl

theorem keeps (h : Grows ways disk disk') : disk.Keeps disk' := by
  intro location hdirectory
  rcases h location with hsame | ⟨hnone, -⟩
  · rwa [hsame]
  · rw [hnone] at hdirectory
    cases hdirectory

theorem trans (h : Grows ways disk disk') (h' : Grows ways disk' disk'') :
    Grows ways disk disk'' := by
  intro location
  rcases h' location with hsame | ⟨hnone, hdirectory, hway⟩
  · rw [hsame]
    rcases h location with hsame | ⟨hnone, hdirectory, q, hq, hlocate⟩
    · exact .inl hsame
    · exact .inr ⟨hnone, hdirectory, q, hq, locate_of_keeps h'.keeps hlocate⟩
  · rcases h location with hsame | ⟨-, hdirectory', -⟩
    · exact .inr ⟨hsame ▸ hnone, hdirectory, hway⟩
    · rw [hdirectory'] at hnone
      cases hnone

theorem mono (h : Grows ways disk disk') (hways : ∀ q, ways q → ways' q) :
    Grows ways' disk disk' := by
  intro location
  refine (h location).imp_right ?_
  rintro ⟨hnone, hdirectory, q, hq, hlocate⟩
  exact ⟨hnone, hdirectory, q, hways q hq, hlocate⟩

/-- Where directories are all that was added, the files are the same. -/
theorem get?_eq_file_iff (h : Grows ways disk disk') (location : Path) (content : List UInt8) :
    disk'.get? location = some (.file content) ↔ disk.get? location = some (.file content) := by
  rcases h location with hsame | ⟨hnone, hdirectory, -⟩
  · rw [hsame]
  · simp [hnone, hdirectory]

end Grows

theorem grows_makeIfAbsent (disk : Disk) (p : Path) :
    Grows (· = p) disk (disk.makeIfAbsent p).1 := by
  unfold makeIfAbsent makeDirectory
  cases hlocate : disk.locate p with
  | error reason => exact .refl _ disk
  | ok place =>
      cases hfound : disk.get? place with
      | some entry => simpa [hfound] using Grows.refl (· = p) disk
      | none =>
          simp only [hfound]
          intro location
          by_cases hplace : location = place
          · subst hplace
            have hfree : disk.get? location ≠ some .directory := by simp [hfound]
            have hthere := locate_of_keeps (keeps_put_directory disk location) hlocate
            exact .inr ⟨hfound, get?_put_self hfree .directory, p, rfl, hthere⟩
          · exact .inl (get?_put_of_ne hplace disk .directory)

/-- What is not made was refused on the disk as it is. -/
theorem of_makeIfAbsent_eq_some {disk : Disk} {p : Path} {refusal : Refusal}
    (h : (disk.makeIfAbsent p).2 = some refusal) :
    (disk.makeIfAbsent p).1.makeDirectory p = .error refusal ∧
      (disk.makeIfAbsent p).1.isDirectory p = false := by
  unfold makeIfAbsent at h ⊢
  cases hmake : disk.makeDirectory p with
  | ok made => simp [hmake] at h
  | error refused =>
      simp only [hmake] at h ⊢
      split at h
      · cases h
      next hdirectory => exact ⟨by rw [Option.some.inj h], by simpa using hdirectory⟩

end Disk

namespace Path

theorem mem_beginnings_iff (p q : Path) :
    q ∈ p.beginnings ↔ ∃ n ≤ p.parts.length, q = { p with parts := p.parts.take n } := by
  simp only [beginnings, List.mem_map, List.mem_range, Nat.lt_succ_iff, eq_comm]

theorem self_mem_beginnings (p : Path) : p ∈ p.beginnings :=
  (mem_beginnings_iff p p).2 ⟨p.parts.length, le_refl _, by rw [List.take_length]⟩

theorem mem_beginnings_of_parent {p q : Path} (h : q ∈ p.parent.beginnings) :
    q ∈ p.beginnings := by
  obtain ⟨n, hn, rfl⟩ := (mem_beginnings_iff _ q).1 h
  have hparent : p.parent.parts = p.parts.take (p.parts.length - 1) := List.dropLast_eq_take
  refine (mem_beginnings_iff p _).2 ⟨min n (p.parts.length - 1), by omega, ?_⟩
  rw [hparent, List.take_take, Path.parent]

/-- A beginning of a path below another one is a beginning of the other, or lies below it. -/
theorem of_mem_beginnings_append {p q : Path} {names : List String}
    (h : q ∈ beginnings { p with parts := p.parts ++ names }) :
    q ∈ p.beginnings ∨ ∃ n, n ≠ 0 ∧ names.take n ≠ [] ∧
      q = { p with parts := p.parts ++ names.take n } := by
  obtain ⟨n, hn, rfl⟩ := (mem_beginnings_iff _ q).1 h
  simp only [List.length_append] at hn
  by_cases hle : n ≤ p.parts.length
  · refine .inl ((mem_beginnings_iff p _).2 ⟨n, hle, ?_⟩)
    rw [List.take_append_of_le_length hle]
  · refine .inr ⟨n - p.parts.length, by omega, ?_, ?_⟩
    · intro hnil
      have hlength := congrArg List.length hnil
      simp only [List.length_take, List.length_nil] at hlength
      omega
    · rw [List.take_append, List.take_of_length_le (by omega)]

end Path

namespace Disk

/-- Making a directory and those above it adds directories on the way to it. -/
theorem grows_makeDirectoriesFrom (disk : Disk) (depth : Nat) (p : Path) :
    Grows (· ∈ p.beginnings) disk (disk.makeDirectoriesFrom depth p).1 := by
  have hself (disk : Disk) (p : Path) :
      Grows (· ∈ p.beginnings) disk (disk.makeIfAbsent p).1 :=
    (grows_makeIfAbsent disk p).mono fun q hq => hq ▸ p.self_mem_beginnings
  induction depth generalizing p with
  | zero => exact hself disk p
  | succ depth ih =>
      have habove := (ih p.parent).mono fun q => Path.mem_beginnings_of_parent (p := p)
      rcases makeDirectoriesFrom_cases disk (depth + 1) p with
        heq | ⟨depth', hdepth, ⟨-, heq⟩ | ⟨-, heq⟩⟩
      · rw [heq]
        exact hself disk p
      · obtain rfl : depth = depth' := by omega
        rw [heq]
        exact habove.trans (hself _ p)
      · obtain rfl : depth = depth' := by omega
        rw [heq]
        exact habove

/-- Making a directory is refused where one on the way to it cannot be made. -/
theorem of_makeDirectoriesFrom_eq_some {disk : Disk} {depth : Nat} {p : Path} {refusal : Refusal}
    (h : (disk.makeDirectoriesFrom depth p).2 = some refusal) :
    ∃ q ∈ p.beginnings,
      (disk.makeDirectoriesFrom depth p).1.makeDirectory q = .error refusal ∧
        (disk.makeDirectoriesFrom depth p).1.isDirectory q = false := by
  induction depth generalizing p with
  | zero => exact ⟨p, p.self_mem_beginnings, of_makeIfAbsent_eq_some h⟩
  | succ depth ih =>
      rcases makeDirectoriesFrom_cases disk (depth + 1) p with
        heq | ⟨depth', hdepth, ⟨-, heq⟩ | ⟨-, heq⟩⟩
      · rw [heq] at h ⊢
        exact ⟨p, p.self_mem_beginnings, of_makeIfAbsent_eq_some h⟩
      · rw [heq] at h ⊢
        exact ⟨p, p.self_mem_beginnings, of_makeIfAbsent_eq_some h⟩
      · obtain rfl : depth = depth' := by omega
        rw [heq] at h ⊢
        obtain ⟨q, hq, hrefused⟩ := ih h
        exact ⟨q, Path.mem_beginnings_of_parent hq, hrefused⟩

/-! ### Putting several things -/

theorem get?_putAll_of_not_mem {disk : Disk} {entries : List (Path × Entry)} {location : Path}
    (h : location ∉ entries.map Prod.fst) :
    (disk.putAll entries).get? location = disk.get? location := by
  induction entries generalizing disk with
  | nil => rfl
  | cons found entries ih =>
      rw [List.map_cons, List.mem_cons, not_or] at h
      rw [putAll_cons, ih h.2, get?_put_of_ne h.1]

/-- What is put in different locations is found in each of them. -/
theorem get?_putAll_of_mem {disk : Disk} {entries : List (Path × Entry)}
    (hnodup : (entries.map Prod.fst).Nodup) {location : Path} {entry : Entry}
    (h : (location, entry) ∈ entries) (hfree : disk.get? location ≠ some .directory) :
    (disk.putAll entries).get? location = some entry := by
  induction entries generalizing disk with
  | nil => cases h
  | cons found entries ih =>
      rw [List.map_cons, List.nodup_cons] at hnodup
      rcases List.mem_cons.1 h with rfl | h
      · rw [putAll_cons, get?_putAll_of_not_mem hnodup.1]
        exact get?_put_self hfree entry
      · have hne : location ≠ found.1 := fun heq =>
          hnodup.1 (heq ▸ List.mem_map_of_mem (f := Prod.fst) h)
        rw [putAll_cons]
        exact ih hnodup.2 h (by rwa [get?_put_of_ne hne])

end Disk

end Groundplan
