import Groundplan.Proofs.ClassNames

/-!
# Names word by word

Reading a name from the front gives a first word and what follows it. The word has one of three
forms, and what follows cannot prolong it; this is all that is said of the reading afterwards. A
separator is passed over. So the words of a name can be taken one at a time from the name itself,
without its runs and without a limit.
-/

namespace Groundplan.Name

/-! ### Letters and digits -/

theorem not_isSmall_of_isUpper {c : Char} (h : c.isUpper = true) : isSmall c = false :=
  of_ascii (fun c => c.isUpper = true → isSmall c = false) (by decide)
    (toNat_lt_of_isAlphanum ((isAlphanum_iff c).2 (.inl h))) h

theorem isSmall_iff {c : Char} : isSmall c = true ↔ c.isLower = true ∨ c.isDigit = true := by
  rw [isSmall, Bool.or_eq_true]

theorem not_isLower_of_isDigit {c : Char} (h : c.isDigit = true) : c.isLower = false :=
  of_ascii (fun c => c.isDigit = true → c.isLower = false) (by decide)
    (toNat_lt_of_isAlphanum (isAlphanum_of_isSmall (isSmall_iff.2 (.inr h)))) h

theorem not_isLower_of_isUpper {c : Char} (h : c.isUpper = true) : c.isLower = false :=
  (Bool.or_eq_false_iff.1 (not_isSmall_of_isUpper h)).1

/-! ### The first word -/

/-- The three forms of a word in front of the rest of a name, one of them in two cases: the rest
cannot prolong the word. -/
inductive FirstWord : List Char → List Char → Prop where
  | small {word rest : List Char} (hne : word ≠ []) (hword : ∀ c ∈ word, isSmall c = true)
      (hrest : rest.head?.any isSmall = false) : FirstWord word rest
  | capitalised {smalls rest : List Char} {c : Char} (hc : c.isUpper = true)
      (hsmalls : ∀ c ∈ smalls, isSmall c = true) (hrest : rest.head?.any isSmall = false)
      (hone : smalls = [] → rest.head?.any Char.isUpper = false) : FirstWord (c :: smalls) rest
  | acronym {capitals rest : List Char} {c d : Char} (hne : capitals ≠ [])
      (hcapitals : ∀ c ∈ capitals, c.isUpper = true) (hc : c.isUpper = true)
      (hd : d.isLower = true) : FirstWord capitals (c :: d :: rest)
  | numbered {capitals digits rest : List Char} {a a' : Char}
      (hcapitals : ∀ c ∈ capitals ++ [a, a'], c.isUpper = true)
      (hdigits : ∀ d ∈ digits, d.isDigit = true) (hrest : rest.head?.any Char.isDigit = false)
      (hnone : digits = [] →
        rest.head?.any Char.isUpper = false ∧ rest.head?.any Char.isLower = false) :
      FirstWord (capitals ++ [a, a'] ++ digits) rest

theorem head?_any_dropWhile (p : Char → Bool) (cs : List Char) :
    (cs.dropWhile p).head?.any p = false := by
  have hstop := List.head?_dropWhile_not p cs
  cases h : (cs.dropWhile p).head? with
  | none => rfl
  | some c => simpa [h] using hstop

/-- A list with more than one element ends with two. -/
theorem exists_append_pair {cs : List Char} (hnil : cs ≠ []) (hone : ∀ c, cs ≠ [c]) :
    ∃ front a b, cs = front ++ [a, b] := by
  obtain ⟨front, b, rfl⟩ := (List.eq_nil_or_concat cs).resolve_left hnil
  obtain ⟨front, a, rfl⟩ := (List.eq_nil_or_concat front).resolve_left fun h => hone b (by simp [h])
  exact ⟨front, a, b, by simp⟩

/-- What is read first from a name that starts with a letter or digit is a word of one of the
forms. -/
theorem firstWord_nextWord {cs : List Char} (h : cs.head?.any Char.isAlphanum = true) :
    FirstWord (nextWord cs).1 (nextWord cs).2 := by
  have hcapitals : ∀ c ∈ cs.takeWhile Char.isUpper, c.isUpper = true := fun c hc =>
    List.mem_takeWhile_imp hc
  have hstop := head?_any_dropWhile Char.isUpper cs
  have hsmall := head?_any_dropWhile isSmall
  simp only [nextWord]
  split
  next hnone =>
    refine .small ?_ (fun c hc => List.mem_takeWhile_imp hc) (hsmall cs)
    cases cs with
    | nil => cases h
    | cons c cs =>
        have hlarge : ¬ c.isUpper = true := fun hc => by simp [hc] at hnone
        have hc : isSmall c = true := ((isAlphanum_iff c).1 (by simpa using h)).resolve_left hlarge
        simp [hc]
  next c hone =>
    refine .capitalised (hcapitals c (by simp [hone])) (fun c hc => List.mem_takeWhile_imp hc)
      (hsmall _) fun hempty => ?_
    rw [List.dropWhile_eq_self_iff.2 (List.takeWhile_eq_nil_iff.1 hempty)]
    exact hstop
  next hnil hone =>
    obtain ⟨front, a, b, hsplit⟩ := exists_append_pair hnil hone
    rw [hsplit] at hcapitals ⊢
    split
    next hlower =>
      cases hrest : cs.dropWhile Char.isUpper with
      | nil => simp [hrest] at hlower
      | cons d rest =>
          have hd : d.isLower = true := by simpa [hrest] using hlower
          have hfront : (front ++ [a, b]).dropLast = front ++ [a] := by
            rw [List.append_cons, List.dropLast_concat]
          rw [hfront, List.getLast?_append_of_ne_nil _ (by simp)]
          refine .acronym (by simp) (fun c hc => hcapitals c ?_) (hcapitals b (by simp)) hd
          simp only [List.mem_append, List.mem_cons, List.not_mem_nil, or_false] at hc ⊢
          rcases hc with hc | hc
          · exact .inl hc
          · exact .inr (.inl hc)
    next hlower =>
      refine .numbered hcapitals (fun c hc => List.mem_takeWhile_imp hc)
        (head?_any_dropWhile _ _) fun hempty => ?_
      rw [List.dropWhile_eq_self_iff.2 (List.takeWhile_eq_nil_iff.1 hempty)]
      exact ⟨hstop, by simpa using hlower⟩

/-! ### Names word by word -/

theorem takeWhile_append_stop {p : Char → Bool} (cs : List Char) {rest : List Char}
    (hrest : rest.head?.any p = false) :
    (cs ++ rest).takeWhile p = cs.takeWhile p ∧
      (cs ++ rest).dropWhile p = cs.dropWhile p ++ rest := by
  induction cs with
  | nil =>
      cases rest with
      | nil => exact ⟨rfl, rfl⟩
      | cons r rest =>
          have hr : p r = false := hrest
          simp [hr]
  | cons c cs ih =>
      cases hc : p c with
      | true => simpa [hc] using ih
      | false => simp [hc]

theorem head?_any_of_isAlphanum {p : Char → Bool} (hp : ∀ c, p c = true → c.isAlphanum = true)
    {rest : List Char} (h : rest.head?.any Char.isAlphanum = false) :
    rest.head?.any p = false := by
  cases rest with
  | nil => rfl
  | cons r rest =>
      have hr : ¬ r.isAlphanum = true := by simpa using h
      exact Bool.eq_false_iff.2 fun hpr => hr (hp r hpr)

/-- What follows a run does not change its first word. -/
theorem nextWord_append_stop (run : List Char) {rest : List Char}
    (hrest : rest.head?.any Char.isAlphanum = false) :
    nextWord (run ++ rest) = ((nextWord run).1, (nextWord run).2 ++ rest) := by
  have hupper := head?_any_of_isAlphanum (fun c hc => (isAlphanum_iff c).2 (.inl hc)) hrest
  have hsmall := head?_any_of_isAlphanum (fun c hc => isAlphanum_of_isSmall hc) hrest
  have hdigit := head?_any_of_isAlphanum
    (fun c hc => isAlphanum_of_isSmall (isSmall_iff.2 (.inr hc))) hrest
  have hlower := head?_any_of_isAlphanum
    (fun c hc => isAlphanum_of_isSmall (isSmall_iff.2 (.inl hc))) hrest
  obtain ⟨htake, hdrop⟩ := takeWhile_append_stop run hupper
  simp only [nextWord, htake, hdrop]
  split
  · simp only [takeWhile_append_stop _ hsmall]
  · simp only [takeWhile_append_stop _ hsmall]
  · have hhead : (run.dropWhile Char.isUpper ++ rest).head?.any Char.isLower =
        (run.dropWhile Char.isUpper).head?.any Char.isLower := by
      cases run.dropWhile Char.isUpper with
      | nil => exact hlower
      | cons c cs => rfl
    rw [hhead]
    split
    · simp
    · simp only [takeWhile_append_stop _ hdigit]

theorem FirstWord.ne_nil {word rest : List Char} (h : FirstWord word rest) : word ≠ [] := by
  cases h with
  | small hne => exact hne
  | capitalised => simp
  | acronym hne => exact hne
  | numbered => simp

theorem FirstWord.isAlphanum {word rest : List Char} (h : FirstWord word rest) :
    ∀ c ∈ word, c.isAlphanum = true := by
  have hcapital : ∀ c : Char, c.isUpper = true → c.isAlphanum = true := fun c hc =>
    (isAlphanum_iff c).2 (.inl hc)
  intro c hc
  cases h with
  | small _ hword => exact isAlphanum_of_isSmall (hword c hc)
  | capitalised hfirst hsmalls =>
      rcases List.mem_cons.1 hc with rfl | hc
      · exact hcapital c hfirst
      · exact isAlphanum_of_isSmall (hsmalls c hc)
  | acronym _ hcapitals => exact hcapital c (hcapitals c hc)
  | numbered hcapitals hdigits =>
      rcases List.mem_append.1 hc with hc | hc
      · exact hcapital c (hcapitals c hc)
      · exact isAlphanum_of_isSmall (isSmall_iff.2 (.inr (hdigits c hc)))

theorem length_nextWord_lt {cs : List Char} (h : cs.head?.any Char.isAlphanum = true) :
    (nextWord cs).2.length < cs.length := by
  have hpos := List.length_pos_iff.2 (firstWord_nextWord h).ne_nil
  have hlength := congrArg List.length (nextWord_append cs)
  rw [List.length_append] at hlength
  omega

theorem wordsFrom_nil (limit : Nat) : wordsFrom limit [] = [] := by
  cases limit <;> rfl

theorem wordsFrom_cons (limit : Nat) (c : Char) (cs : List Char) :
    wordsFrom (limit + 1) (c :: cs) =
      (nextWord (c :: cs)).1 :: wordsFrom limit (nextWord (c :: cs)).2 := rfl

/-- A limit that is no less than the length of a run is no limit. -/
theorem wordsFrom_eq_wordsFrom {limit limit' : Nat} {cs : List Char} (hlimit : cs.length ≤ limit)
    (hlimit' : cs.length ≤ limit') (h : ∀ c ∈ cs, c.isAlphanum = true) :
    wordsFrom limit cs = wordsFrom limit' cs := by
  induction limit generalizing limit' cs with
  | zero =>
      rw [List.length_eq_zero_iff.1 (Nat.le_zero.1 hlimit), wordsFrom_nil, wordsFrom_nil]
  | succ limit ih =>
      cases cs with
      | nil => rw [wordsFrom_nil, wordsFrom_nil]
      | cons c cs =>
          have hlength : (nextWord (c :: cs)).2.length < cs.length + 1 :=
            length_nextWord_lt (h c (by simp))
          rw [List.length_cons] at hlimit hlimit'
          obtain ⟨limit', rfl⟩ := Nat.exists_eq_add_one.2 (Nat.zero_lt_of_lt hlimit')
          have hrest : ∀ d ∈ (nextWord (c :: cs)).2, d.isAlphanum = true := fun d hd =>
            h d (nextWord_append (c :: cs) ▸ List.mem_append_right _ hd)
          have hsame : wordsFrom limit (nextWord (c :: cs)).2 =
              wordsFrom limit' (nextWord (c :: cs)).2 := ih (by omega) (by omega) hrest
          rw [wordsFrom_cons, wordsFrom_cons, hsame]

theorem wordsOfRun_eq_cons {run : List Char} (hne : run ≠ [])
    (h : ∀ c ∈ run, c.isAlphanum = true) :
    wordsOfRun run = (nextWord run).1 :: wordsOfRun (nextWord run).2 := by
  obtain ⟨c, cs, rfl⟩ := List.exists_cons_of_ne_nil hne
  have hlength : (nextWord (c :: cs)).2.length < cs.length + 1 :=
    length_nextWord_lt (h c (by simp))
  have hrest : ∀ d ∈ (nextWord (c :: cs)).2, d.isAlphanum = true := fun d hd =>
    h d (nextWord_append (c :: cs) ▸ List.mem_append_right _ hd)
  rw [wordsOfRun, List.length_cons, wordsFrom_cons, wordsOfRun,
    wordsFrom_eq_wordsFrom (by omega) (Nat.le_refl _) hrest]

theorem wordsOfChars_separator {c : Char} (hc : c.isAlphanum = false) (cs : List Char) :
    wordsOfChars (c :: cs) = wordsOfChars cs := by
  simp [wordsOfChars, Text.runs, Text.firstRun, hc, Text.consRun]

/-- The words of a name are those of its first run and those of the rest. -/
theorem wordsOfChars_append_stop {run rest : List Char} (hrun : ∀ c ∈ run, c.isAlphanum = true)
    (hrest : rest.head?.any Char.isAlphanum = false) :
    wordsOfChars (run ++ rest) = wordsOfRun run ++ wordsOfChars rest := by
  have hfree : ∀ c ∈ run, (!c.isAlphanum) = false := fun c hc => by simp [hrun c hc]
  by_cases hne : run = []
  · subst hne
    rfl
  · cases rest with
    | nil =>
        rw [List.append_nil, wordsOfChars, Text.runs_of_free hfree hne]
        rfl
    | cons r rest =>
        have hr : r.isAlphanum = false := hrest
        rw [wordsOfChars_separator hr, wordsOfChars,
          Text.runs_append_separator hfree hne (by simp [hr]), List.flatMap_cons]
        rfl

/-- A name that starts with a letter or digit has a first word, and its other words are those of
what follows. -/
theorem wordsOfChars_eq_cons {cs : List Char} (h : cs.head?.any Char.isAlphanum = true) :
    wordsOfChars cs = (nextWord cs).1 :: wordsOfChars (nextWord cs).2 := by
  have hsplit : cs.takeWhile Char.isAlphanum ++ cs.dropWhile Char.isAlphanum = cs :=
    List.takeWhile_append_dropWhile
  have hrun : ∀ c ∈ cs.takeWhile Char.isAlphanum, c.isAlphanum = true := fun c hc =>
    List.mem_takeWhile_imp hc
  have hrest := head?_any_dropWhile Char.isAlphanum cs
  have hne : cs.takeWhile Char.isAlphanum ≠ [] := by
    intro hempty
    rw [hempty, List.nil_append] at hsplit
    rw [hsplit, h] at hrest
    cases hrest
  generalize cs.takeWhile Char.isAlphanum = run at hsplit hrun hne
  generalize cs.dropWhile Char.isAlphanum = rest at hsplit hrest
  subst hsplit
  have hrun' : ∀ c ∈ (nextWord run).2, c.isAlphanum = true := fun c hc =>
    hrun c (nextWord_append run ▸ List.mem_append_right _ hc)
  rw [nextWord_append_stop run hrest, wordsOfChars_append_stop hrun hrest,
    wordsOfChars_append_stop hrun' hrest, wordsOfRun_eq_cons hne hrun, List.cons_append]

end Groundplan.Name
