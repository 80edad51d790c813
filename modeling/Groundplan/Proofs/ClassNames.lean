import Groundplan.Proofs.NameCapture

/-!
# Which definitions become classes with a legal name

The class of a definition is named by the Pascal spelling of its key, and nothing is done to make
that a legal name. Spelling drops what is no ASCII letter or digit and changes the case of the rest,
so the name is empty for a key without letters and digits, and starts with a digit if the first of
them is one. It is a reserved word exactly for the three words that are capitalised there: `False`,
`None` and `True` are the only reserved words that start with a capital.

The checklist asks for none of this. Field names are corrected in all of these cases.
-/

namespace Groundplan

/-! ### The letters and digits of a name -/

namespace Name

/-- The words of a run together are the run. -/
theorem flatten_wordsFrom {limit : Nat} {cs : List Char} (hlimit : cs.length ≤ limit)
    (h : ∀ c ∈ cs, c.isAlphanum = true) : (wordsFrom limit cs).flatten = cs := by
  induction limit generalizing cs with
  | zero =>
      rw [List.length_eq_zero_iff.1 (Nat.le_zero.1 hlimit)]
      rfl
  | succ limit ih =>
      cases cs with
      | nil => simp [wordsFrom]
      | cons c cs =>
          have happend := nextWord_append (c :: cs)
          have hword : (nextWord (c :: cs)).1 ≠ [] := nextWord_ne_nil (by simp) h
          have hlength : (nextWord (c :: cs)).1.length + (nextWord (c :: cs)).2.length =
              cs.length + 1 := by
            rw [← List.length_append, happend, List.length_cons]
          -- The first word is not empty, so what is left is shorter.
          have hpos : 0 < (nextWord (c :: cs)).1.length := List.length_pos_iff.2 hword
          have hrest : (nextWord (c :: cs)).2.length ≤ limit := by
            simp only [List.length_cons] at hlimit
            omega
          rw [wordsFrom, List.flatten_cons, ih hrest]
          · exact happend
          · intro d hd
            exact h d (happend ▸ List.mem_append_right _ hd)
          · simp

/-- The letters and digits of a name, in order. -/
def letters (name : String) : List Char :=
  name.toList.filter Char.isAlphanum

/-- The words of a name together are its letters and digits. -/
theorem flatMap_words (name : String) : (words name).flatMap String.toList = letters name := by
  have hruns : ∀ run ∈ Text.runs (fun c => !c.isAlphanum) name.toList,
      (wordsOfRun run).flatten = run := by
    intro run hrun
    refine flatten_wordsFrom (Nat.le_refl _) fun c hc => ?_
    simpa using (Text.of_mem_runs hrun).2 c hc
  calc (words name).flatMap String.toList
      = (wordsOfChars name.toList).flatten := by
        simp [words, List.flatMap_map, List.flatMap_id']
    _ = (Text.runs (fun c => !c.isAlphanum) name.toList).flatMap fun run =>
          (wordsOfRun run).flatten := by
        rw [wordsOfChars, List.flatMap_def, List.flatten_flatten, List.map_map, List.flatMap_def]
        rfl
    _ = (Text.runs (fun c => !c.isAlphanum) name.toList).flatten := by
        rw [List.flatMap_def, List.map_congr_left hruns, List.map_id']
    _ = letters name := by simp [Text.flatten_runs, letters]

theorem toLower_recased {c : Char} (h : c.isAlphanum = true) :
    c.toUpper.toLower = c.toLower ∧ c.toLower.toLower = c.toLower :=
  of_ascii (fun c => c.toUpper.toLower = c.toLower ∧ c.toLower.toLower = c.toLower) (by decide)
    (toNat_lt_of_isAlphanum h)

theorem lower_capitalWord {word : String} (h : ∀ c ∈ word.toList, c.isAlphanum = true) :
    (capitalWord word).toList.map Char.toLower = word.toList.map Char.toLower := by
  unfold capitalWord
  split
  next hword => simp [hword]
  next c cs hword =>
    rw [hword] at h ⊢
    obtain ⟨hc, hcs⟩ := List.forall_mem_cons.1 h
    rw [String.toList_ofList, List.map_cons, List.map_cons, (toLower_recased hc).1, List.map_map]
    refine congrArg _ (List.map_congr_left fun d hd => ?_)
    exact (toLower_recased (hcs d hd)).2

/-- Up to case, the Pascal spelling of a name is made of its letters and digits. -/
theorem lower_pascal (name : String) :
    (pascal name).toList.map Char.toLower = (letters name).map Char.toLower := by
  rw [← flatMap_words, pascal, String.toList_join, List.flatMap_map, List.map_flatMap,
    List.map_flatMap]
  refine List.flatMap_congr fun word hword => ?_
  exact lower_capitalWord (of_mem_words hword).2

/-! ### Legal names -/

theorem isAlphanum_of_isAlpha {c : Char} (h : c.isAlpha = true) : c.isAlphanum = true := by
  change (c.isAlpha || c.isDigit) = true
  rw [h, Bool.true_or]

theorem isAlpha_of_toLower_eq {c d : Char} (hc : c.isAlphanum = true) (hd : d.isAlphanum = true)
    (h : c.toLower = d.toLower) : c.isAlpha = d.isAlpha := by
  have hlower : ∀ c : Char, c.isAlphanum = true → c.toLower.isAlpha = c.isAlpha := fun c hc =>
    of_ascii (fun c => c.toLower.isAlpha = c.isAlpha) (by decide) (toNat_lt_of_isAlphanum hc)
  rw [← hlower c hc, ← hlower d hd, h]

/-- The Pascal spelling of a name is an identifier exactly when the first letter or digit of the
name is a letter. -/
theorem isPlainName_pascal_iff (name : String) :
    TypeExpr.isPlainName (pascal name).toList = true ↔
      (letters name).head?.any Char.isAlpha = true := by
  have hlower := lower_pascal name
  have hpascal := isAlphanum_pascal name
  have hletters : ∀ c ∈ letters name, c.isAlphanum = true := fun c hc => (List.mem_filter.1 hc).2
  -- Up to case the spelling and the letters are the same, so they are empty together and start alike.
  cases hfirst : letters name with
  | nil =>
      have hempty : (pascal name).toList = [] := by simpa [hfirst] using hlower
      simp [hempty, TypeExpr.isPlainName]
  | cons d ds =>
      obtain ⟨c, cs, hchars⟩ : ∃ c cs, (pascal name).toList = c :: cs := by
        refine List.exists_cons_of_ne_nil fun hempty => ?_
        simp [hempty, hfirst] at hlower
      rw [hchars] at hlower hpascal ⊢
      rw [hfirst] at hlower hletters
      obtain ⟨hc, hcs⟩ := List.forall_mem_cons.1 hpascal
      have hd : d.isAlphanum = true := hletters d List.mem_cons_self
      have hhead : c.isAlpha = d.isAlpha := isAlpha_of_toLower_eq hc hd (List.cons.inj hlower).1
      have hunderscore : c ≠ '_' := by
        rintro rfl
        exact absurd hc (by decide)
      have htail : (cs.all fun d => d.isAlphanum || d = '_') = true := by
        refine List.all_eq_true.2 fun e he => ?_
        simp [hcs e he]
      simp [TypeExpr.isPlainName, hhead, hunderscore, htail]

/-! ### Reserved words -/

theorem map_toLower_of_small {cs : List Char} (h : ∀ c ∈ cs, isSmall c = true) :
    cs.map Char.toLower = cs := by
  refine (List.map_congr_left fun c hc => ?_).trans (List.map_id cs)
  exact of_ascii (fun c => isSmall c = true → c.toLower = c) (by decide)
    (toNat_lt_of_isAlphanum (isAlphanum_of_isSmall (h c hc))) (h c hc)

/-- A word in small letters is capitalised in its first character only. -/
theorem toList_capitalWord {word : String} (h : IsSmallWord word) :
    ∃ c cs, word.toList = c :: cs ∧ (capitalWord word).toList = c.toUpper :: cs := by
  obtain ⟨c, cs, hchars⟩ := List.exists_cons_of_ne_nil h.1
  refine ⟨c, cs, hchars, ?_⟩
  have hsame : cs.map Char.toLower = cs :=
    map_toLower_of_small fun d hd => h.2 d (by simp [hchars, hd])
  simp [capitalWord, hchars, hsame]

theorem capitalWord_lowerWord {word : String} (h : ∀ c ∈ word.toList, c.isAlphanum = true) :
    capitalWord (lowerWord word) = capitalWord word := by
  unfold capitalWord lowerWord
  rw [String.toList_ofList]
  cases hword : word.toList with
  | nil => rfl
  | cons c cs =>
      rw [hword] at h
      obtain ⟨hc, hcs⟩ := List.forall_mem_cons.1 h
      have hfirst : c.toLower.toUpper = c.toUpper :=
        of_ascii (fun c => c.toLower.toUpper = c.toUpper) (by decide) (toNat_lt_of_isAlphanum hc)
      have hrest : (cs.map Char.toLower).map Char.toLower = cs.map Char.toLower := by
        rw [List.map_map]
        exact List.map_congr_left fun d hd => (toLower_recased (hcs d hd)).2
      simp only [List.map_cons, hfirst, hrest]

theorem pascal_eq_join (name : String) :
    pascal name = String.join ((lowerWords name).map capitalWord) := by
  rw [pascal, lowerWords, List.map_map]
  refine congrArg String.join (List.map_congr_left fun word hword => ?_)
  exact (capitalWord_lowerWord (of_mem_words hword).2).symm

theorem capitalWord_inj {word word' : String} (h : IsSmallWord word) (h' : IsSmallWord word')
    (heq : capitalWord word = capitalWord word') : word = word' := by
  obtain ⟨c, cs, hword, hcapital⟩ := toList_capitalWord h
  obtain ⟨d, ds, hword', hcapital'⟩ := toList_capitalWord h'
  have hback : ∀ c : Char, isSmall c = true → c.toUpper.toLower = c := fun c hc =>
    of_ascii (fun c => isSmall c = true → c.toUpper.toLower = c) (by decide)
      (toNat_lt_of_isAlphanum (isAlphanum_of_isSmall hc)) hc
  rw [heq, hcapital', List.cons.injEq] at hcapital
  have hfirst : c = d := by
    rw [← hback c (h.2 c (by simp [hword])), ← hcapital.1, hback d (h'.2 d (by simp [hword']))]
  rw [← String.toList_inj, hword, hword', hfirst, hcapital.2]

/-- A spelling with no capital behind the first character comes from one word. -/
theorem lowerWords_eq_singleton {name : String} {c : Char} {cs : List Char}
    (hchars : (pascal name).toList = c :: cs) (hsmall : cs.all Char.isLower = true) :
    ∃ word, lowerWords name = [word] ∧ IsSmallWord word := by
  have hwords : ∀ word ∈ lowerWords name, IsSmallWord word := fun _ => of_mem_lowerWords
  rw [pascal_eq_join, String.toList_join] at hchars
  cases hlower : lowerWords name with
  | nil => simp [hlower] at hchars
  | cons first rest =>
      rw [hlower] at hchars hwords
      obtain ⟨d, ds, -, hcapital⟩ := toList_capitalWord (hwords first List.mem_cons_self)
      simp only [List.map_cons, List.flatMap_cons, hcapital, List.cons_append,
        List.cons.injEq] at hchars
      cases rest with
      | nil => exact ⟨first, rfl, hwords first List.mem_cons_self⟩
      | cons next rest =>
          -- The second word would start with a character that is no small letter.
          have hnext : IsSmallWord next := hwords next (by simp)
          obtain ⟨e, es, hword, hcapital'⟩ := toList_capitalWord hnext
          have hmem : e.toUpper ∈ cs := by simp [← hchars.2, hcapital']
          have he : e.isAlphanum = true := isAlphanum_of_isSmall (hnext.2 e (by simp [hword]))
          have hlower : e.toUpper.isLower = true := List.all_eq_true.1 hsmall _ hmem
          rw [isLower_toUpper he] at hlower
          cases hlower

theorem pascal_eq_capitalWord_iff {word : String} (h : IsSmallWord word)
    (hletters : word.toList.all Char.isLower = true) (name : String) :
    pascal name = capitalWord word ↔ lowerWords name = [word] := by
  have hjoin : ∀ word : String, String.join ([word].map capitalWord) = capitalWord word := by
    intro word
    simp [String.join]
  constructor
  · intro heq
    obtain ⟨c, cs, hword, hcapital⟩ := toList_capitalWord h
    have hcs : cs.all Char.isLower = true := by
      rw [hword, List.all_cons, Bool.and_eq_true] at hletters
      exact hletters.2
    obtain ⟨word', hwords, hsmall⟩ := lowerWords_eq_singleton (by rw [heq, hcapital]) hcs
    rw [pascal_eq_join, hwords, hjoin] at heq
    rw [hwords, capitalWord_inj hsmall h heq]
  · intro hwords
    rw [pascal_eq_join, hwords, hjoin]

/-- The words that are reserved when they are capitalised. -/
def capitalReserved : List String := ["false", "none", "true"]

theorem pascal_mem_reservedWords_iff (name : String) :
    pascal name ∈ reservedWords ↔ ∃ word ∈ capitalReserved, lowerWords name = [word] := by
  have hspelled : ∀ word ∈ capitalReserved,
      pascal name = capitalWord word ↔ lowerWords name = [word] := by
    have hwords : ∀ word ∈ capitalReserved,
        IsSmallWord word ∧ word.toList.all Char.isLower = true := by
      decide
    intro word hword
    exact pascal_eq_capitalWord_iff (hwords word hword).1 (hwords word hword).2 name
  constructor
  · -- No spelling starts with a small letter, and most reserved words do.
    intro hmem
    have hcapital : ∀ reserved ∈ reservedWords, startsSmall reserved = false →
        ∃ word ∈ capitalReserved, reserved = capitalWord word := by
      decide
    obtain ⟨word, hword, heq⟩ := hcapital _ hmem (startsSmall_pascal name)
    exact ⟨word, hword, (hspelled word hword).1 heq⟩
  · rintro ⟨word, hword, heq⟩
    have hreserved : ∀ word ∈ capitalReserved, capitalWord word ∈ reservedWords := by
      decide
    rw [(hspelled word hword).2 heq]
    exact hreserved word hword

/-- Whether a text can name a class: it is an identifier, and no reserved word. -/
def IsClassName (text : String) : Prop :=
  TypeExpr.isPlainName text.toList = true ∧ text ∉ reservedWords

instance : DecidablePred IsClassName := fun _ => inferInstanceAs (Decidable (_ ∧ _))

/-- Whether the class of a definition gets a legal name: the first letter or digit of its key is a
letter, and the key is not one of three words. -/
def NamesClass (key : String) : Prop :=
  (letters key).head?.any Char.isAlpha = true ∧ ∀ word ∈ capitalReserved, lowerWords key ≠ [word]

theorem isClassName_pascal_iff (key : String) : IsClassName (pascal key) ↔ NamesClass key := by
  rw [IsClassName, NamesClass, isPlainName_pascal_iff, pascal_mem_reservedWords_iff]
  simp

end Name

/-! ### The classes of a model -/

namespace Model

/-- The keys of the definitions that become classes. -/
def classKeys (m : Model) : List String :=
  m.valueObjects.names ++ m.aggregates.names ++ m.events.names ++ m.commands.names

/-- The classes of a model are those of its keys, accepted or not, and the class of a key has a
legal name exactly when the first letter or digit of the key is a letter and the key is not one of
three words. -/
theorem class_names_legal_iff (m : Model) :
    (∀ name, name ∈ m.emittedClasses ↔ ∃ key ∈ m.classKeys, Name.pascal key = name) ∧
      ∀ key, Name.IsClassName (Name.pascal key) ↔ Name.NamesClass key := by
  refine ⟨fun name => ?_, Name.isClassName_pascal_iff⟩
  rw [mem_emittedClasses, typeNames, ← classKeys, List.mem_map]

/-- A model whose definitions all become classes with illegal names. -/
def misnamed : Model where
  version := "1.0"
  context := ⟨"Depot", "acme.depot", none⟩
  aggregates := ⟨[("2nd", ⟨"2nd", none, ⟨"2nd", []⟩, []⟩)], by decide⟩
  valueObjects := ⟨[("none", ⟨"none", none, .record []⟩)], by decide⟩
  events := ⟨[("?", ⟨"?", none, none, []⟩)], by decide⟩
  commands := ⟨[("True", ⟨"True", none, none, [], [], [], []⟩)], by decide⟩
  queries := .empty
  subscriptions := []
  aliases := .empty

/-- The checklist lets definitions become classes with an empty name, a name that starts with a
digit, and reserved words. -/
theorem misnamed_accepted_with_illegal_names :
    misnamed.violation? = none ∧
      ∀ name ∈ ["2nd", "None", "", "True"],
        name ∈ misnamed.emittedClasses ∧ ¬ Name.IsClassName name := by
  constructor
  · rw [violation?_eq_none_iff]
    intro rule
    cases rule <;> decide +kernel
  · simp only [mem_emittedClasses]
    decide +kernel

end Model

end Groundplan
