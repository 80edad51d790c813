import Groundplan.Proofs.TypeReferences
import Groundplan.Proofs.WordForms

/-!
# Pascal spellings that are spelled again

A Pascal spelling marks the start of a word by a capital alone. A word of one letter leaves nothing
but its capital, and behind it the capital of the next word is read as part of an acronym unless a
small letter follows. Then the two are one word, and spelling it makes a small letter of the second
capital: `a_b` is spelled `AB`, and that is spelled `Ab`. Nothing else is changed by spelling a name
twice. Words that start with a digit may be joined to the word before them, but that changes no
letter.

So a type can be referred to by the name of its class only if no words of its key run together.
-/

namespace Groundplan

namespace Name

/-- Whether two neighbouring words are read as one in a Pascal spelling: the first is one letter,
and the second starts with a letter that no other letter follows. -/
def RunTogether (word next : String) : Prop :=
  word.toList.length = 1 ∧ word.toList.head?.any Char.isAlpha = true ∧
    next.toList.head?.any Char.isAlpha = true ∧ next.toList.tail.head?.any Char.isAlpha = false

instance (word next : String) : Decidable (RunTogether word next) :=
  inferInstanceAs (Decidable (_ ∧ _))

/-- The characters of a capitalised word. -/
def capitalChars : List Char → List Char
  | [] => []
  | c :: cs => c.toUpper :: cs.map Char.toLower

theorem toList_capitalWord_eq (word : String) :
    (capitalWord word).toList = capitalChars word.toList := by
  unfold capitalWord
  split
  next h => rw [h]; rfl
  next c cs h => rw [h, String.toList_ofList]; rfl

theorem length_capitalChars (cs : List Char) : (capitalChars cs).length = cs.length := by
  cases cs with
  | nil => rfl
  | cons c cs => simp [capitalChars]

theorem toList_pascal (name : String) :
    (pascal name).toList = (wordsOfChars name.toList).flatMap capitalChars := by
  rw [pascal, String.toList_join, words, List.map_map, List.flatMap_map]
  refine List.flatMap_congr fun word _ => ?_
  rw [Function.comp_apply, toList_capitalWord_eq, String.toList_ofList]

/-! ### Crowded capitals -/

/-- Whether a capital stands behind a capital and before no small letter. -/
def isCrowded : List Char → Bool
  | a :: b :: rest =>
    a.isUpper && b.isUpper && !rest.head?.any Char.isLower || isCrowded (b :: rest)
  | _ => false

theorem isCrowded_cons_of_isSmall {a : Char} (ha : isSmall a = true) (rest : List Char) :
    isCrowded (a :: rest) = isCrowded rest := by
  have hupper : a.isUpper = false := by
    cases h : a.isUpper with
    | false => rfl
    | true => rw [not_isSmall_of_isUpper h] at ha; cases ha
  cases rest with
  | nil => rfl
  | cons b rest => simp [isCrowded, hupper]

theorem isCrowded_append_of_isSmall {smalls : List Char} (h : ∀ c ∈ smalls, isSmall c = true)
    (rest : List Char) : isCrowded (smalls ++ rest) = isCrowded rest := by
  induction smalls with
  | nil => rfl
  | cons c smalls ih =>
      obtain ⟨hc, hsmalls⟩ := List.forall_mem_cons.1 h
      rw [List.cons_append, isCrowded_cons_of_isSmall hc, ih hsmalls]

/-- A capital in front of a small letter or digit is not crowded. -/
theorem isCrowded_cons_append {c : Char} {smalls : List Char} (hne : smalls ≠ [])
    (h : ∀ c ∈ smalls, isSmall c = true) (rest : List Char) :
    isCrowded (c :: (smalls ++ rest)) = isCrowded rest := by
  obtain ⟨d, smalls, rfl⟩ := List.exists_cons_of_ne_nil hne
  have hd : d.isUpper = false := by
    cases hupper : d.isUpper with
    | false => rfl
    | true =>
        have hsmall := h d (by simp)
        rw [not_isSmall_of_isUpper hupper] at hsmall
        cases hsmall
  rw [← isCrowded_append_of_isSmall h rest, List.cons_append, isCrowded, hd]
  simp

/-- Whatever stands before them, crowded capitals stay crowded. -/
theorem isCrowded_append {rest : List Char} (h : isCrowded rest = true) (front : List Char) :
    isCrowded (front ++ rest) = true := by
  induction front with
  | nil => exact h
  | cons a front ih =>
      rw [List.cons_append]
      cases hrest : front ++ rest with
      | nil => rw [hrest] at ih; cases ih
      | cons b rest' =>
          rw [hrest] at ih
          rw [isCrowded, ih, Bool.or_true]

/-! ### Reading a spelling -/

theorem toUpper_of_not_isLower {c : Char} (hc : c.isAlphanum = true) (h : c.isLower = false) :
    c.toUpper = c :=
  of_ascii (fun c => c.isLower = false → c.toUpper = c) (by decide) (toNat_lt_of_isAlphanum hc) h

/-- A word is not changed when it is capitalised if only its first character could be a capital, and
that is no small letter. -/
theorem capitalChars_eq {c : Char} {smalls : List Char} (hc : c.isAlphanum = true)
    (hfirst : c.isLower = false) (h : ∀ c ∈ smalls, isSmall c = true) :
    capitalChars (c :: smalls) = c :: smalls := by
  rw [capitalChars, map_toLower_of_small h, toUpper_of_not_isLower hc hfirst]

/-- A word with a capital behind its first character is changed when it is capitalised. -/
theorem capitalChars_ne {c d : Char} {cs : List Char} (hd : d.isUpper = true) (hmem : d ∈ cs) :
    capitalChars (c :: cs) ≠ c :: cs := by
  intro h
  have hlower : cs.map Char.toLower = cs.map id := (List.cons.inj h).2.trans (List.map_id cs).symm
  have hsame : d.toLower = d := List.map_inj_left.1 hlower d hmem
  exact of_ascii (fun c => c.isUpper = true → c.toLower ≠ c) (by decide)
    (toNat_lt_of_isAlphanum ((isAlphanum_iff d).2 (.inl hd))) hd hsame

theorem isUpper_of_not_isSmall {c : Char} (hc : c.isAlphanum = true) (hsmall : isSmall c = false) :
    c.isUpper = true :=
  ((isAlphanum_iff c).1 hc).resolve_right fun h => by rw [hsmall] at h; cases h

/-- A word with two capitals that no small letter follows is changed, and they are crowded. -/
theorem changed_of_capitals {a a' : Char} (ha : a.isUpper = true) (ha' : a'.isUpper = true)
    (front : List Char) {more rest : List Char}
    (hrest : (more ++ rest).head?.any Char.isLower = false) :
    capitalChars (front ++ [a, a'] ++ more) ≠ front ++ [a, a'] ++ more ∧
      isCrowded (front ++ [a, a'] ++ more ++ rest) = true := by
  constructor
  · cases front with
    | nil => exact capitalChars_ne ha' (by simp)
    | cons c front => exact capitalChars_ne ha' (by simp)
  · have hcrowded : isCrowded (a :: a' :: (more ++ rest)) = true := by
      rw [isCrowded, ha, ha', hrest]
      rfl
    simpa using isCrowded_append hcrowded front

/-- The first word of a spelling that starts with no small letter is kept, and the rest starts with
none either, exactly where its capitals are not crowded. -/
theorem FirstWord.kept_iff {word rest : List Char} (h : FirstWord word rest)
    (hchars : ∀ c ∈ word ++ rest, c.isAlphanum = true)
    (hhead : (word ++ rest).head?.any Char.isLower = false) :
    (capitalChars word = word ∧ rest.head?.any Char.isLower = false ∧ isCrowded rest = false) ↔
      isCrowded (word ++ rest) = false := by
  have hopen : rest.head?.any isSmall = false → rest.head?.any Char.isLower = false := by
    cases rest with
    | nil => exact id
    | cons r rest => exact fun hr => (Bool.or_eq_false_iff.1 hr).1
  cases h with
  | small hne hword hrest =>
      obtain ⟨c, cs, rfl⟩ := List.exists_cons_of_ne_nil hne
      have hkept : capitalChars (c :: cs) = c :: cs :=
        capitalChars_eq (hchars c (by simp)) hhead fun d hd => hword d (by simp [hd])
      rw [isCrowded_append_of_isSmall hword]
      simp [hkept, hopen hrest]
  | @capitalised smalls _ c hc hsmalls hrest hone =>
      have hkept := capitalChars_eq (hchars c (by simp)) hhead hsmalls
      by_cases hnil : smalls = []
      · -- Neither a capital nor anything small follows, so this is the end.
        obtain rfl : rest = [] := by
          cases rest with
          | nil => rfl
          | cons r rest =>
              have hupper := isUpper_of_not_isSmall (hchars r (by simp)) hrest
              have hnot : r.isUpper = false := hone hnil
              rw [hupper] at hnot
              cases hnot
        subst hnil
        simp [hkept, isCrowded]
      · rw [List.cons_append, isCrowded_cons_append hnil hsmalls]
        simp [hkept, hopen hrest]
  | @acronym _ rest c d hne hcapitals hc hd =>
      by_cases hone : ∃ a, word = [a]
      · -- One capital before a capitalised word is a word as well.
        obtain ⟨a, rfl⟩ := hone
        have hkept : capitalChars [a] = [a] :=
          capitalChars_eq (hchars a (by simp)) (not_isLower_of_isUpper (hcapitals a (by simp)))
            (by simp)
        have hnext : isCrowded ([a] ++ c :: d :: rest) = isCrowded (c :: d :: rest) := by
          rw [List.singleton_append, isCrowded]
          simp [hd]
        rw [hnext]
        simp [hkept, not_isLower_of_isUpper hc]
      · obtain ⟨front, a, a', rfl⟩ := exists_append_pair hne fun a ha => hone ⟨a, ha⟩
        have hfollows : ([] ++ c :: d :: rest).head?.any Char.isLower = false :=
          not_isLower_of_isUpper hc
        obtain ⟨hchanged, hcrowded⟩ := changed_of_capitals (hcapitals a (by simp))
          (hcapitals a' (by simp)) front hfollows
        rw [List.append_nil] at hchanged hcrowded
        exact iff_of_false (fun hkept => hchanged hkept.1) (by rw [hcrowded]; decide)
  | @numbered capitals digits _ a a' hcapitals hdigits hrest hnone =>
      have hfollows : (digits ++ rest).head?.any Char.isLower = false := by
        cases digits with
        | nil => exact (hnone rfl).2
        | cons d digits => exact not_isLower_of_isDigit (hdigits d (by simp))
      obtain ⟨hchanged, hcrowded⟩ := changed_of_capitals (hcapitals a (by simp))
        (hcapitals a' (by simp)) capitals hfollows
      exact iff_of_false (fun hkept => hchanged hkept.1) (by rw [hcrowded]; decide)

/-- A spelling that starts with no small letter is its own spelling exactly where its capitals are
not crowded. -/
theorem flatMap_capitalChars_eq_iff {cs : List Char} (hchars : ∀ c ∈ cs, c.isAlphanum = true)
    (hhead : cs.head?.any Char.isLower = false) :
    (wordsOfChars cs).flatMap capitalChars = cs ↔ isCrowded cs = false := by
  -- One word after another: what is left is shorter.
  induction hlength : cs.length using Nat.strong_induction_on generalizing cs with
  | _ n ih =>
    subst hlength
    cases cs with
    | nil => exact iff_of_true rfl rfl
    | cons c cs =>
        have hfirst : (c :: cs).head?.any Char.isAlphanum = true := hchars c (by simp)
        have hword := firstWord_nextWord hfirst
        have hlt := length_nextWord_lt hfirst
        have hwhole : (nextWord (c :: cs)).1 ++ (nextWord (c :: cs)).2 = c :: cs :=
          nextWord_append (c :: cs)
        rw [wordsOfChars_eq_cons hfirst, List.flatMap_cons]
        generalize (nextWord (c :: cs)).1 = word, (nextWord (c :: cs)).2 = rest at *
        rw [← hwhole] at hchars hhead ⊢
        rw [← hword.kept_iff hchars hhead]
        constructor
        · intro hsame
          obtain ⟨hkept, hrest⟩ := List.append_inj hsame (length_capitalChars word)
          have hopen := startsSmall_pascal (String.ofList rest)
          rw [startsSmall, toList_pascal, String.toList_ofList, hrest] at hopen
          exact ⟨hkept, hopen,
            (ih rest.length hlt (fun c hc => hchars c (by simp [hc])) hopen rfl).1 hrest⟩
        · rintro ⟨hkept, hopen, hcrowded⟩
          have hrest := ih rest.length hlt (fun c hc => hchars c (by simp [hc])) hopen rfl
          rw [hkept, hrest.2 hcrowded]

/-! ### Words that run together -/

theorem isUpper_toUpper {c : Char} (h : c.isAlphanum = true) : c.toUpper.isUpper = c.isAlpha :=
  of_ascii (fun c => c.isAlphanum = true → c.toUpper.isUpper = c.isAlpha) (by decide)
    (toNat_lt_of_isAlphanum h) h

theorem isLower_toLower {c : Char} (h : c.isAlphanum = true) : c.toLower.isLower = c.isAlpha :=
  of_ascii (fun c => c.isAlphanum = true → c.toLower.isLower = c.isAlpha) (by decide)
    (toNat_lt_of_isAlphanum h) h

/-- Behind its first character a capitalised word has nothing large. -/
theorem isSmall_of_mem_map_toLower {cs : List Char} (h : ∀ c ∈ cs, c.isAlphanum = true) :
    ∀ d ∈ cs.map Char.toLower, isSmall d = true := by
  intro d hd
  obtain ⟨c, hc, rfl⟩ := List.mem_map.1 hd
  exact of_ascii (fun c => c.isAlphanum = true → isSmall c.toLower = true) (by decide)
    (toNat_lt_of_isAlphanum (h c hc)) (h c hc)

/-- A capitalised word before what starts with another one is crowded only if the two run
together. -/
theorem isCrowded_capitalChars_append {word next : String}
    (hword : word.toList ≠ [] ∧ ∀ c ∈ word.toList, c.isAlphanum = true)
    (hnext : next.toList ≠ [] ∧ ∀ c ∈ next.toList, c.isAlphanum = true) {rest : List Char}
    (hrest : rest.head?.any Char.isLower = false) :
    isCrowded (capitalChars word.toList ++ (capitalChars next.toList ++ rest)) = false ↔
      ¬ RunTogether word next ∧ isCrowded (capitalChars next.toList ++ rest) = false := by
  unfold RunTogether
  obtain ⟨hne, hchars⟩ := hword
  obtain ⟨hne', hchars'⟩ := hnext
  generalize word.toList = cs at hne hchars ⊢
  generalize next.toList = ds at hne' hchars' ⊢
  obtain ⟨c, cs, rfl⟩ := List.exists_cons_of_ne_nil hne
  obtain ⟨d, ds, rfl⟩ := List.exists_cons_of_ne_nil hne'
  obtain ⟨hc, hcs⟩ := List.forall_mem_cons.1 hchars
  obtain ⟨hd, hds⟩ := List.forall_mem_cons.1 hchars'
  by_cases hone : cs = []
  · subst hone
    -- The word is its capital, and the next one decides.
    have hfollows : (ds.map Char.toLower ++ rest).head?.any Char.isLower =
        ds.head?.any Char.isAlpha := by
      cases ds with
      | nil => exact hrest
      | cons e ds => exact isLower_toLower (hds e (by simp))
    rw [capitalChars, capitalChars, List.map_nil, List.singleton_append, List.cons_append,
      isCrowded, isUpper_toUpper hc, isUpper_toUpper hd, hfollows]
    simp
  · have hsmalls := isSmall_of_mem_map_toLower hcs
    have hmany : cs.map Char.toLower ≠ [] := by simpa using hone
    rw [capitalChars, List.cons_append, isCrowded_cons_append hmany hsmalls]
    simp [hone]

theorem head?_flatMap_capitalChars {spelled : List String}
    (h : ∀ word ∈ spelled, word.toList ≠ [] ∧ ∀ c ∈ word.toList, c.isAlphanum = true) :
    (spelled.flatMap fun word => capitalChars word.toList).head?.any Char.isLower = false := by
  cases spelled with
  | nil => rfl
  | cons word spelled =>
      obtain ⟨⟨hne, hchars⟩, -⟩ := List.forall_mem_cons.1 h
      obtain ⟨c, cs, hword⟩ := List.exists_cons_of_ne_nil hne
      have hc : c.toUpper.isLower = false := isLower_toUpper (hchars c (by simp [hword]))
      simp [hword, capitalChars, hc]

/-- A Pascal spelling is crowded exactly where words run together. -/
theorem isCrowded_flatMap_iff {spelled : List String}
    (h : ∀ word ∈ spelled, word.toList ≠ [] ∧ ∀ c ∈ word.toList, c.isAlphanum = true) :
    isCrowded (spelled.flatMap fun word => capitalChars word.toList) = false ↔
      spelled.IsChain fun word next => ¬ RunTogether word next := by
  induction spelled with
  | nil => exact iff_of_true rfl .nil
  | cons word spelled ih =>
      obtain ⟨hword, hspelled⟩ := List.forall_mem_cons.1 h
      cases spelled with
      | nil =>
          obtain ⟨c, cs, hchars⟩ := List.exists_cons_of_ne_nil hword.1
          have hsmalls : ∀ d ∈ cs.map Char.toLower, isSmall d = true :=
            isSmall_of_mem_map_toLower fun d hd => hword.2 d (by simp [hchars, hd])
          refine iff_of_true ?_ (.singleton word)
          rw [List.flatMap_singleton, hchars, capitalChars]
          by_cases hnil : cs = []
          · rw [hnil]
            rfl
          · rw [← List.append_nil (cs.map Char.toLower),
              isCrowded_cons_append (by simpa using hnil) hsmalls]
            rfl
      | cons next spelled =>
          obtain ⟨hnext, hrest⟩ := List.forall_mem_cons.1 hspelled
          rw [List.isChain_cons_cons, ← ih hspelled, List.flatMap_cons, List.flatMap_cons,
            isCrowded_capitalChars_append hword hnext (head?_flatMap_capitalChars hrest)]

/-- Spelling a name twice is spelling it once exactly if no two neighbouring words of it run
together. A Pascal spelling that is an identifier refers to the class of its name exactly then. -/
theorem pascal_pascal_eq_iff (name : String) :
    (pascal (pascal name) = pascal name ↔
        (words name).IsChain fun word next => ¬ RunTogether word next) ∧
      (TypeExpr.typeName (pascal name).toList = pascal name ↔
        TypeExpr.isPlainName (pascal name).toList = false ∨
          (words name).IsChain fun word next => ¬ RunTogether word next) := by
  have hwords : (pascal name).toList =
      (words name).flatMap fun word => capitalChars word.toList := by
    rw [toList_pascal, words, List.flatMap_map]
    refine List.flatMap_congr fun word _ => ?_
    rw [String.toList_ofList]
  have hspelled : pascal (pascal name) = pascal name ↔
      (words name).IsChain fun word next => ¬ RunTogether word next := by
    rw [← String.toList_inj, toList_pascal (pascal name),
      flatMap_capitalChars_eq_iff (isAlphanum_pascal name) (startsSmall_pascal name), hwords]
    exact isCrowded_flatMap_iff fun word hword => of_mem_words hword
  refine ⟨hspelled, ?_⟩
  rw [TypeExpr.typeName, String.ofList_toList, ← hspelled]
  cases TypeExpr.isPlainName (pascal name).toList with
  | true => simp
  | false => simp

end Name

namespace Model

/-- A definition whose words are single letters, among others. -/
def initialed : Model := keyed "a_b" "Box" "Crate" (by decide)

/-- The class of a definition with single letters for words is spelled differently when it is
spelled again, and a reference by the name of the class misses it. -/
theorem initialed_accepted_without_reference :
    Name.pascal (Name.pascal "a_b") ≠ Name.pascal "a_b" ∧ initialed.violation? = none ∧
      Name.pascal "a_b" ∈ initialed.emittedClasses ∧
      (Scope.ofModel initialed).target (Name.pascal "a_b") ∉ initialed.emittedClasses := by
  have hspelled : Name.pascal "a_b" = "AB" := by decide +kernel
  refine ⟨by decide +kernel, ?_, ?_, ?_⟩
  · rw [violation?_eq_none_iff]
    intro rule
    cases rule <;> decide +kernel
  · rw [mem_emittedClasses]
    decide +kernel
  · rw [mem_emittedClasses, hspelled, Scope.target, TypeExpr.parse_of_isPlainName (by decide)]
    decide +kernel

end Model

end Groundplan
