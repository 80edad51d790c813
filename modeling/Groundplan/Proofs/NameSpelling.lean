import Groundplan.Name.Casing
import Mathlib.Data.List.Basic

/-!
# Spellings and the words they come from

The words of a name are not empty and hold ASCII letters and digits only. In small letters, with a
separator between neighbours, they can be read back: the runs between separators are the words. So
the snake and the kebab spelling of a name determine each other, and both determine the field name,
which is made from the snake spelling. The Pascal spelling has no separators and does not determine
the others: `a1` and `a_1` share it.
-/

namespace Groundplan

/-! ### Runs -/

namespace Text

variable {isSeparator : Char → Bool}

theorem firstRun_append {run : List Char} (hrun : ∀ c ∈ run, isSeparator c = false)
    (cs : List Char) :
    firstRun isSeparator (run ++ cs) =
      (run ++ (firstRun isSeparator cs).1, (firstRun isSeparator cs).2) := by
  induction run with
  | nil => rfl
  | cons c run ih =>
      have hc : isSeparator c = false := hrun c (by simp)
      have hrest : ∀ c ∈ run, isSeparator c = false := fun c hmem => hrun c (by simp [hmem])
      simp [firstRun, ih hrest, hc]

theorem runs_of_free {run : List Char} (hrun : ∀ c ∈ run, isSeparator c = false)
    (hne : run ≠ []) : runs isSeparator run = [run] := by
  have hfirst := firstRun_append hrun []
  simp only [List.append_nil, firstRun] at hfirst
  rw [runs, hfirst]
  cases run with
  | nil => exact absurd rfl hne
  | cons c run => rfl

theorem runs_append_separator {run : List Char} (hrun : ∀ c ∈ run, isSeparator c = false)
    (hne : run ≠ []) {separator : Char} (hseparator : isSeparator separator = true)
    (cs : List Char) :
    runs isSeparator (run ++ separator :: cs) = run :: runs isSeparator cs := by
  have hfirst := firstRun_append hrun (separator :: cs)
  simp only [firstRun, hseparator, if_true, List.append_nil] at hfirst
  rw [runs, hfirst]
  cases run with
  | nil => exact absurd rfl hne
  | cons c run => rfl

/-- Pieces that are not empty and free of separators are the runs of what one gets by joining them
with a separator. -/
theorem runs_intercalate {separator : Char} (hseparator : isSeparator separator = true)
    {pieces : List (List Char)}
    (hpieces : ∀ piece ∈ pieces, piece ≠ [] ∧ ∀ c ∈ piece, isSeparator c = false) :
    runs isSeparator ([separator].intercalate pieces) = pieces := by
  induction pieces with
  | nil => rfl
  | cons piece pieces ih =>
      obtain ⟨hne, hfree⟩ := hpieces piece (by simp)
      have hrest := ih fun piece hmem => hpieces piece (by simp [hmem])
      cases pieces with
      | nil => simpa using runs_of_free hfree hne
      | cons next pieces =>
          rw [List.intercalate_cons_cons, List.append_assoc, List.singleton_append,
            runs_append_separator hfree hne hseparator, hrest]

/-- What stands in a joined list stands in the separator or in one of the pieces. -/
theorem of_mem_intercalate {α : Type} {separator : List α} {pieces : List (List α)} {a : α}
    (h : a ∈ separator.intercalate pieces) : a ∈ separator ∨ ∃ piece ∈ pieces, a ∈ piece := by
  induction pieces with
  | nil => simp at h
  | cons piece pieces ih =>
      cases pieces with
      | nil => exact .inr ⟨piece, by simp, by simpa using h⟩
      | cons next pieces =>
          rw [List.intercalate_cons_cons, List.mem_append, List.mem_append] at h
          rcases h with (h | h) | h
          · exact .inr ⟨piece, by simp, h⟩
          · exact .inl h
          · rcases ih h with h | ⟨piece', hpiece, h⟩
            · exact .inl h
            · exact .inr ⟨piece', by simp [hpiece], h⟩

theorem of_mem_toList_intercalate {separator : String} {texts : List String} {c : Char}
    (h : c ∈ (separator.intercalate texts).toList) :
    c ∈ separator.toList ∨ ∃ text ∈ texts, c ∈ text.toList := by
  rw [String.toList_intercalate] at h
  rcases of_mem_intercalate h with h | ⟨piece, hpiece, h⟩
  · exact .inl h
  · obtain ⟨text, htext, rfl⟩ := List.mem_map.1 hpiece
    exact .inr ⟨text, htext, h⟩

/-- Whether a text has no character of a kind. -/
def Free (kind : Char → Bool) (text : String) : Prop :=
  text.toList.any kind = false

instance (kind : Char → Bool) : DecidablePred (Free kind) := fun _ =>
  inferInstanceAs (Decidable (_ = false))

theorem free_iff {kind : Char → Bool} {text : String} :
    Free kind text ↔ ∀ c ∈ text.toList, kind c = false := by
  simp [Free]

theorem free_ofList {kind : Char → Bool} {cs : List Char} (h : cs.any kind = false) :
    Free kind (String.ofList cs) := by
  rw [Free, String.toList_ofList, h]

theorem free_append_iff {kind : Char → Bool} (text rest : String) :
    Free kind (text ++ rest) ↔ Free kind text ∧ Free kind rest := by
  rw [Free, String.toList_append, List.any_append, Bool.or_eq_false_iff]
  exact Iff.rfl

theorem Free.append {kind : Char → Bool} {text rest : String} (h : Free kind text)
    (h' : Free kind rest) : Free kind (text ++ rest) :=
  (free_append_iff text rest).2 ⟨h, h'⟩

theorem free_intercalate {kind : Char → Bool} {separator : String} (h : Free kind separator)
    {texts : List String} (h' : ∀ text ∈ texts, Free kind text) :
    Free kind (separator.intercalate texts) := by
  rw [free_iff]
  intro c hc
  rcases of_mem_toList_intercalate hc with hc | ⟨text, htext, hc⟩
  · exact free_iff.1 h c hc
  · exact free_iff.1 (h' text htext) c hc

theorem of_mem_consRun {run first : List Char} {others : List (List Char)}
    (h : run ∈ consRun first others) : run ≠ [] ∧ run = first ∨ run ∈ others := by
  cases first with
  | nil => exact .inr h
  | cons c first =>
      rcases List.mem_cons.1 h with rfl | h
      · exact .inl ⟨by simp, rfl⟩
      · exact .inr h

theorem free_firstRun (isSeparator : Char → Bool) (cs : List Char) :
    (∀ c ∈ (firstRun isSeparator cs).1, isSeparator c = false) ∧
      ∀ run ∈ (firstRun isSeparator cs).2, run ≠ [] ∧ ∀ c ∈ run, isSeparator c = false := by
  induction cs with
  | nil => simp [firstRun]
  | cons c cs ih =>
      obtain ⟨hfirst, hothers⟩ := ih
      cases hc : isSeparator c with
      | true =>
          -- The run before `c` is empty, and the first run after it joins the others.
          simp only [firstRun, hc, if_true, List.not_mem_nil, false_imp_iff, implies_true, true_and]
          intro run hmem
          rcases of_mem_consRun hmem with ⟨hne, rfl⟩ | hmem
          · exact ⟨hne, hfirst⟩
          · exact hothers run hmem
      | false =>
          simp only [firstRun, hc]
          exact ⟨by simpa [hc] using hfirst, hothers⟩

/-- A run is not empty, and its characters are no separators. -/
theorem of_mem_runs {cs run : List Char} (h : run ∈ runs isSeparator cs) :
    run ≠ [] ∧ ∀ c ∈ run, isSeparator c = false := by
  obtain ⟨hfirst, hothers⟩ := free_firstRun isSeparator cs
  rcases of_mem_consRun h with ⟨hne, rfl⟩ | hmem
  · exact ⟨hne, hfirst⟩
  · exact hothers run hmem

theorem flatten_consRun (run : List Char) (others : List (List Char)) :
    (consRun run others).flatten = run ++ others.flatten := by
  cases run with
  | nil => rfl
  | cons c run => rfl

theorem flatten_firstRun (isSeparator : Char → Bool) (cs : List Char) :
    (firstRun isSeparator cs).1 ++ (firstRun isSeparator cs).2.flatten =
      cs.filter fun c => !isSeparator c := by
  induction cs with
  | nil => rfl
  | cons c cs ih =>
      cases hc : isSeparator c with
      | true => simp [firstRun, hc, flatten_consRun, ih]
      | false => simp [firstRun, hc, ← ih]

/-- The runs together are all that is no separator. -/
theorem flatten_runs (isSeparator : Char → Bool) (cs : List Char) :
    (runs isSeparator cs).flatten = cs.filter fun c => !isSeparator c := by
  rw [← flatten_firstRun]
  exact flatten_consRun _ _

end Text

/-! ### Words -/

namespace Name

theorem isAlphanum_iff (c : Char) :
    c.isAlphanum = true ↔ c.isUpper = true ∨ isSmall c = true := by
  change (c.isUpper || c.isLower || c.isDigit) = true ↔ _
  rw [isSmall, Bool.or_eq_true, Bool.or_eq_true, Bool.or_eq_true, or_assoc]

/-- The first word and what follows it are the whole run. -/
theorem nextWord_append (cs : List Char) : (nextWord cs).1 ++ (nextWord cs).2 = cs := by
  have hsplit : cs.takeWhile Char.isUpper ++ cs.dropWhile Char.isUpper = cs :=
    List.takeWhile_append_dropWhile
  simp only [nextWord]
  split
  next hcapitals => exact List.takeWhile_append_dropWhile
  next c hcapitals =>
    rw [hcapitals] at hsplit
    rw [List.cons_append, List.takeWhile_append_dropWhile]
    exact hsplit
  next hnil hone =>
    split
    · have hne : cs.takeWhile Char.isUpper ≠ [] := fun h => hnil h
      rw [List.getLast?_eq_some_getLast hne, Option.toList_some, ← List.append_assoc,
        List.dropLast_append_getLast hne]
      exact hsplit
    · rw [List.append_assoc, List.takeWhile_append_dropWhile]
      exact hsplit

theorem nextWord_ne_nil {cs : List Char} (hne : cs ≠ []) (h : ∀ c ∈ cs, c.isAlphanum = true) :
    (nextWord cs).1 ≠ [] := by
  simp only [nextWord]
  split
  next hcapitals =>
    obtain ⟨c, cs, rfl⟩ := List.exists_cons_of_ne_nil hne
    have hlarge : ¬ c.isUpper = true := fun hc => by simp [hc] at hcapitals
    have hsmall : isSmall c = true := ((isAlphanum_iff c).1 (h c (by simp))).resolve_left hlarge
    simp [hsmall]
  next c hcapitals => simp
  next hnil hone =>
    split
    · -- A second capital is left when the last one starts a word of its own.
      intro hlast
      match hcapitals : cs.takeWhile Char.isUpper with
      | [] => exact hnil hcapitals
      | [c] => exact hone c hcapitals
      | c :: c' :: capitals => simp [hcapitals] at hlast
    · intro happend
      exact hnil (List.append_eq_nil_iff.1 happend).1

/-- Every word of a run is not empty and holds letters and digits only. -/
theorem of_mem_wordsFrom {limit : Nat} {cs word : List Char}
    (h : ∀ c ∈ cs, c.isAlphanum = true) (hmem : word ∈ wordsFrom limit cs) :
    word ≠ [] ∧ ∀ c ∈ word, c.isAlphanum = true := by
  -- The limit only bounds the search: each word is a piece of what was left.
  induction limit generalizing cs with
  | zero => simp [wordsFrom] at hmem
  | succ limit ih =>
      cases cs with
      | nil => simp [wordsFrom] at hmem
      | cons c cs =>
          have happend := nextWord_append (c :: cs)
          rw [← happend] at h
          rw [wordsFrom] at hmem
          rcases List.mem_cons.1 hmem with rfl | hmem
          · refine ⟨nextWord_ne_nil (by simp) (happend ▸ h), ?_⟩
            intro c hc
            exact h c (List.mem_append_left _ hc)
          · exact ih (fun c hc => h c (List.mem_append_right _ hc)) hmem
          · simp

theorem of_mem_words {name word : String} (h : word ∈ words name) :
    word.toList ≠ [] ∧ ∀ c ∈ word.toList, c.isAlphanum = true := by
  obtain ⟨word, hmem, rfl⟩ := List.mem_map.1 h
  obtain ⟨run, hrun, hmem⟩ := List.mem_flatMap.1 hmem
  rw [String.toList_ofList]
  exact of_mem_wordsFrom (fun c hc => by simpa using (Text.of_mem_runs hrun).2 c hc) hmem

/-! ### Words in small letters -/

/-- The words of a name in small letters: what its snake and kebab spellings are joined from. -/
def lowerWords (name : String) : List String :=
  (words name).map lowerWord

theorem isAlphanum_of_isSmall {c : Char} (h : isSmall c = true) : c.isAlphanum = true :=
  (isAlphanum_iff c).2 (.inr h)

theorem toNat_lt_of_isAlphanum {c : Char} (h : c.isAlphanum = true) : c.toNat < 128 := by
  have hbelow {last : Char} (hle : c.val ≤ last.val) (hlast : last.toNat < 128) :
      c.toNat < 128 :=
    Nat.lt_of_le_of_lt (UInt32.le_iff_toNat_le.1 hle) hlast
  rcases (isAlphanum_iff c).1 h with hupper | hsmall
  · change decide (c.val ≥ 'A'.val ∧ c.val ≤ 'Z'.val) = true at hupper
    exact hbelow (of_decide_eq_true hupper).2 (by decide)
  · rw [isSmall, Bool.or_eq_true] at hsmall
    rcases hsmall with hlower | hdigit
    · change (decide (c.val ≥ 'a'.val) && decide (c.val ≤ 'z'.val)) = true at hlower
      rw [Bool.and_eq_true] at hlower
      exact hbelow (of_decide_eq_true hlower.2) (by decide)
    · change (decide (c.val ≥ '0'.val) && decide (c.val ≤ '9'.val)) = true at hdigit
      rw [Bool.and_eq_true] at hdigit
      exact hbelow (of_decide_eq_true hdigit.2) (by decide)

/-- What holds of every ASCII character holds of a character that is one. -/
theorem of_ascii (P : Char → Prop) (h : ∀ n < 128, P (Char.ofNat n)) {c : Char}
    (hc : c.toNat < 128) : P c := by
  have hself := h c.toNat hc
  rwa [Char.ofNat_toNat] at hself

/-- Changing the case of a letter or digit gives a letter or digit. -/
theorem isAlphanum_recased {c : Char} (h : c.isAlphanum = true) :
    isSmall c.toLower = true ∧ c.toUpper.isAlphanum = true :=
  of_ascii (fun c => c.isAlphanum = true → isSmall c.toLower = true ∧ c.toUpper.isAlphanum = true)
    (by decide) (toNat_lt_of_isAlphanum h) h

/-- Whether a text is a word of small letters and digits. -/
def IsSmallWord (word : String) : Prop :=
  word.toList ≠ [] ∧ ∀ c ∈ word.toList, isSmall c = true

instance : DecidablePred IsSmallWord := fun word =>
  @instDecidableAnd _ _ inferInstance (List.decidableBAll _ word.toList)

theorem of_mem_lowerWords {name word : String} (h : word ∈ lowerWords name) :
    IsSmallWord word := by
  obtain ⟨word, hmem, rfl⟩ := List.mem_map.1 h
  obtain ⟨hne, hchars⟩ := of_mem_words hmem
  rw [IsSmallWord, lowerWord, String.toList_ofList]
  refine ⟨by simpa using hne, ?_⟩
  intro c hc
  obtain ⟨c', hc', rfl⟩ := List.mem_map.1 hc
  exact (isAlphanum_recased (hchars c' hc')).1

/-- Words in small letters can be read off a spelling that joins them with a character that is
neither a small letter nor a digit. -/
theorem runs_intercalate_smallWords {separator : Char} (hseparator : isSmall separator = false)
    {words : List String} (h : ∀ word ∈ words, IsSmallWord word) :
    Text.runs (fun c => !isSmall c)
        ((String.singleton separator).intercalate words).toList =
      words.map String.toList := by
  rw [String.toList_intercalate, String.toList_singleton]
  refine Text.runs_intercalate (by simp [hseparator]) ?_
  intro piece hmem
  obtain ⟨word, hword, rfl⟩ := List.mem_map.1 hmem
  obtain ⟨hne, hsmall⟩ := h word hword
  exact ⟨hne, fun c hc => by simp [hsmall c hc]⟩

theorem smallWords_eq_of_intercalate_eq (separator : Char) (hseparator : isSmall separator = false)
    {words words' : List String} (hwords : ∀ word ∈ words, IsSmallWord word)
    (hwords' : ∀ word ∈ words', IsSmallWord word)
    (h : (String.singleton separator).intercalate words =
      (String.singleton separator).intercalate words') :
    words = words' := by
  have hruns := runs_intercalate_smallWords hseparator hwords
  rw [h, runs_intercalate_smallWords hseparator hwords'] at hruns
  exact (List.map_injective_iff.2 (fun _ _ => String.toList_injective) hruns).symm

theorem lowerWords_eq_of_kebab_eq {name name' : String} (h : kebab name = kebab name') :
    lowerWords name = lowerWords name' :=
  smallWords_eq_of_intercalate_eq '-' (by decide) (fun _ => of_mem_lowerWords)
    (fun _ => of_mem_lowerWords) h

/-- Field names are made from snake spellings. -/
theorem field_eq_of_snake_eq {name name' : String} (h : snake name = snake name') :
    field name = field name' := by
  unfold field
  rw [h]

theorem snake_eq_of_kebab_eq {name name' : String} (h : kebab name = kebab name') :
    snake name = snake name' := by
  change "_".intercalate (lowerWords name) = "_".intercalate (lowerWords name')
  rw [lowerWords_eq_of_kebab_eq h]

/-! ### The characters of spellings -/

/-- The characters that spelled names and the paths of routes consist of. -/
def isNameChar (c : Char) : Bool :=
  c.isAlphanum || c = '_' || c = '-' || c = '/'

theorem toNat_lt_of_isNameChar {c : Char} (h : isNameChar c = true) : c.toNat < 128 := by
  simp only [isNameChar, Bool.or_eq_true, decide_eq_true_eq] at h
  rcases h with ((h | rfl) | rfl) | rfl
  · exact toNat_lt_of_isAlphanum h
  all_goals decide

/-- Whether a text could be a spelled name or a path as far as its characters go. -/
def IsPlain (text : String) : Prop :=
  ∀ c ∈ text.toList, isNameChar c = true

-- By the characters of the text; there is also a decision by all the characters there are.
instance : DecidablePred IsPlain := fun text => List.decidableBAll _ text.toList

theorem IsPlain.append {text text' : String} (h : IsPlain text) (h' : IsPlain text') :
    IsPlain (text ++ text') := by
  intro c hc
  rw [String.toList_append, List.mem_append] at hc
  exact hc.elim (h c) (h' c)

theorem IsPlain.intercalate {separator : String} (hseparator : IsPlain separator)
    {texts : List String} (h : ∀ text ∈ texts, IsPlain text) :
    IsPlain (separator.intercalate texts) := by
  intro c hc
  rcases Text.of_mem_toList_intercalate hc with hc | ⟨text, htext, hc⟩
  · exact hseparator c hc
  · exact h text htext c hc

theorem isPlain_of_mem_lowerWords {name word : String} (h : word ∈ lowerWords name) :
    IsPlain word := by
  intro c hc
  simp [isNameChar, isAlphanum_of_isSmall ((of_mem_lowerWords h).2 c hc)]

theorem isPlain_snake (name : String) : IsPlain (snake name) :=
  .intercalate (by decide) fun _ h => isPlain_of_mem_lowerWords h

theorem isPlain_kebab (name : String) : IsPlain (kebab name) :=
  .intercalate (by decide) fun _ h => isPlain_of_mem_lowerWords h

theorem isPlain_routePath (name : String) : IsPlain (routePath name) :=
  .append (by decide) (isPlain_kebab name)

theorem isPlain_handlerMethod (name : String) : IsPlain (handlerMethod name) :=
  .append (by decide) (isPlain_snake name)

theorem isPlain_field (name : String) : IsPlain (field name) := by
  have hsnake := isPlain_snake name
  have hdigit : IsPlain ("field_" ++ snake name) := .append (by decide) hsnake
  have hunderscore : IsPlain "_" := by decide
  simp only [field]
  split
  · decide
  · split <;> split
    · exact hdigit.append hunderscore
    · exact hdigit
    · exact hsnake.append hunderscore
    · exact hsnake

theorem isPlain_member (name : String) : IsPlain (member name) := by
  unfold member
  simp only
  split
  · exact (isPlain_field name).append (by decide)
  · exact isPlain_field name

/-- The large letter of a character of a name is one as well. -/
theorem isNameChar_toUpper {c : Char} (h : isNameChar c = true) : isNameChar c.toUpper = true :=
  of_ascii (fun c => isNameChar c = true → isNameChar c.toUpper = true) (by decide)
    (toNat_lt_of_isNameChar h) h

theorem isPlain_constant (name : String) : IsPlain (constant name) := by
  have hupper : IsPlain (String.ofList ((snake name).toList.map Char.toUpper)) := by
    intro c hc
    rw [String.toList_ofList] at hc
    obtain ⟨d, hd, rfl⟩ := List.mem_map.1 hc
    exact isNameChar_toUpper (isPlain_snake name d hd)
  unfold constant
  simp only
  split
  · decide
  · split
    · exact IsPlain.append (by decide) hupper
    · exact hupper

theorem isPlain_routeHandler (name : String) : IsPlain (routeHandler name) :=
  isPlain_field name

theorem isAlphanum_capitalWord {word : String} (h : ∀ c ∈ word.toList, c.isAlphanum = true) :
    ∀ c ∈ (capitalWord word).toList, c.isAlphanum = true := by
  unfold capitalWord
  split
  · simp
  · next c cs hword =>
    rw [hword] at h
    intro c' hc'
    rw [String.toList_ofList, List.mem_cons] at hc'
    rcases hc' with rfl | hc'
    · exact (isAlphanum_recased (h c (by simp))).2
    · obtain ⟨c'', hc'', rfl⟩ := List.mem_map.1 hc'
      exact isAlphanum_of_isSmall (isAlphanum_recased (h c'' (by simp [hc'']))).1

theorem isAlphanum_pascal (name : String) :
    ∀ c ∈ (pascal name).toList, c.isAlphanum = true := by
  intro c hc
  rw [pascal, String.toList_join] at hc
  obtain ⟨spelled, hmem, hc⟩ := List.mem_flatMap.1 hc
  obtain ⟨word, hword, rfl⟩ := List.mem_map.1 hmem
  exact isAlphanum_capitalWord (of_mem_words hword).2 c hc

theorem isPlain_pascal (name : String) : IsPlain (pascal name) := by
  intro c hc
  simp [isNameChar, isAlphanum_pascal name c hc]

end Name

end Groundplan
