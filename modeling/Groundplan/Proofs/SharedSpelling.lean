import Groundplan.Proofs.NameSpelling

/-!
# Names that share a spelling

A field name is the snake spelling of a name, corrected twice: a leading word is put in front where
the spelling would be empty or start with a digit, and an underscore behind where it is reserved.
Member names and the constants of enumerations are made alike. Only the first correction can bring
two names together: `2nd` and `field_2nd` have one field name. The second cannot, because no snake
spelling ends with an underscore.

So two names share a field name, and a member name, exactly when their words in small letters are
the same behind the leading word, and a constant exactly when this holds of another leading word.
-/

namespace Groundplan.Name

/-! ### Led words -/

/-- The words of a name in small letters, behind a leading word where there are none or the first
of them starts with a digit. -/
def ledWords (lead name : String) : List String :=
  match lowerWords name with
  | [] => [lead]
  | word :: words => if startsWithDigit word then lead :: word :: words else word :: words

/-- The snake spelling of the led words of a name. -/
def ledSnake (lead name : String) : String :=
  "_".intercalate (ledWords lead name)

theorem of_mem_ledWords {lead name word : String} (hlead : IsSmallWord lead)
    (h : word ∈ ledWords lead name) : IsSmallWord word := by
  have hlower : ∀ word ∈ lowerWords name, IsSmallWord word := fun _ hmem => of_mem_lowerWords hmem
  unfold ledWords at h
  split at h
  · rw [List.mem_singleton.1 h]
    exact hlead
  next first words hwords =>
    rw [hwords] at hlower
    split at h
    · rcases List.mem_cons.1 h with rfl | h
      · exact hlead
      · exact hlower word h
    · exact hlower word h

theorem ledWords_ne_nil (lead name : String) : ledWords lead name ≠ [] := by
  unfold ledWords
  split
  · simp
  · split <;> simp

/-- The led words can be read off their snake spelling. -/
theorem ledSnake_inj {lead : String} (hlead : IsSmallWord lead) {name name' : String} :
    ledSnake lead name = ledSnake lead name' ↔ ledWords lead name = ledWords lead name' := by
  refine ⟨fun h => ?_, fun h => congrArg "_".intercalate h⟩
  exact smallWords_eq_of_intercalate_eq '_' (by decide) (fun _ => of_mem_ledWords hlead)
    (fun _ => of_mem_ledWords hlead) h

/-! ### Leading -/

theorem exists_intercalate_cons (separator word : String) (words : List String) :
    ∃ rest, separator.intercalate (word :: words) = word ++ rest := by
  cases words with
  | nil => exact ⟨"", by simp⟩
  | cons next words =>
      refine ⟨separator ++ separator.intercalate (next :: words), ?_⟩
      rw [String.intercalate_cons_cons, String.append_assoc]

theorem isEmpty_snake (name : String) :
    (snake name).isEmpty = (lowerWords name).isEmpty := by
  change ("_".intercalate (lowerWords name)).isEmpty = _
  cases hwords : lowerWords name with
  | nil => rfl
  | cons word words =>
      have hmem : word ∈ lowerWords name := by simp [hwords]
      have hword : word.toList ≠ [] := (of_mem_lowerWords hmem).1
      obtain ⟨rest, hrest⟩ := exists_intercalate_cons "_" word words
      rw [hrest, List.isEmpty_cons, ← Bool.not_eq_true, String.isEmpty_iff, ← String.toList_inj]
      simp [hword]

/-- A snake spelling starts like its first word. -/
theorem startsWithDigit_snake {name word : String} {words : List String}
    (h : lowerWords name = word :: words) :
    startsWithDigit (snake name) = startsWithDigit word := by
  have hmem : word ∈ lowerWords name := by simp [h]
  have hword : word.toList ≠ [] := (of_mem_lowerWords hmem).1
  obtain ⟨rest, hrest⟩ := exists_intercalate_cons "_" word words
  obtain ⟨c, cs, hcs⟩ := List.exists_cons_of_ne_nil hword
  change startsWithDigit ("_".intercalate (lowerWords name)) = _
  rw [h, hrest, startsWithDigit, startsWithDigit, String.toList_append, hcs]
  rfl

theorem ledSnake_eq (lead name : String) :
    ledSnake lead name =
      if (snake name).isEmpty then lead
      else if startsWithDigit (snake name) then lead ++ "_" ++ snake name else snake name := by
  rw [isEmpty_snake]
  cases hwords : lowerWords name with
  | nil => simp [ledSnake, ledWords, hwords]
  | cons word words =>
      have hsnake : snake name = "_".intercalate (word :: words) := by
        rw [← hwords]
        rfl
      rw [startsWithDigit_snake hwords, List.isEmpty_cons, hsnake]
      simp only [ledSnake, ledWords, hwords, Bool.false_eq_true, if_false]
      split
      · rw [String.intercalate_cons_cons]
      · rfl

/-! ### Escaping -/

/-- A spelling with an underscore behind it where it is reserved. -/
def escaped (reserved : List String) (spelled : String) : String :=
  if reserved.contains spelled then spelled ++ "_" else spelled

/-- Whether a text ends with an underscore. -/
def EndsOpen (text : String) : Prop :=
  text.toList.getLast? = some '_'

instance : DecidablePred EndsOpen := fun _ => inferInstanceAs (Decidable (_ = _))

theorem endsOpen_append (text : String) : EndsOpen (text ++ "_") := by
  simp [EndsOpen]

theorem getLast?_intercalate {words : List String} (hne : words ≠ [])
    (h : ∀ word ∈ words, IsSmallWord word) :
    ∃ c, ("_".intercalate words).toList.getLast? = some c ∧ isSmall c = true := by
  induction words with
  | nil => exact absurd rfl hne
  | cons word words ih =>
      cases words with
      | nil =>
          obtain ⟨hword, hsmall⟩ := h word (by simp)
          refine ⟨word.toList.getLast hword, ?_, hsmall _ (List.getLast_mem hword)⟩
          simpa using List.getLast?_eq_some_getLast hword
      | cons next words =>
          obtain ⟨c, hlast, hc⟩ := ih (by simp) fun word hmem => h word (by simp [hmem])
          refine ⟨c, ?_, hc⟩
          rw [String.intercalate_cons_cons, String.toList_append, List.getLast?_append, hlast]
          rfl

theorem not_endsOpen_ledSnake {lead : String} (hlead : IsSmallWord lead) (name : String) :
    ¬ EndsOpen (ledSnake lead name) := by
  obtain ⟨c, hlast, hc⟩ := getLast?_intercalate (ledWords_ne_nil lead name)
    fun _ => of_mem_ledWords hlead
  intro hopen
  have hunderscore : c = '_' := Option.some.inj (hlast.symm.trans hopen)
  rw [hunderscore] at hc
  exact absurd hc (by decide)

/-- Escaping keeps spellings apart that do not end with an underscore. -/
theorem escaped_inj {reserved : List String} {text text' : String} (h : ¬ EndsOpen text)
    (h' : ¬ EndsOpen text') : escaped reserved text = escaped reserved text' ↔ text = text' := by
  refine ⟨fun heq => ?_, fun heq => congrArg _ heq⟩
  unfold escaped at heq
  split at heq <;> split at heq
  · simpa [← String.toList_inj] using heq
  · exact absurd (heq ▸ endsOpen_append text) h'
  · exact absurd (heq ▸ endsOpen_append text') h
  · exact heq

/-- Escaped spellings tell names apart as their led words do, whatever is reserved. -/
theorem escaped_ledSnake_eq_iff {lead : String} (hlead : IsSmallWord lead) (reserved : List String)
    (name name' : String) :
    escaped reserved (ledSnake lead name) = escaped reserved (ledSnake lead name') ↔
      ledWords lead name = ledWords lead name' := by
  rw [escaped_inj (not_endsOpen_ledSnake hlead name) (not_endsOpen_ledSnake hlead name'),
    ledSnake_inj hlead]

/-- What an escape leaves is not among the texts it escapes, if none of these ends with an
underscore. -/
theorem escaped_not_mem {reserved texts : List String} (hsubset : texts ⊆ reserved)
    (hopen : ∀ text ∈ texts, ¬ EndsOpen text) (spelled : String) :
    escaped reserved spelled ∉ texts := by
  unfold escaped
  split
  next => exact fun hmem => hopen _ hmem (endsOpen_append spelled)
  next hfree => exact fun hmem => hfree (List.contains_iff_mem.2 (hsubset hmem))

theorem isSmallWord_field : IsSmallWord "field" := by
  decide

theorem field_eq_escaped (name : String) :
    field name = escaped reservedWords (ledSnake "field" name) := by
  rw [ledSnake_eq]
  simp only [field]
  split
  · decide
  · split <;> rfl

theorem not_endsOpen_reservedMembers : ∀ text ∈ reservedMembers, ¬ EndsOpen text := by
  decide

/-- One correction for the reserved words and one for the members come to a single one. -/
theorem member_eq_escaped (name : String) :
    member name = escaped (reservedWords ++ reservedMembers) (ledSnake "field" name) := by
  set spelled := ledSnake "field" name with hspelled
  have hfield : field name = escaped reservedWords spelled := field_eq_escaped name
  have hopen : spelled ++ "_" ∉ reservedMembers := fun hmem =>
    not_endsOpen_reservedMembers _ hmem (endsOpen_append spelled)
  simp only [member, hfield, escaped, List.contains_append]
  cases hword : reservedWords.contains spelled with
  | true => simp [hopen]
  | false => simp

/-- Two names share a field name exactly when they have the same led words. -/
theorem field_eq_iff (name name' : String) :
    field name = field name' ↔ ledWords "field" name = ledWords "field" name' := by
  rw [field_eq_escaped, field_eq_escaped]
  exact escaped_ledSnake_eq_iff isSmallWord_field _ name name'

/-- Two names share a member name exactly when they have the same led words. -/
theorem member_eq_iff (name name' : String) :
    member name = member name' ↔ ledWords "field" name = ledWords "field" name' := by
  rw [member_eq_escaped, member_eq_escaped]
  exact escaped_ledSnake_eq_iff isSmallWord_field _ name name'

/-- No member name is one of the names that records bind themselves. -/
theorem member_not_mem_reservedMembers (name : String) : member name ∉ reservedMembers := by
  rw [member_eq_escaped]
  exact escaped_not_mem (List.subset_append_right _ _) not_endsOpen_reservedMembers _

/-! ### Constants -/

/-- A text in large letters. -/
def upper (text : String) : String :=
  String.ofList (text.toList.map Char.toUpper)

theorem upper_append (text text' : String) : upper (text ++ text') = upper text ++ upper text' := by
  simp [upper]

/-- The characters of snake spellings. -/
def isSnakeChar (c : Char) : Bool :=
  isSmall c || c = '_'

theorem of_mem_intercalate_smallWords {words : List String} (h : ∀ word ∈ words, IsSmallWord word) :
    ∀ c ∈ ("_".intercalate words).toList, isSnakeChar c = true := by
  intro c hc
  rcases Text.of_mem_toList_intercalate hc with hc | ⟨word, hword, hc⟩
  · have hunderscore : c = '_' := by simpa using hc
    simp [isSnakeChar, hunderscore]
  · simp [isSnakeChar, (h word hword).2 c hc]

theorem toNat_lt_of_isSnakeChar {c : Char} (h : isSnakeChar c = true) : c.toNat < 128 := by
  rw [isSnakeChar, Bool.or_eq_true, decide_eq_true_eq] at h
  rcases h with h | rfl
  · exact toNat_lt_of_isAlphanum (isAlphanum_of_isSmall h)
  · decide

/-- Large letters can be made small again, and digits stay digits. -/
theorem toUpper_of_isSnakeChar {c : Char} (h : isSnakeChar c = true) :
    c.toUpper.toLower = c ∧ c.toUpper.isDigit = c.isDigit :=
  of_ascii (fun c => isSnakeChar c = true → c.toUpper.toLower = c ∧
    c.toUpper.isDigit = c.isDigit) (by decide) (toNat_lt_of_isSnakeChar h) h

theorem lower_upper {text : String} (h : ∀ c ∈ text.toList, isSnakeChar c = true) :
    lowerWord (upper text) = text := by
  rw [lowerWord, upper, String.toList_ofList, List.map_map, ← String.toList_inj,
    String.toList_ofList]
  refine (List.map_congr_left fun c hc => ?_).trans (List.map_id _)
  exact (toUpper_of_isSnakeChar (h c hc)).1

theorem startsWithDigit_upper {text : String} (h : ∀ c ∈ text.toList, isSnakeChar c = true) :
    startsWithDigit (upper text) = startsWithDigit text := by
  rw [startsWithDigit, startsWithDigit, upper, String.toList_ofList]
  cases hchars : text.toList with
  | nil => rfl
  | cons c cs =>
      simpa using (toUpper_of_isSnakeChar (h c (by simp [hchars]))).2

theorem isSmallWord_value : IsSmallWord "value" := by
  decide

theorem isSnakeChar_of_mem_snake (name : String) :
    ∀ c ∈ (snake name).toList, isSnakeChar c = true :=
  of_mem_intercalate_smallWords fun _ => of_mem_lowerWords

/-- A constant is the snake spelling of the led words in large letters. -/
theorem constant_eq_upper (name : String) : constant name = upper (ledSnake "value" name) := by
  have hempty : (upper (snake name)).isEmpty = (snake name).isEmpty := by
    rw [Bool.eq_iff_iff, String.isEmpty_iff, String.isEmpty_iff, ← String.toList_inj,
      ← String.toList_inj]
    simp [upper]
  have hlead : upper ("value" ++ "_" ++ snake name) = "VALUE_" ++ upper (snake name) := by
    rw [upper_append]
    rfl
  rw [ledSnake_eq]
  change (if (upper (snake name)).isEmpty then "VALUE"
    else if startsWithDigit (upper (snake name)) then "VALUE_" ++ upper (snake name)
    else upper (snake name)) = _
  rw [hempty, startsWithDigit_upper (isSnakeChar_of_mem_snake name)]
  split
  · rfl
  · split
    · exact hlead.symm
    · rfl

/-- Two names share a constant exactly when they have the same led words. -/
theorem constant_eq_iff (name name' : String) :
    constant name = constant name' ↔ ledWords "value" name = ledWords "value" name' := by
  have hchars (name : String) : ∀ c ∈ (ledSnake "value" name).toList, isSnakeChar c = true :=
    of_mem_intercalate_smallWords fun _ => of_mem_ledWords isSmallWord_value
  rw [← ledSnake_inj isSmallWord_value, constant_eq_upper, constant_eq_upper]
  refine ⟨fun h => ?_, congrArg upper⟩
  calc ledSnake "value" name
      = lowerWord (upper (ledSnake "value" name)) := (lower_upper (hchars name)).symm
    _ = lowerWord (upper (ledSnake "value" name')) := by rw [h]
    _ = ledSnake "value" name' := lower_upper (hchars name')

end Groundplan.Name
