import Groundplan.Proofs.SharedSpelling

/-!
# Legal names

Field names, member names and constants are legal names of the generated language, whatever name
they are made from. They are made in steps: a leading word is put in front of a spelling that is
empty or starts with a digit, and an underscore behind one that is reserved. No step undoes an
earlier one. The leading word starts with a small letter, so it stays in front; the underscore comes
behind a letter or digit, so it is not a second one; and nothing that is reserved ends with an
underscore, so what an escape leaves is not reserved again.

Names of classes have no such steps and need not be legal.
-/

namespace Groundplan.Name

/-- Whether a text is a character of one kind with characters of another kind behind it. -/
def IsFormed (first others : Char → Bool) (text : String) : Prop :=
  ∃ c cs, text.toList = c :: cs ∧ first c = true ∧ ∀ d ∈ cs, others d = true

theorem IsFormed.append {first others : Char → Bool} {text rest : String}
    (h : IsFormed first others text) (hrest : ∀ c ∈ rest.toList, others c = true) :
    IsFormed first others (text ++ rest) := by
  obtain ⟨c, cs, htext, hc, hcs⟩ := h
  refine ⟨c, cs ++ rest.toList, by simp [htext], hc, ?_⟩
  intro d hd
  rcases List.mem_append.1 hd with hd | hd
  · exact hcs d hd
  · exact hrest d hd

/-! ### Leading words -/

/-- The first of the led words starts with a small letter. -/
theorem exists_ledWords_eq {lead : String} (hletter : startsWithDigit lead = false)
    (name : String) :
    ∃ word words, ledWords lead name = word :: words ∧ startsWithDigit word = false := by
  unfold ledWords
  split
  next => exact ⟨lead, [], rfl, hletter⟩
  next word words _ =>
    cases hdigit : startsWithDigit word with
    | true => exact ⟨lead, word :: words, rfl, hletter⟩
    | false => exact ⟨word, words, rfl, hdigit⟩

theorem isFormed_ledSnake {lead : String} (hlead : IsSmallWord lead)
    (hletter : startsWithDigit lead = false) (name : String) :
    IsFormed Char.isLower isSnakeChar (ledSnake lead name) := by
  obtain ⟨word, words, hwords, hdigit⟩ := exists_ledWords_eq hletter name
  have hsmall : ∀ word ∈ ledWords lead name, IsSmallWord word := fun _ => of_mem_ledWords hlead
  have hsnake := of_mem_intercalate_smallWords hsmall
  obtain ⟨hne, hchars⟩ := hsmall word (by simp [hwords])
  obtain ⟨c, cs, hword⟩ := List.exists_cons_of_ne_nil hne
  obtain ⟨rest, hrest⟩ := exists_intercalate_cons "_" word words
  have hspelled : (ledSnake lead name).toList = c :: (cs ++ rest.toList) := by
    rw [ledSnake, hwords, hrest, String.toList_append, hword]
    rfl
  refine ⟨c, cs ++ rest.toList, hspelled, ?_, ?_⟩
  · have hc : isSmall c = true := hchars c (by simp [hword])
    rw [startsWithDigit, hword] at hdigit
    rw [isSmall, Bool.or_eq_true] at hc
    exact hc.resolve_right (by simpa using hdigit)
  · intro d hd
    refine hsnake d ?_
    change d ∈ (ledSnake lead name).toList
    rw [hspelled]
    exact List.mem_cons_of_mem c hd

/-! ### Double underscores -/

/-- Whether two underscores stand side by side. -/
def HasDoubleUnderscore (text : String) : Prop :=
  ['_', '_'] <:+: text.toList

/-- A word, an underscore and something that does not start with one have no more double underscores
than the last of them. -/
theorem double_of_double_append {word rest : List Char} (hword : '_' ∉ word)
    (hrest : rest.head? ≠ some '_') (h : ['_', '_'] <:+: word ++ '_' :: rest) :
    ['_', '_'] <:+: rest := by
  induction word with
  | nil =>
      rcases List.infix_cons_iff.1 h with hstart | hinside
      · obtain ⟨after, hafter⟩ := hstart
        obtain rfl : '_' :: after = rest := List.cons.inj hafter |>.2
        exact absurd rfl hrest
      · exact hinside
  | cons c word ih =>
      obtain ⟨hc, hword⟩ := not_or.1 (mt List.mem_cons.2 hword)
      rcases List.infix_cons_iff.1 h with hstart | hinside
      · obtain ⟨after, hafter⟩ := hstart
        exact absurd (List.cons.inj hafter).1 hc
      · exact ih hword hinside

theorem not_mem_of_isSmallWord {word : String} (h : IsSmallWord word) : '_' ∉ word.toList := by
  intro hmem
  exact absurd (h.2 '_' hmem) (by decide)

/-- Small words with an underscore between neighbours have no double underscore. -/
theorem not_hasDoubleUnderscore_intercalate {words : List String}
    (h : ∀ word ∈ words, IsSmallWord word) : ¬ HasDoubleUnderscore ("_".intercalate words) := by
  have hfree {word : String} (hword : IsSmallWord word) : ¬ ['_', '_'] <:+: word.toList :=
    fun hinside => not_mem_of_isSmallWord hword (hinside.subset (by simp))
  induction words with
  | nil => simp [HasDoubleUnderscore]
  | cons word words ih =>
      obtain ⟨hword, hwords⟩ := List.forall_mem_cons.1 h
      cases words with
      | nil => simpa [HasDoubleUnderscore] using hfree hword
      | cons next words =>
          -- The next word is not empty, so the underscore before it stands alone.
          intro hdouble
          obtain ⟨rest, hrest⟩ := exists_intercalate_cons "_" next words
          obtain ⟨c, cs, hnext⟩ := List.exists_cons_of_ne_nil (hwords next (by simp)).1
          have hhead : ("_".intercalate (next :: words)).toList.head? ≠ some '_' := by
            rw [hrest, String.toList_append, hnext]
            intro heq
            obtain rfl : c = '_' := Option.some.inj heq
            exact not_mem_of_isSmallWord (hwords next (by simp)) (by simp [hnext])
          refine ih hwords (double_of_double_append (not_mem_of_isSmallWord hword) hhead ?_)
          simpa [HasDoubleUnderscore, String.intercalate_cons_cons] using hdouble

/-- An underscore behind a text that does not end with one makes no double underscore. -/
theorem not_hasDoubleUnderscore_append {text : String} (hopen : ¬ EndsOpen text)
    (h : ¬ HasDoubleUnderscore text) : ¬ HasDoubleUnderscore (text ++ "_") := by
  have hmark : "_".toList = ['_'] := rfl
  intro hdouble
  rw [HasDoubleUnderscore, String.toList_append, hmark, List.infix_concat_iff] at hdouble
  rcases hdouble with hsuffix | hinside
  · obtain ⟨before, hbefore⟩ := hsuffix
    rw [show before ++ ['_', '_'] = (before ++ ['_']) ++ ['_'] by simp] at hbefore
    apply hopen
    rw [EndsOpen, ← List.append_cancel_right hbefore]
    simp
  · exact h hinside

/-! ### Escapes -/

theorem not_endsOpen_reservedWords : ∀ text ∈ reservedWords, ¬ EndsOpen text := by
  decide

/-- A legal name of a field or variable: a small letter, then small letters, digits and single
underscores, and no reserved word. -/
def IsLegal (text : String) : Prop :=
  IsFormed Char.isLower isSnakeChar text ∧ text ∉ reservedWords ∧ ¬ HasDoubleUnderscore text

/-- The led snake spelling is legal once the reserved words are escaped, and possibly other texts
too. -/
theorem isLegal_escaped {reserved : List String} (hsubset : reservedWords ⊆ reserved)
    (name : String) : IsLegal (escaped reserved (ledSnake "field" name)) := by
  have hformed := isFormed_ledSnake isSmallWord_field (by decide) name
  have hdouble : ¬ HasDoubleUnderscore (ledSnake "field" name) :=
    not_hasDoubleUnderscore_intercalate fun _ => of_mem_ledWords isSmallWord_field
  refine ⟨?_, escaped_not_mem hsubset not_endsOpen_reservedWords _, ?_⟩
  · unfold escaped
    split
    · exact hformed.append (List.all_eq_true.1 (by decide))
    · exact hformed
  · unfold escaped
    split
    · exact not_hasDoubleUnderscore_append (not_endsOpen_ledSnake isSmallWord_field name) hdouble
    · exact hdouble

/-! ### Constants -/

/-- The characters of constants. -/
def isConstantChar (c : Char) : Bool :=
  c.isUpper || c.isDigit || c = '_'

/-- In large letters a small name becomes a large one. -/
theorem isFormed_upper {text : String} (h : IsFormed Char.isLower isSnakeChar text) :
    IsFormed Char.isUpper isConstantChar (upper text) := by
  obtain ⟨c, cs, htext, hc, hcs⟩ := h
  refine ⟨c.toUpper, cs.map Char.toUpper, by simp [upper, htext], ?_, ?_⟩
  · have hsmall : isSmall c = true := by rw [isSmall, hc, Bool.true_or]
    exact of_ascii (fun c => c.isLower = true → c.toUpper.isUpper = true) (by decide)
      (toNat_lt_of_isAlphanum (isAlphanum_of_isSmall hsmall)) hc
  · intro d hd
    obtain ⟨e, he, rfl⟩ := List.mem_map.1 hd
    exact of_ascii (fun c => isSnakeChar c = true → isConstantChar c.toUpper = true) (by decide)
      (toNat_lt_of_isSnakeChar (hcs e he)) (hcs e he)

/-- Every name has a legal field name and a legal member name, the latter is no name that records
bind themselves, and its constant is a large letter with large letters, digits and underscores
behind it. -/
theorem spelled_names_legal (name : String) :
    IsLegal (field name) ∧ IsLegal (member name) ∧ member name ∉ reservedMembers ∧
      IsFormed Char.isUpper isConstantChar (constant name) := by
  refine ⟨?_, ?_, member_not_mem_reservedMembers name, ?_⟩
  · rw [field_eq_escaped]
    exact isLegal_escaped (List.Subset.refl _) name
  · rw [member_eq_escaped]
    exact isLegal_escaped (List.subset_append_left _ _) name
  · rw [constant_eq_upper]
    exact isFormed_upper (isFormed_ledSnake isSmallWord_value (by decide) name)

end Groundplan.Name
