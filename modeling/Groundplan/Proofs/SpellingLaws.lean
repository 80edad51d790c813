import Groundplan.Proofs.WordForms

/-!
# Spellings that are spelled again

The snake and the kebab spelling of a name keep its words: in small letters and with a separator
between neighbours they are read back as they were. A word of small letters and digits is never cut,
and a separator is never a part of a word. So whatever is made from the words in small letters can
be made from either spelling in place of the name, and the two spellings tell the same names apart.
-/

namespace Groundplan.Name

theorem lowerWord_of_isSmallWord {word : String} (h : IsSmallWord word) : lowerWord word = word := by
  rw [lowerWord, map_toLower_of_small h.2, String.ofList_toList]

/-- Small letters and digits are one word. -/
theorem wordsOfRun_of_small {run : List Char} (hne : run ≠ [])
    (h : ∀ c ∈ run, isSmall c = true) : wordsOfRun run = [run] := by
  have hupper : run.takeWhile Char.isUpper = [] := by
    obtain ⟨c, cs, rfl⟩ := List.exists_cons_of_ne_nil hne
    refine List.takeWhile_cons_of_neg fun hc => ?_
    have hsmall := h c (by simp)
    rw [not_isSmall_of_isUpper hc] at hsmall
    cases hsmall
  have hnext : nextWord run = (run, []) := by
    simp only [nextWord, hupper, List.takeWhile_eq_self_iff.2 h, List.dropWhile_eq_nil_iff.2 h]
  rw [wordsOfRun_eq_cons hne fun c hc => isAlphanum_of_isSmall (h c hc), hnext]
  rfl

/-- Words in small letters are read back from a spelling that joins them with a separator. -/
theorem words_intercalate {separator : Char} (hseparator : separator.isAlphanum = false)
    {spelled : List String} (h : ∀ word ∈ spelled, IsSmallWord word) :
    words ((String.singleton separator).intercalate spelled) = spelled := by
  have hpieces : ∀ piece ∈ spelled.map String.toList,
      piece ≠ [] ∧ ∀ c ∈ piece, isSmall c = true := by
    intro piece hpiece
    obtain ⟨word, hword, rfl⟩ := List.mem_map.1 hpiece
    exact h word hword
  have hruns : Text.runs (fun c => !c.isAlphanum)
      ((String.singleton separator).intercalate spelled).toList = spelled.map String.toList := by
    rw [String.toList_intercalate, String.toList_singleton]
    refine Text.runs_intercalate (by simp [hseparator]) fun piece hpiece => ?_
    obtain ⟨hne, hsmall⟩ := hpieces piece hpiece
    exact ⟨hne, fun c hc => by simp [isAlphanum_of_isSmall (hsmall c hc)]⟩
  have hwords : (spelled.map String.toList).flatMap wordsOfRun = spelled.map String.toList := by
    refine (List.flatMap_congr fun piece hpiece => ?_).trans (List.flatMap_singleton' _)
    obtain ⟨hne, hsmall⟩ := hpieces piece hpiece
    exact wordsOfRun_of_small hne hsmall
  rw [words, wordsOfChars, hruns, hwords, List.map_map]
  exact (List.map_congr_left fun word _ => String.ofList_toList).trans (List.map_id _)

theorem words_snake (name : String) : words (snake name) = lowerWords name := by
  have hjoin : snake name = (String.singleton '_').intercalate (lowerWords name) := rfl
  rw [hjoin, words_intercalate (by decide) fun _ => of_mem_lowerWords]

theorem words_kebab (name : String) : words (kebab name) = lowerWords name := by
  have hjoin : kebab name = (String.singleton '-').intercalate (lowerWords name) := rfl
  rw [hjoin, words_intercalate (by decide) fun _ => of_mem_lowerWords]

/-- A name that has the words of another in small letters is the same name in small letters. -/
theorem lowerWords_eq_of_words_eq {name spelled : String} (h : words spelled = lowerWords name) :
    lowerWords spelled = lowerWords name := by
  rw [lowerWords, h]
  refine (List.map_congr_left fun word hword => ?_).trans (List.map_id _)
  exact lowerWord_of_isSmallWord (of_mem_lowerWords hword)

theorem snake_eq_of_lowerWords_eq {name other : String} (h : lowerWords name = lowerWords other) :
    snake name = snake other :=
  congrArg ("_".intercalate ·) h

theorem kebab_eq_of_lowerWords_eq {name other : String} (h : lowerWords name = lowerWords other) :
    kebab name = kebab other :=
  congrArg ("-".intercalate ·) h

theorem pascal_eq_of_lowerWords_eq {name other : String} (h : lowerWords name = lowerWords other) :
    pascal name = pascal other := by
  rw [pascal_eq_join, h, pascal_eq_join]

/-- The words of the snake and kebab spellings of a name are its words in small letters. So spelling
again changes nothing, each of the two spellings is recovered from the other, both have the Pascal
spelling of the name, and they identify the same names. -/
theorem spellings_keep_words (name : String) :
    words (snake name) = (words name).map lowerWord ∧
      words (kebab name) = (words name).map lowerWord ∧
      snake (snake name) = snake name ∧ kebab (kebab name) = kebab name ∧
      snake (kebab name) = snake name ∧ kebab (snake name) = kebab name ∧
      pascal (snake name) = pascal name ∧ pascal (kebab name) = pascal name ∧
      ∀ other, snake name = snake other ↔ kebab name = kebab other := by
  have hsnake := lowerWords_eq_of_words_eq (words_snake name)
  have hkebab := lowerWords_eq_of_words_eq (words_kebab name)
  refine ⟨words_snake name, words_kebab name, snake_eq_of_lowerWords_eq hsnake,
    kebab_eq_of_lowerWords_eq hkebab, snake_eq_of_lowerWords_eq hkebab,
    kebab_eq_of_lowerWords_eq hsnake, pascal_eq_of_lowerWords_eq hsnake,
    pascal_eq_of_lowerWords_eq hkebab, fun other => ⟨fun h => ?_, snake_eq_of_kebab_eq⟩⟩
  -- The words are read off the snake spellings, and the kebab spellings are made from them.
  refine kebab_eq_of_lowerWords_eq ?_
  rw [← words_snake name, h, words_snake other]

end Groundplan.Name
