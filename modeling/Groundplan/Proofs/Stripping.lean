import Groundplan.Text.Blank
import Mathlib.Data.List.DropRight

/-!
# Stripped texts

Stripping takes the blanks from both ends of a text. Nothing is left exactly when the text was blank
throughout, and a stripped text has nothing left to strip. Stripping does not commute with joining:
blanks between two texts stay.
-/

namespace Groundplan.Text

theorem stripChars_eq (cs : List Char) :
    stripChars cs = (cs.dropWhile isBlank).rdropWhile isBlank := rfl

theorem stripChars_subset (cs : List Char) : stripChars cs ⊆ cs := by
  rw [stripChars_eq]
  exact ((List.rdropWhile_prefix _ _).sublist.trans (List.dropWhile_suffix _).sublist).subset

theorem stripChars_eq_nil_iff (cs : List Char) :
    stripChars cs = [] ↔ ∀ c ∈ cs, isBlank c = true := by
  rw [stripChars_eq, List.rdropWhile_eq_nil_iff]
  constructor
  · intro h c hc
    rw [← List.takeWhile_append_dropWhile (p := isBlank) (l := cs), List.mem_append] at hc
    rcases hc with hc | hc
    · exact List.mem_takeWhile_imp hc
    · exact h c hc
  · intro h c hc
    exact h c ((List.dropWhile_suffix isBlank).subset hc)

/-- Something is left of a text exactly when it has a character that is not blank. -/
theorem isEmpty_strip_eq_false_iff (text : String) :
    (strip text).isEmpty = false ↔ ∃ c ∈ text.toList, isBlank c = false := by
  have hempty : (strip text).isEmpty = true ↔ stripChars text.toList = [] := by
    rw [String.isEmpty_iff, ← String.toList_inj, strip, String.toList_ofList]
    rfl
  rw [← Bool.not_eq_true, hempty, stripChars_eq_nil_iff]
  simp

theorem dropWhile_stripChars (cs : List Char) :
    (stripChars cs).dropWhile isBlank = stripChars cs := by
  rw [stripChars_eq]
  set front := cs.dropWhile isBlank with hfront
  cases hstripped : front.rdropWhile isBlank with
  | nil => rfl
  | cons c rest =>
      -- What is left starts with the first character that is not blank.
      obtain ⟨after, hafter⟩ := List.rdropWhile_prefix isBlank front
      rw [hstripped, List.cons_append] at hafter
      have hc : isBlank c = false := by
        have hne : cs.dropWhile isBlank ≠ [] := by rw [← hfront, ← hafter]; simp
        have hhead := List.head_dropWhile_not isBlank hne
        simpa [← hfront, ← hafter] using hhead
      rw [List.dropWhile_cons_of_neg (by simp [hc])]

/-- A text with nothing blank at its ends has nothing to strip. -/
theorem stripChars_eq_self {cs : List Char} (hhead : cs.head?.any isBlank = false)
    (hlast : cs.getLast?.any isBlank = false) : stripChars cs = cs := by
  have hfront : cs.dropWhile isBlank = cs := by
    cases cs with
    | nil => rfl
    | cons c cs => exact List.dropWhile_cons_of_neg (by simpa using hhead)
  rw [stripChars_eq, hfront, List.rdropWhile_eq_self_iff]
  intro hne
  rw [List.getLast?_eq_some_getLast hne] at hlast
  simpa using hlast

/-- A text without blanks has nothing to strip. -/
theorem stripChars_of_free {cs : List Char} (h : ∀ c ∈ cs, isBlank c = false) :
    stripChars cs = cs := by
  refine stripChars_eq_self ?_ ?_
  · cases cs with
    | nil => rfl
    | cons c cs => exact h c List.mem_cons_self
  · cases hlast : cs.getLast? with
    | none => rfl
    | some c => exact h c (List.mem_of_getLast? hlast)

/-- A stripped text has nothing left to strip. -/
theorem strip_strip (text : String) : strip (strip text) = strip text := by
  have hchars : stripChars (stripChars text.toList) = stripChars text.toList := by
    rw [stripChars_eq (stripChars text.toList), dropWhile_stripChars, stripChars_eq,
      List.rdropWhile_idempotent]
  rw [strip, strip, String.toList_ofList, hchars]

/-! ### What is added at the ends -/

/-- What is dropped at the end is dropped from behind another list as well. -/
theorem dropEnds_append_right {p : Char → Bool} {after : List Char} (h : ∀ c ∈ after, p c = true)
    (cs : List Char) :
    ((cs ++ after).dropWhile p).rdropWhile p = (cs.dropWhile p).rdropWhile p := by
  rw [List.dropWhile_append]
  split
  next hempty => rw [List.dropWhile_eq_nil_iff.2 h, List.isEmpty_iff.1 hempty]
  next =>
    -- Something is left of the list, so the end is dropped from behind.
    have hback : ∀ c ∈ after.reverse, p c = true := fun c hc => h c (List.mem_reverse.1 hc)
    rw [List.rdropWhile, List.reverse_append, List.dropWhile_append_of_pos hback, List.rdropWhile]

/-- Whether a text is made of blanks. -/
def AllBlank (text : String) : Prop :=
  ∀ c ∈ text.toList, isBlank c = true

instance : DecidablePred AllBlank := fun text =>
  decidable_of_iff (text.toList.all isBlank = true) List.all_eq_true

/-- Blanks around a text are stripped with its own. -/
theorem strip_between {before after : String} (hbefore : AllBlank before) (hafter : AllBlank after)
    (text : String) : strip (before ++ text ++ after) = strip text := by
  rw [strip, strip, String.toList_append, String.toList_append, stripChars_eq, stripChars_eq,
    dropEnds_append_right hafter, List.dropWhile_append_of_pos hbefore]

/-- A text is what is left of it with blanks around. -/
theorem exists_blanks (text : String) :
    ∃ before after, AllBlank before ∧ AllBlank after ∧ text = before ++ strip text ++ after := by
  refine ⟨String.ofList (text.toList.takeWhile isBlank),
    String.ofList ((text.toList.dropWhile isBlank).rtakeWhile isBlank), fun c hc => ?_,
    fun c hc => ?_, ?_⟩
  · rw [String.toList_ofList] at hc
    exact List.mem_takeWhile_imp hc
  · rw [String.toList_ofList] at hc
    exact List.mem_rtakeWhile_imp hc
  · rw [← String.toList_inj, String.toList_append, String.toList_append, strip,
      String.toList_ofList, String.toList_ofList, String.toList_ofList, stripChars_eq,
      List.append_assoc, List.rdropWhile_append_rtakeWhile, List.takeWhile_append_dropWhile]

end Groundplan.Text
