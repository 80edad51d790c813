import Groundplan.Proofs.Encodability
import Groundplan.Text.Quoted

/-!
# The characters of quoted texts

A text that is flattened, put on a line of a docstring or written as a literal has characters of its
own, and some that the quoting adds: spaces, backslashes and what an escape is written with. All of
these are printable ASCII. Blanks other than the space, and characters below it, do not get through:
flattening drops the former and a literal escapes the latter. A literal does keep the line breaks
above ASCII, such as the line separator.
-/

namespace Groundplan.Text

/-! ### Flattened texts -/

theorem mem_of_mem_firstRun (isSeparator : Char → Bool) (cs : List Char) :
    (∀ c ∈ (firstRun isSeparator cs).1, c ∈ cs) ∧
      ∀ run ∈ (firstRun isSeparator cs).2, ∀ c ∈ run, c ∈ cs := by
  induction cs with
  | nil => simp [firstRun]
  | cons c cs ih =>
      obtain ⟨hfirst, hothers⟩ := ih
      cases hc : isSeparator c with
      | true =>
          simp only [firstRun, hc, if_true, List.not_mem_nil, false_imp_iff, implies_true, true_and]
          intro run hrun d hd
          rcases of_mem_consRun hrun with ⟨-, rfl⟩ | hrun
          · exact .tail c (hfirst d hd)
          · exact .tail c (hothers run hrun d hd)
      | false =>
          simp only [firstRun, hc, Bool.false_eq_true, if_false, List.forall_mem_cons]
          exact ⟨⟨.head cs, fun d hd => .tail c (hfirst d hd)⟩,
            fun run hrun d hd => .tail c (hothers run hrun d hd)⟩

theorem mem_of_mem_runs {isSeparator : Char → Bool} {cs run : List Char} {c : Char}
    (hrun : run ∈ runs isSeparator cs) (hc : c ∈ run) : c ∈ cs := by
  obtain ⟨hfirst, hothers⟩ := mem_of_mem_firstRun isSeparator cs
  rcases of_mem_consRun hrun with ⟨-, rfl⟩ | hrun
  · exact hfirst c hc
  · exact hothers run hrun c hc

theorem of_mem_flatten {text : String} {c : Char} (h : c ∈ (flatten text).toList) :
    c = ' ' ∨ c ∈ text.toList ∧ isBlank c = false := by
  rcases of_mem_toList_intercalate h with hspace | ⟨word, hword, hc⟩
  · exact .inl (by simpa using hspace)
  · obtain ⟨run, hrun, rfl⟩ := List.mem_map.1 hword
    rw [String.toList_ofList] at hc
    exact .inr ⟨mem_of_mem_runs hrun hc, (of_mem_runs hrun).2 c hc⟩

/-! ### Lines of docstrings -/

theorem of_mem_docChar {c d : Char} (h : d ∈ docChar c) : d = '\\' ∨ d = c := by
  unfold docChar at h
  split at h
  · exact .inl (by simpa using h)
  · split at h
    next hquote => simpa [hquote] using h
    next => exact .inr (List.mem_singleton.1 h)

theorem of_mem_docLine {text : String} {d : Char} (h : d ∈ (docLine text).toList) :
    d = '\\' ∨ d ∈ (flatten text).toList := by
  rw [docLine, String.toList_ofList] at h
  obtain ⟨c, hc, hd⟩ := List.mem_flatMap.1 h
  rcases of_mem_docChar hd with hescape | hself
  · exact .inl hescape
  · exact .inr (hself ▸ hc)

/-! ### Literals -/

/-- A character that stands for itself on paper: printable ASCII. -/
def isInk (c : Char) : Bool :=
  0x20 ≤ c.toNat && c.toNat < 0x7f

theorem isInk_hexDigits {width n : Nat} {d : Char} (h : d ∈ hexDigits width n) :
    isInk d = true := by
  have hdigit : ∀ k < 16, isInk (hexDigit k) = true := by decide
  induction width generalizing n with
  | zero => cases h
  | succ width ih =>
      rcases List.mem_append.1 h with hmore | hlast
      · exact ih hmore
      · rw [List.mem_singleton.1 hlast]
        exact hdigit (n % 16) (Nat.mod_lt n (by decide))

theorem isInk_escape {c d : Char} (hc : isInk c = true) (h : d ∈ ['\\', c]) : isInk d = true := by
  rcases List.mem_cons.1 h with rfl | h
  · decide
  · rw [List.mem_singleton.1 h]
    exact hc

/-- A character is written in a literal as it is, or in ink. -/
theorem of_mem_literalChar {c d : Char} (h : d ∈ literalChar c) :
    isInk d = true ∨ d = c ∧ 0x20 ≤ c.toNat := by
  unfold literalChar at h
  split_ifs at h with _ _ _ _ _ _ _ hlow
  iterate 7 exact .inl (isInk_escape (by decide) h)
  · rcases List.mem_cons.1 h with rfl | h
    · exact .inl (by decide)
    · rcases List.mem_cons.1 h with rfl | h
      · exact .inl (by decide)
      · exact .inl (isInk_hexDigits h)
  · exact .inr ⟨List.mem_singleton.1 h, Nat.le_of_not_lt hlow⟩

theorem of_mem_literal {text : String} {d : Char} (h : d ∈ (literal text).toList) :
    isInk d = true ∨ d ∈ text.toList ∧ 0x20 ≤ d.toNat := by
  rw [literal, String.toList_ofList, literalChars, List.mem_cons, List.mem_append] at h
  rcases h with rfl | h | h
  · exact .inl (by decide)
  · obtain ⟨c, hc, hd⟩ := List.mem_flatMap.1 h
    rcases of_mem_literalChar hd with hink | ⟨rfl, hlow⟩
    · exact .inl hink
    · exact .inr ⟨hc, hlow⟩
  · rw [List.mem_singleton.1 h]
    exact .inl (by decide)

/-! ### Reserved characters -/

theorem isReserved_of_isInk {c : Char} (h : isInk c = true) : isReserved c = false := by
  simp only [isInk, Bool.and_eq_true, decide_eq_true_eq] at h
  simp only [isReserved, Bool.and_eq_false_iff, decide_eq_false_iff_not]
  omega

theorem isInk_of_isNameChar {c : Char} (h : Name.isNameChar c = true) : isInk c = true :=
  Name.of_ascii (fun c => Name.isNameChar c = true → isInk c = true) (by decide)
    (Name.toNat_lt_of_isNameChar h) h

theorem unreserved_of_isPlain {text : String} (h : Name.IsPlain text) : Unreserved text := by
  refine List.any_eq_false.2 fun c hc => ?_
  rw [isReserved_of_isInk (isInk_of_isNameChar (h c hc))]
  decide

theorem unreserved_flatten {text : String} (h : Unreserved text) : Unreserved (flatten text) := by
  refine List.any_eq_false.2 fun c hc => ?_
  rcases of_mem_flatten hc with rfl | ⟨hmem, -⟩
  · decide
  · exact List.any_eq_false.1 h c hmem

theorem unreserved_docLine {text : String} (h : Unreserved text) : Unreserved (docLine text) := by
  refine List.any_eq_false.2 fun c hc => ?_
  rcases of_mem_docLine hc with rfl | hmem
  · decide
  · exact List.any_eq_false.1 (unreserved_flatten h) c hmem

theorem unreserved_literal {text : String} (h : Unreserved text) : Unreserved (literal text) := by
  refine List.any_eq_false.2 fun c hc => ?_
  rcases of_mem_literal hc with hink | ⟨hmem, -⟩
  · rw [isReserved_of_isInk hink]
    decide
  · exact List.any_eq_false.1 h c hmem

end Groundplan.Text
