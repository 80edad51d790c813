import Groundplan.Proofs.WordForms

/-!
# Where names are cut into words

Words are taken from the front of a name, at the greatest length that one of three forms allows.
The result does not depend on where the reading began: whether a name is cut between two letters or
digits is decided by the characters around the place. It is cut before a capital behind a small
letter or digit, before the last of several capitals if a small letter follows it, and before a
small letter behind digits that follow two capitals. The last rule looks back as far as the digits
go, and no rule looks further ahead than one character behind the cut.
-/

namespace Groundplan.Name

/-! ### Places -/

/-- Whether the characters around a place ask for a cut there. -/
inductive IsBoundary : List Char → List Char → Prop where
  | capital {front rest : List Char} {a b : Char} (ha : isSmall a = true) (hb : b.isUpper = true) :
      IsBoundary (front ++ [a]) (b :: rest)
  | acronym {front rest : List Char} {a b c : Char} (ha : a.isUpper = true) (hb : b.isUpper = true)
      (hc : c.isLower = true) : IsBoundary (front ++ [a]) (b :: c :: rest)
  | numbered {front digits rest : List Char} {a a' b : Char} (ha : a.isUpper = true)
      (ha' : a'.isUpper = true) (hne : digits ≠ []) (hdigits : ∀ d ∈ digits, d.isDigit = true)
      (hb : b.isLower = true) : IsBoundary (front ++ [a, a'] ++ digits) (b :: rest)

/-- Whether words are cut at a place of a name: some of them hold the letters and digits before it,
and the others those behind it. -/
def CutAt (words : List (List Char)) (before after : List Char) : Prop :=
  ∃ front back, words = front ++ back ∧ front.flatten = before.filter Char.isAlphanum ∧
    back.flatten = after.filter Char.isAlphanum

namespace IsBoundary

/-- A place stays a boundary if more stands before it. -/
theorem append_left {before after : List Char} (h : IsBoundary before after) (more : List Char) :
    IsBoundary (more ++ before) after := by
  cases h with
  | capital ha hb =>
      rw [← List.append_assoc]
      exact .capital ha hb
  | acronym ha hb hc =>
      rw [← List.append_assoc]
      exact .acronym ha hb hc
  | numbered ha ha' hne hdigits hb =>
      rw [← List.append_assoc, ← List.append_assoc]
      exact .numbered ha ha' hne hdigits hb

/-- No boundary stands before a digit. -/
theorem not_isDigit {before rest : List Char} {b : Char} (h : IsBoundary before (b :: rest)) :
    b.isDigit = false := by
  have hcapital (hb : b.isUpper = true) : b.isDigit = false := by
    have hsmall := not_isSmall_of_isUpper hb
    rw [isSmall, Bool.or_eq_false_iff] at hsmall
    exact hsmall.2
  cases h with
  | capital ha hb => exact hcapital hb
  | acronym ha hb hc => exact hcapital hb
  | numbered ha ha' hne hdigits hb =>
      cases hdigit : b.isDigit with
      | false => rfl
      | true =>
          rw [not_isLower_of_isDigit hdigit] at hb
          cases hb

end IsBoundary

/-- Whether a word starts behind what was read before: at a separator or at a boundary. -/
def Starts (before after : List Char) : Prop :=
  before.getLast?.any Char.isAlphanum = false ∨ IsBoundary before after

/-- The next word starts behind the first one, unless a separator follows. -/
theorem FirstWord.starts {word rest : List Char} {r : Char} (h : FirstWord word (r :: rest))
    (hr : r.isAlphanum = true) : IsBoundary word (r :: rest) := by
  rw [isAlphanum_iff] at hr
  cases h with
  | small hne hword hrest =>
      obtain ⟨front, a, rfl⟩ := (List.eq_nil_or_concat' _).resolve_left hne
      have hupper : r.isUpper = true := hr.resolve_right (by simpa using hrest)
      exact .capital (hword a (by simp)) hupper
  | @capitalised smalls _ c hc hsmalls hrest hone =>
      have hupper : r.isUpper = true := hr.resolve_right (by simpa using hrest)
      rcases List.eq_nil_or_concat' smalls with rfl | ⟨front, a, rfl⟩
      · simp [hupper] at hone
      · rw [← List.cons_append]
        exact .capital (hsmalls a (by simp)) hupper
  | acronym hne hcapitals hc hd =>
      obtain ⟨front, a, rfl⟩ := (List.eq_nil_or_concat' _).resolve_left hne
      exact .acronym (hcapitals a (by simp)) hc hd
  | @numbered capitals digits _ a a' hcapitals hdigits hrest hnone =>
      have hdigit : ¬ r.isDigit = true := by simpa using hrest
      by_cases hempty : digits = []
      · obtain ⟨hupper, hlower⟩ := hnone hempty
        simp_all [isSmall]
      · rcases hr with hupper | hsmall
        · obtain ⟨front, d, rfl⟩ := (List.eq_nil_or_concat' digits).resolve_left hempty
          rw [← List.append_assoc]
          exact .capital (isSmall_iff.2 (.inr (hdigits d (by simp)))) hupper
        · have hlower : r.isLower = true := (isSmall_iff.1 hsmall).resolve_right hdigit
          exact .numbered (hcapitals a (by simp)) (hcapitals a' (by simp)) hempty hdigits hlower

/-- Whether what stands before a place ends with two capitals and perhaps digits behind them. -/
def EndsNumbered (before : List Char) : Prop :=
  ∃ front a a' digits, before = front ++ [a, a'] ++ digits ∧ a.isUpper = true ∧
    a'.isUpper = true ∧ ∀ d ∈ digits, d.isDigit = true

/-- What a boundary asks of the character behind it and of its surroundings. -/
theorem IsBoundary.inv {before rest : List Char} {b : Char} (h : IsBoundary before (b :: rest)) :
    b.isUpper = true ∧ (before.getLast?.any isSmall = true ∨
      before.getLast?.any Char.isUpper = true ∧ rest.head?.any Char.isLower = true) ∨
    b.isLower = true ∧ before.getLast?.any Char.isDigit = true ∧ EndsNumbered before := by
  cases h with
  | capital ha hb => exact .inl ⟨hb, .inl (by simpa using ha)⟩
  | acronym ha hb hc => exact .inl ⟨hb, .inr ⟨by simpa using ha, by simpa using hc⟩⟩
  | @numbered front digits _ a a' _ ha ha' hne hdigits hb =>
      refine .inr ⟨hb, ?_, front, a, a', digits, rfl, ha, ha', hdigits⟩
      obtain ⟨digits, d, rfl⟩ := (List.eq_nil_or_concat' digits).resolve_left hne
      rw [← List.append_assoc, List.getLast?_concat]
      simpa using hdigits d (by simp)

namespace EndsNumbered

/-- Looking back over small letters and digits, one finds capitals and digits only behind digits. -/
theorem of_append {before smalls : List Char} (h : EndsNumbered (before ++ smalls))
    (hsmalls : ∀ c ∈ smalls, isSmall c = true) :
    EndsNumbered before ∧ ∀ d ∈ smalls, d.isDigit = true := by
  obtain ⟨front, a, a', digits, heq, ha, ha', hdigits⟩ := h
  rcases List.append_eq_append_iff.1 heq with ⟨more, hbefore, rfl⟩ | ⟨more, rfl, rfl⟩
  · rcases List.eq_nil_or_concat' more with rfl | ⟨more, c, rfl⟩
    · rw [List.append_nil] at hbefore
      exact ⟨⟨front, a, a', [], by simp [hbefore], ha, ha', by simp⟩, hdigits⟩
    · -- The second capital would be one of the small letters and digits.
      have hlast := congrArg List.getLast? hbefore
      rw [← List.append_assoc, List.getLast?_concat, List.getLast?_append_of_ne_nil _ (by simp)]
        at hlast
      have hc : c = a' := by simpa using hlast.symm
      have hsmall := hsmalls c (by simp)
      rw [hc, not_isSmall_of_isUpper ha'] at hsmall
      cases hsmall
  · refine ⟨⟨front, a, a', more, rfl, ha, ha', fun d hd => ?_⟩, fun d hd => ?_⟩
    · exact hdigits d (by simp [hd])
    · exact hdigits d (by simp [hd])

theorem getLast?_any {before : List Char} (h : EndsNumbered before) :
    before.getLast?.any Char.isAlphanum = true := by
  obtain ⟨front, a, a', digits, rfl, -, ha', hdigits⟩ := h
  rcases List.eq_nil_or_concat' digits with rfl | ⟨digits, d, rfl⟩
  · simpa using (isAlphanum_iff a').2 (.inl ha')
  · rw [← List.append_assoc, List.getLast?_concat]
    exact isAlphanum_of_isSmall (isSmall_iff.2 (.inr (hdigits d (by simp))))

theorem getLast?_any_of_concat {before : List Char} {c : Char} (h : EndsNumbered (before ++ [c]))
    (hc : c.isUpper = true) : before.getLast?.any Char.isUpper = true := by
  obtain ⟨front, a, a', digits, heq, ha, -, hdigits⟩ := h
  rcases List.eq_nil_or_concat' digits with rfl | ⟨digits, d, rfl⟩
  · rw [List.append_nil, List.append_cons front a] at heq
    obtain ⟨rfl, -⟩ := List.append_inj' heq rfl
    simpa using ha
  · rw [← List.append_assoc] at heq
    obtain ⟨-, hlast⟩ := List.append_inj' heq rfl
    have hd : isSmall d = true := isSmall_iff.2 (.inr (hdigits d (by simp)))
    rw [← List.singleton_inj.1 hlast, not_isSmall_of_isUpper hc] at hd
    cases hd

end EndsNumbered

/-- What a boundary asks, where the place is inside a word that starts behind `before`. -/
theorem IsBoundary.inv_append {before front rest : List Char} {b : Char} (hne : front ≠ [])
    (h : IsBoundary (before ++ front) (b :: rest)) :
    b.isUpper = true ∧ (front.getLast?.any isSmall = true ∨
      front.getLast?.any Char.isUpper = true ∧ rest.head?.any Char.isLower = true) ∨
    b.isLower = true ∧ front.getLast?.any Char.isDigit = true ∧ EndsNumbered (before ++ front) := by
  have hinv := h.inv
  rwa [List.getLast?_append_of_ne_nil _ hne] at hinv

theorem getLast?_any_eq_false {cs : List Char} {p q : Char → Bool} (h : ∀ c ∈ cs, p c = true)
    (hpq : ∀ c, p c = true → q c = false) : cs.getLast?.any q = false := by
  cases hlast : cs.getLast? with
  | none => rfl
  | some c => exact hpq c (h c (List.mem_of_getLast? hlast))

section Uncut

variable {before front rest back : List Char} {b : Char}

theorem not_isBoundary_of_small (hword : ∀ c ∈ front ++ b :: back, isSmall c = true)
    (hstart : Starts before (front ++ b :: back ++ rest)) (hne : front ≠ []) :
    ¬ IsBoundary (before ++ front) (b :: back ++ rest) := by
  intro hboundary
  rcases hboundary.inv_append hne with ⟨hb, -⟩ | ⟨-, -, hnumbered⟩
  · have hsmall := hword b (by simp)
    rw [not_isSmall_of_isUpper hb] at hsmall
    cases hsmall
  · obtain ⟨hbefore, hdigits⟩ := hnumbered.of_append fun c hc => hword c (by simp [hc])
    rcases hstart with hseparator | hstart
    · rw [hbefore.getLast?_any] at hseparator
      cases hseparator
    · -- The word would have started with a digit.
      obtain ⟨d, front, rfl⟩ := List.exists_cons_of_ne_nil hne
      have hd := hstart.not_isDigit
      rw [hdigits d (by simp)] at hd
      cases hd

theorem not_isBoundary_of_capitalised {c : Char} (hc : c.isUpper = true)
    (hsmalls : ∀ c ∈ front ++ b :: back, isSmall c = true)
    (hstart : Starts before (c :: front ++ b :: back ++ rest)) :
    ¬ IsBoundary (before ++ c :: front) (b :: back ++ rest) := by
  intro hboundary
  rcases hboundary.inv_append (by simp) with ⟨hb, -⟩ | ⟨-, hdigit, hnumbered⟩
  · have hsmall := hsmalls b (by simp)
    rw [not_isSmall_of_isUpper hb] at hsmall
    cases hsmall
  · rw [List.append_cons] at hnumbered
    obtain ⟨hbefore, hdigits⟩ := hnumbered.of_append fun c hc => hsmalls c (by simp [hc])
    have hlast := hbefore.getLast?_any_of_concat hc
    cases front with
    | nil =>
        have hsmall : isSmall c = true := isSmall_iff.2 (.inr (by simpa using hdigit))
        rw [not_isSmall_of_isUpper hc] at hsmall
        cases hsmall
    | cons d front =>
        -- So the word starts behind a capital, where the next character is not a digit.
        have hd : d.isLower = false := not_isLower_of_isDigit (hdigits d (by simp))
        have hclower : c.isLower = false := not_isLower_of_isUpper hc
        cases hbehind : before.getLast? with
        | none => simp [hbehind] at hlast
        | some a =>
            have ha : a.isUpper = true := by simpa [hbehind] using hlast
            rcases hstart with hseparator | hstart
            · simp [hbehind, (isAlphanum_iff a).2 (.inl ha)] at hseparator
            · have hinv := hstart.inv
              simp [hbehind, not_isSmall_of_isUpper ha, hd, hclower] at hinv

theorem not_isBoundary_of_capitals (hfront : ∀ c ∈ front, c.isUpper = true) (hb : b.isUpper = true)
    (hrest : rest.head?.any Char.isLower = false) (hne : front ≠ []) :
    ¬ IsBoundary (before ++ front) (b :: rest) := by
  intro hboundary
  rcases hboundary.inv_append hne with ⟨-, hlast | ⟨-, hnext⟩⟩ | ⟨hlower, -⟩
  · rw [getLast?_any_eq_false hfront fun c hc => not_isSmall_of_isUpper hc] at hlast
    cases hlast
  · rw [hrest] at hnext
    cases hnext
  · rw [not_isLower_of_isUpper hb] at hlower
    cases hlower

theorem not_isBoundary_of_digit (hb : b.isDigit = true) : ¬ IsBoundary before (b :: rest) := by
  intro hboundary
  rw [hboundary.not_isDigit] at hb
  cases hb

end Uncut

theorem head?_any_append {cs rest : List Char} {p : Char → Bool} (h : ∀ c ∈ cs, p c = false)
    (hrest : cs = [] → rest.head?.any p = false) : (cs ++ rest).head?.any p = false := by
  cases cs with
  | nil => exact hrest rfl
  | cons c cs => exact h c (by simp)

/-- A word is cut nowhere inside, if it starts where a word has to start. -/
theorem FirstWord.uncut {before front back rest : List Char} (h : FirstWord (front ++ back) rest)
    (hstart : Starts before (front ++ back ++ rest)) (hfront : front ≠ []) (hback : back ≠ []) :
    ¬ IsBoundary (before ++ front) (back ++ rest) := by
  obtain ⟨b, back, rfl⟩ := List.exists_cons_of_ne_nil hback
  generalize hword : front ++ b :: back = word at h
  cases h with
  | small hne hsmall hrest =>
      subst hword
      exact not_isBoundary_of_small hsmall hstart hfront
  | @capitalised smalls _ c hc hsmalls hrest hone =>
      obtain ⟨d, front, rfl⟩ := List.exists_cons_of_ne_nil hfront
      obtain ⟨rfl, rfl⟩ := List.cons.inj hword
      exact not_isBoundary_of_capitalised hc hsmalls hstart
  | @acronym _ rest c d hne hcapitals hc hd =>
      subst hword
      refine not_isBoundary_of_capitals (fun c hc => hcapitals c (by simp [hc]))
        (hcapitals b (by simp)) ?_ hfront
      refine head?_any_append (fun c hc => ?_) fun _ => not_isLower_of_isUpper hc
      exact not_isLower_of_isUpper (hcapitals c (by simp [hc]))
  | @numbered capitals digits _ a a' hcapitals hdigits hrest hnone =>
      rcases List.append_eq_append_iff.1 hword with ⟨more, hcut, hmore⟩ | ⟨more, -, rfl⟩
      · cases more with
        | nil =>
            rw [List.nil_append] at hmore
            exact not_isBoundary_of_digit (hdigits b (by simp [← hmore]))
        | cons c more =>
            -- The place is between two capitals.
            rw [List.cons_append, List.cons.injEq] at hmore
            obtain ⟨rfl, rfl⟩ := hmore
            rw [hcut] at hcapitals
            refine not_isBoundary_of_capitals (fun c hc => hcapitals c (by simp [hc]))
              (hcapitals b (by simp)) ?_ hfront
            rw [List.append_eq, List.append_assoc]
            refine head?_any_append (fun c hc => ?_) fun _ =>
              head?_any_append (fun c hc => ?_) fun hempty => (hnone hempty).2
            · exact not_isLower_of_isUpper (hcapitals c (by simp [hc]))
            · exact not_isLower_of_isDigit (hdigits c hc)
      · exact not_isBoundary_of_digit (hdigits b (by simp))

/-! ### Cuts -/

theorem flatten_wordsOfChars (cs : List Char) :
    (wordsOfChars cs).flatten = cs.filter Char.isAlphanum := by
  have hwords := flatMap_words (String.ofList cs)
  simpa [words, letters, List.flatMap_map, List.flatMap_id'] using hwords

theorem cutAt_separator {ws : List (List Char)} {c : Char} (hc : c.isAlphanum = false)
    (before after : List Char) : CutAt ws (c :: before) after ↔ CutAt ws before after := by
  rw [CutAt, List.filter_cons_of_neg (by simp [hc])]
  rfl

theorem cutAt_nil (cs : List Char) : CutAt (wordsOfChars cs) [] cs :=
  ⟨[], wordsOfChars cs, rfl, rfl, flatten_wordsOfChars cs⟩

/-- Behind a word, its name is cut where what follows it is cut. -/
theorem cutAt_cons_iff {word : List Char} (hne : word ≠ [])
    (hword : ∀ c ∈ word, c.isAlphanum = true) (ws : List (List Char)) (before after : List Char) :
    CutAt (word :: ws) (word ++ before) after ↔ CutAt ws before after := by
  have hfilter : (word ++ before).filter Char.isAlphanum =
      word ++ before.filter Char.isAlphanum := by
    rw [List.filter_append, List.filter_eq_self.2 hword]
  unfold CutAt
  rw [hfilter]
  constructor
  · rintro ⟨front, back, hsplit, hfront, hback⟩
    cases front with
    | nil => simp [hne] at hfront
    | cons first front =>
        obtain ⟨rfl, rfl⟩ := List.cons.inj hsplit
        exact ⟨front, back, rfl, List.append_cancel_left hfront, hback⟩
  · rintro ⟨front, back, rfl, hfront, hback⟩
    exact ⟨word :: front, back, rfl, by rw [List.flatten_cons, hfront], hback⟩

/-- A name is not cut inside its first word. -/
theorem not_cutAt_of_cons {front back : List Char} (hfront : front ≠ []) (hback : back ≠ [])
    (hword : ∀ c ∈ front ++ back, c.isAlphanum = true) (ws : List (List Char))
    (after : List Char) : ¬ CutAt ((front ++ back) :: ws) front after := by
  rintro ⟨pieces, rest, hsplit, hpieces, -⟩
  rw [List.filter_eq_self.2 fun c hc => hword c (by simp [hc])] at hpieces
  cases pieces with
  | nil => exact hfront (by simpa using hpieces.symm)
  | cons first pieces =>
      obtain ⟨rfl, -⟩ := List.cons.inj hsplit
      rw [List.flatten_cons, List.append_assoc] at hpieces
      have hempty := List.append_right_eq_self.1 hpieces
      exact hback (List.append_eq_nil_iff.1 hempty).1

/-- Whether a place of a name is between two words or beside a separator. -/
def Parts (before after : List Char) : Prop :=
  after.head?.any Char.isAlphanum = false ∨ Starts before after

/-- Behind its first word a name has a separator, or another word starts there. -/
theorem FirstWord.parts {word rest : List Char} (h : FirstWord word rest) (prior : List Char) :
    Parts (prior ++ word) rest := by
  cases rest with
  | nil => exact .inl rfl
  | cons r rest =>
      cases hr : r.isAlphanum with
      | false => exact .inl hr
      | true => exact .inr (.inr ((h.starts hr).append_left prior))

/-- No word starts inside a word. -/
theorem FirstWord.not_parts {prior front back rest : List Char} (h : FirstWord (front ++ back) rest)
    (hstart : Starts prior (front ++ back ++ rest)) (hfront : front ≠ []) (hback : back ≠ []) :
    ¬ Parts (prior ++ front) (back ++ rest) := by
  have hword := h.isAlphanum
  rintro (hhead | hlast | hboundary)
  · obtain ⟨b, back, rfl⟩ := List.exists_cons_of_ne_nil hback
    have hb : b.isAlphanum = false := hhead
    rw [hword b (by simp)] at hb
    cases hb
  · obtain ⟨front, a, rfl⟩ := (List.eq_nil_or_concat' front).resolve_left hfront
    have ha : a.isAlphanum = false := by simpa [← List.append_assoc] using hlast
    rw [hword a (by simp)] at ha
    cases ha
  · exact h.uncut hstart hfront hback hboundary

/-- Around its first word a name is cut exactly where it should be, if this is so behind the
word. -/
theorem FirstWord.cutAt_iff {word rest prior before after : List Char} (h : FirstWord word rest)
    (hstart : Starts prior (word ++ rest)) (hsplit : word ++ rest = before ++ after)
    (hbefore : before ≠ [])
    (hrest : ∀ more, rest = more ++ after → more ≠ [] →
      (CutAt (wordsOfChars rest) more after ↔ Parts (prior ++ word ++ more) after)) :
    CutAt (word :: wordsOfChars rest) before after ↔ Parts (prior ++ before) after := by
  have hend : CutAt (word :: wordsOfChars rest) word rest ↔ Parts (prior ++ word) rest := by
    have hcut := cutAt_cons_iff h.ne_nil h.isAlphanum (wordsOfChars rest) [] rest
    rw [List.append_nil] at hcut
    exact iff_of_true (hcut.2 (cutAt_nil rest)) (h.parts prior)
  rcases List.append_eq_append_iff.1 hsplit with ⟨more, rfl, rfl⟩ | ⟨more, rfl, rfl⟩
  · by_cases hnil : more = []
    · subst hnil
      rwa [List.append_nil]
    · rw [cutAt_cons_iff h.ne_nil h.isAlphanum, ← List.append_assoc]
      exact hrest more rfl hnil
  · by_cases hnil : more = []
    · subst hnil
      rwa [List.append_nil] at hend ⊢
    · exact iff_of_false (not_cutAt_of_cons hbefore hnil h.isAlphanum _ _)
        (h.not_parts hstart hbefore hnil)

/-- What is left of a name is cut exactly at separators and boundaries, if a word can start
there. -/
theorem cutAt_wordsOfChars_iff {prior cs before after : List Char}
    (hstart : Parts prior cs) (hcs : cs = before ++ after) (hbefore : before ≠ []) :
    CutAt (wordsOfChars cs) before after ↔ Parts (prior ++ before) after := by
  -- One word or separator after another, with all that came before it as `prior`.
  induction hlength : cs.length using Nat.strong_induction_on generalizing prior cs before with
  | _ n ih =>
    subst hlength
    cases hhead : cs.head?.any Char.isAlphanum with
    | false =>
        obtain ⟨c, before, rfl⟩ := List.exists_cons_of_ne_nil hbefore
        subst hcs
        have hc : c.isAlphanum = false := hhead
        have hlast : Parts (prior ++ [c]) (before ++ after) := .inr (.inl (by simp [hc]))
        rw [List.cons_append, wordsOfChars_separator hc, cutAt_separator hc,
          List.append_cons prior]
        by_cases hnil : before = []
        · subst hnil
          exact iff_of_true (cutAt_nil after) (by simpa using hlast)
        · exact ih (before ++ after).length (by simp) hlast rfl hnil rfl
    | true =>
        have hword := firstWord_nextWord hhead
        have hlt := length_nextWord_lt hhead
        rw [wordsOfChars_eq_cons hhead]
        have hwhole : (nextWord cs).1 ++ (nextWord cs).2 = cs := nextWord_append cs
        generalize (nextWord cs).1 = word, (nextWord cs).2 = rest at hword hwhole hlt ⊢
        subst hwhole
        have hstart' : Starts prior (word ++ rest) := hstart.resolve_left fun hno => by
          rw [hhead] at hno
          cases hno
        refine hword.cutAt_iff hstart' hcs hbefore fun more hmore hne => ?_
        exact ih rest.length hlt (hword.parts prior) hmore hne rfl

/-- The words of a name hold its letters and digits and are not empty. Between two neighbouring
characters a name is cut exactly if one of them is a separator or the place is a boundary. -/
theorem words_cut_at_boundaries (name : String) :
    (words name).flatMap String.toList = name.toList.filter Char.isAlphanum ∧
      (∀ word ∈ words name, word ≠ "") ∧
      ∀ before a b after, name.toList = before ++ a :: b :: after →
        (CutAt ((words name).map String.toList) (before ++ [a]) (b :: after) ↔
          a.isAlphanum = false ∨ b.isAlphanum = false ∨
            IsBoundary (before ++ [a]) (b :: after)) := by
  refine ⟨flatMap_words name, fun word hword hempty => ?_, fun before a b after hname => ?_⟩
  · exact (of_mem_words hword).1 (by simp [hempty])
  · have hwords : (words name).map String.toList = wordsOfChars name.toList := by
      simp [words, Function.comp_def]
    have hcut : CutAt (wordsOfChars name.toList) (before ++ [a]) (b :: after) ↔
        Parts ([] ++ (before ++ [a])) (b :: after) :=
      cutAt_wordsOfChars_iff (.inr (.inl rfl)) (by simp [hname]) (by simp)
    rw [hwords, hcut, List.nil_append, Parts, Starts, List.getLast?_concat]
    exact or_left_comm

end Groundplan.Name
