import Groundplan.Proofs.Encodability
import Groundplan.Proofs.QuotedText

/-!
# Strings of a manifest

A manifest is a TOML document. A basic string of such a document stands between double quotes. In it
a backslash begins an escape, every other code point stands for itself, and the control characters,
the delete character among them, may stand in an escape only. A surrogate may not stand in a
document at all, and there is no escape for it.

The literals of generated source are used for the strings of the manifest too. They escape what lies
below the space, and quotes and backslashes. So they are basic strings of their texts, but not for
all texts: a literal leaves the delete character and surrogates as they are.

Reading is by code points, since a document consists of them.
-/

namespace Groundplan

/-! ### Basic strings -/

namespace Toml

/-- The double quote. -/
def quote : Nat := 0x22

/-- The backslash. -/
def backslash : Nat := 0x5c

/-- The single quote, which opens a string of another kind. -/
def apostrophe : Nat := 0x27

/-- The mark of a comment. -/
def hash : Nat := 0x23

/-- The end of a line. -/
def newline : Nat := 0x0a

/-- The code points that stand for themselves in a basic string. -/
def standsAlone (n : Nat) : Bool :=
  n = 0x09 || n = 0x20 || n = 0x21 || (0x23 ≤ n && n ≤ 0x5b) || (0x5d ≤ n && n ≤ 0x7e) ||
    (0x80 ≤ n && n ≤ 0xd7ff) || (0xe000 ≤ n && n ≤ 0x10ffff)

/-- The code point that a letter or mark behind a backslash stands for. -/
def escapeMeaning? (n : Nat) : Option Nat :=
  if n = quote then some quote
  else if n = backslash then some backslash
  else if n = 0x62 then some 0x08
  else if n = 0x66 then some 0x0c
  else if n = 0x6e then some 0x0a
  else if n = 0x72 then some 0x0d
  else if n = 0x74 then some 0x09
  else none

/-- The number of hexadecimal digits that a letter behind a backslash announces. -/
def escapeWidth? (n : Nat) : Option Nat :=
  if n = 0x75 then some 4 else if n = 0x55 then some 8 else none

/-- The code point that hexadecimal digits spell, unless it is a surrogate or too large. -/
def code? (digits : List Nat) : Option Nat :=
  (Text.hexNumber? (digits.map Char.ofNat)).filter fun n => n < 0x110000 && !Text.isSurrogate n

/-- The first code point that the content of a basic string stands for, and what is left. -/
def contentPoint? : List Nat → Option (Nat × List Nat)
  | [] => none
  | n :: ns =>
    if n = backslash then
      match ns with
      | [] => none
      | e :: ns =>
        match escapeWidth? e with
        | some width =>
          if width ≤ ns.length then (code? (ns.take width)).map (·, ns.drop width) else none
        | none => (escapeMeaning? e).map (·, ns)
    else if standsAlone n then some (n, ns)
    else none

theorem length_lt_of_contentPoint? {ns rest : List Nat} {n : Nat}
    (h : contentPoint? ns = some (n, rest)) : rest.length < ns.length := by
  unfold contentPoint? at h
  split at h
  next => cases h
  next n ns =>
    split at h
    · split at h
      next => cases h
      next e ns =>
        split at h
        · split at h
          · obtain ⟨_, -, heq⟩ := Option.map_eq_some_iff.1 h
            obtain ⟨-, rfl⟩ := Prod.mk.inj heq
            simp only [List.length_drop, List.length_cons]
            omega
          · cases h
        · obtain ⟨_, -, heq⟩ := Option.map_eq_some_iff.1 h
          obtain ⟨-, rfl⟩ := Prod.mk.inj heq
          simp only [List.length_cons]
          omega
    · split at h
      · cases h
        simp
      · cases h

/-- Reads the content of a basic string up to the closing quote: what it stands for, and what is
behind the quote. -/
def content? : List Nat → Option (List Nat × List Nat)
  | [] => none
  | n :: ns =>
    if n = quote then some ([], ns)
    else
      match _hpoint : contentPoint? (n :: ns) with
      | none => none
      | some (p, rest) => (content? rest).map (Prod.map (p :: ·) id)
termination_by ns => ns.length
decreasing_by exact length_lt_of_contentPoint? _hpoint

/-- Reads the basic string that code points start with: what it stands for, and what is behind it.
Three quotes open a string of another kind. -/
def basicString? : List Nat → Option (List Nat × List Nat)
  | [] => none
  | n :: ns =>
    if n ≠ quote || (ns.head? = some quote && ns.tail.head? = some quote) then none
    else content? ns

theorem content?_quote (rest : List Nat) : content? (quote :: rest) = some ([], rest) := by
  rw [content?, if_pos rfl]

/-- Content that does not start with the closing quote is read by its first code point. -/
theorem content?_eq_bind {ns : List Nat} (h : ns.head? ≠ some quote) :
    content? ns = (contentPoint? ns).bind fun found =>
      (content? found.2).map (Prod.map (found.1 :: ·) id) := by
  cases ns with
  | nil =>
      rw [content?]
      rfl
  | cons n ns =>
      rw [content?, if_neg fun heq => h (congrArg some heq)]
      split
      next hpoint =>
        rw [hpoint]
        rfl
      next hpoint =>
        rw [hpoint]
        rfl

/-- The code points that may not stand in a basic string and that a literal does not escape: the
delete character and the surrogates. -/
def isForbidden (n : Nat) : Bool :=
  n = 0x7f || Text.isSurrogate n

/-- Whether no code point of a text is forbidden. -/
def IsReadable (text : String) : Prop :=
  (Text.points text).any isForbidden = false

instance : DecidablePred IsReadable := fun _ => inferInstanceAs (Decidable (_ = false))

end Toml

/-! ### Literals by their code points -/

namespace Text

/-- What is written for a code point in a literal. -/
def literalPoint (n : Nat) : List Nat :=
  if isSurrogate n then [n] else (literalChar (Char.ofNat n)).map Char.toNat

theorem literalPoint_toNat (c : Char) : literalPoint c.toNat = (literalChar c).map Char.toNat := by
  rw [literalPoint, isSurrogate_toNat, Char.ofNat_toNat]
  rfl

theorem literalChar_ne_nil (c : Char) : literalChar c ≠ [] := by
  unfold literalChar
  split_ifs <;> simp

/-- A reserved character is written as it is. -/
theorem literalChar_of_isReserved {c : Char} (h : isReserved c = true) : literalChar c = [c] := by
  simp only [isReserved, Bool.and_eq_true, decide_eq_true_eq] at h
  have hne {d : Char} (hd : d.toNat < 0xdd800) : c ≠ d := by
    rintro rfl
    omega
  rw [literalChar, if_neg (hne (by decide)), if_neg (hne (by decide)), if_neg (hne (by decide)),
    if_neg (hne (by decide)), if_neg (hne (by decide)), if_neg (by omega), if_neg (by omega),
    if_neg (by omega)]

theorem unreserved_literalChar {c : Char} (h : isReserved c = false) :
    (literalChar c).any isReserved = false := by
  refine List.any_eq_false.2 fun d hd => ?_
  rcases of_mem_literalChar hd with hink | ⟨rfl, -⟩
  · rw [isReserved_of_isInk hink]
    decide
  · rw [h]
    decide

/-- A mark does not matter for characters that are not reserved. -/
theorem foldl_pointStep_of_ne_nil {cs : List Char} (hne : cs ≠ []) (h : cs.any isReserved = false)
    (seen : List Nat) (marked : Bool) :
    cs.foldl pointStep (seen, marked) = ((cs.map Char.toNat).reverse ++ seen, false) := by
  cases marked with
  | false => exact foldl_pointStep_of_unreserved h seen
  | true =>
      obtain ⟨c, cs, rfl⟩ := List.exists_cons_of_ne_nil hne
      rw [List.any_cons, Bool.or_eq_false_iff] at h
      rw [List.foldl_cons, pointStep, foldl_pointStep_of_unreserved h.2]
      simp

theorem isSurrogate_pointOf {c : Char} (h : isReserved c = true) (hmark : c ≠ literalMark) :
    isSurrogate (pointOf c) = true := by
  have hne : c.toNat ≠ 0xde000 := fun heq => hmark (by rw [← Char.ofNat_toNat c, heq]; rfl)
  rw [pointOf, if_pos h]
  simp only [isReserved, isSurrogate, Bool.and_eq_true, decide_eq_true_eq] at h ⊢
  omega

/-- One character more: what is written for it is read as what is written for its code point. -/
theorem foldl_pointStep_literalChar (c : Char) (seen : List Nat) (marked : Bool) :
    (literalChar c).foldl pointStep ((seen.reverse.flatMap literalPoint).reverse, marked) =
      (((pointStep (seen, marked) c).1.reverse.flatMap literalPoint).reverse,
        (pointStep (seen, marked) c).2) := by
  have hwritten (n : Nat) : ((n :: seen).reverse.flatMap literalPoint).reverse =
      (literalPoint n).reverse ++ (seen.reverse.flatMap literalPoint).reverse := by
    simp [List.flatMap_append]
  -- Only a reserved character can be a mark or depend on one, and it is written as it is.
  cases hreserved : isReserved c with
  | false =>
      have hmark : c ≠ literalMark := by
        rintro rfl
        exact absurd hreserved (by decide)
      have hpoint : pointStep (seen, marked) c = (c.toNat :: seen, false) := by
        cases marked with
        | true => rfl
        | false => rw [pointStep, if_neg hmark, pointOf, hreserved, if_neg (by decide)]
      rw [foldl_pointStep_of_ne_nil (literalChar_ne_nil c) (unreserved_literalChar hreserved),
        hpoint, hwritten, literalPoint_toNat]
  | true =>
      have hself := literalChar_of_isReserved hreserved
      rw [hself, List.foldl_cons, List.foldl_nil]
      cases marked with
      | true =>
          simp only [pointStep, hwritten, literalPoint_toNat, hself]
          rfl
      | false =>
          by_cases hmark : c = literalMark
          · simp only [pointStep, if_pos hmark]
          · simp only [pointStep, if_neg hmark, hwritten, literalPoint,
              isSurrogate_pointOf hreserved hmark, if_true]
            rfl

/-- What is read of all that is written for some characters: what was read of them, written
again. -/
theorem foldl_pointStep_flatMap (cs : List Char) (seen : List Nat) (marked : Bool) :
    (cs.flatMap literalChar).foldl pointStep ((seen.reverse.flatMap literalPoint).reverse, marked) =
      (((cs.foldl pointStep (seen, marked)).1.reverse.flatMap literalPoint).reverse,
        (cs.foldl pointStep (seen, marked)).2) := by
  induction cs generalizing seen marked with
  | nil => rfl
  | cons c cs ih =>
      rw [List.flatMap_cons, List.foldl_append, foldl_pointStep_literalChar, ih, List.foldl_cons]

/-- The code points of a literal, and of what is behind it. -/
theorem points_literal_append (text rest : String) :
    points (literal text ++ rest) =
      Toml.quote :: ((points text).flatMap literalPoint ++ Toml.quote :: points rest) := by
  have hclosing (seen : List Nat) (marked : Bool) :
      pointStep (seen, marked) '"' = (Toml.quote :: seen, false) := by
    cases marked <;> rfl
  have hcontent := foldl_pointStep_flatMap text.toList [] false
  rw [List.reverse_nil, List.flatMap_nil, List.reverse_nil] at hcontent
  have hopening : (literal text ++ rest).toList =
      ['"'] ++ (text.toList.flatMap literalChar ++ '"' :: rest.toList) := by
    simp [literal, literalChars]
  rw [points, hopening, pointsOf_append (by decide), pointsOf, List.foldl_append, hcontent,
    List.foldl_cons, hclosing, foldl_pointStep]
  simp [points, pointsOf]
  rfl

/-- A code point is not too large. -/
theorem lt_of_mem_points {text : String} {n : Nat} (h : n ∈ points text) : n < 0x110000 := by
  have hchar (c : Char) : c.toNat < 0x110000 := by
    have hvalid : c.toNat < 0xd800 ∨ 0xdfff < c.toNat ∧ c.toNat < 0x110000 := c.valid
    omega
  have hpoint (c : Char) : pointOf c ≤ c.toNat := by
    unfold pointOf
    split <;> omega
  -- Every step keeps the bound for what was read before.
  have hstep (cs : List Char) (seen : List Nat) (marked : Bool) (hseen : ∀ n ∈ seen, n < 0x110000) :
      ∀ n ∈ (cs.foldl pointStep (seen, marked)).1, n < 0x110000 := by
    induction cs generalizing seen marked with
    | nil => exact hseen
    | cons c cs ih =>
        rw [List.foldl_cons]
        cases marked with
        | true => exact ih _ _ (List.forall_mem_cons.2 ⟨hchar c, hseen⟩)
        | false =>
            rw [pointStep]
            split
            · exact ih _ _ hseen
            · exact ih _ _ (List.forall_mem_cons.2 ⟨(hpoint c).trans_lt (hchar c), hseen⟩)
  exact hstep text.toList [] false (by simp) n (List.mem_reverse.1 h)

end Text

/-! ### Reading literals -/

namespace Toml

open Text

theorem contentPoint?_escape {e n : Nat} (hwidth : escapeWidth? e = none)
    (h : escapeMeaning? e = some n) (ns : List Nat) :
    contentPoint? (backslash :: e :: ns) = some (n, ns) := by
  simp [contentPoint?, hwidth, h]

theorem contentPoint?_code {digits : List Nat} (hlength : digits.length = 4) {n : Nat}
    (h : code? digits = some n) (ns : List Nat) :
    contentPoint? (backslash :: 0x75 :: (digits ++ ns)) = some (n, ns) := by
  have hwidth : escapeWidth? 0x75 = some 4 := rfl
  simp [contentPoint?, hwidth, ← hlength, h]

/-- A code point is a surrogate or the number of a character. -/
theorem exists_toNat_eq {n : Nat} (hn : n < 0x110000) (h : isSurrogate n = false) :
    ∃ c : Char, c.toNat = n := by
  refine ⟨Char.ofNat n, toNat_ofNat_of_valid ?_⟩
  simp only [isSurrogate, Bool.and_eq_false_iff, decide_eq_false_iff_not, Nat.not_le] at h
  unfold Nat.isValidChar
  omega

theorem standsAlone_of_not_isForbidden {n : Nat} (hn : n < 0x110000) (hlow : 0x20 ≤ n)
    (hquote : n ≠ quote) (hbackslash : n ≠ backslash) (h : isForbidden n = false) :
    standsAlone n = true := by
  simp only [isForbidden, isSurrogate, Bool.or_eq_false_iff, Bool.and_eq_false_iff,
    decide_eq_false_iff_not] at h
  simp only [standsAlone, Bool.or_eq_true, Bool.and_eq_true, decide_eq_true_eq]
  simp only [quote, backslash] at hquote hbackslash
  omega

theorem not_standsAlone_of_isForbidden {n : Nat} (h : isForbidden n = true) :
    n ≠ backslash ∧ standsAlone n = false := by
  simp only [isForbidden, isSurrogate, Bool.or_eq_true, Bool.and_eq_true, decide_eq_true_eq] at h
  simp only [standsAlone, Bool.or_eq_false_iff, Bool.and_eq_false_iff, decide_eq_false_iff_not,
    backslash]
  omega

theorem contentPoint?_alone {n : Nat} (hbackslash : n ≠ backslash) (ns : List Nat) :
    contentPoint? (n :: ns) = if standsAlone n then some (n, ns) else none := by
  rw [contentPoint?.eq_def]
  exact if_neg hbackslash

/-- A forbidden code point is written as it is. -/
theorem literalPoint_of_isForbidden {n : Nat} (h : isForbidden n = true) :
    literalPoint n = [n] := by
  unfold literalPoint
  split
  next => rfl
  next hsurrogate =>
    obtain rfl : n = 0x7f := by simpa [isForbidden, hsurrogate] using h
    decide

/-- What is written for a character is read as its code point, unless this is forbidden. -/
theorem contentPoint?_literalChar {c : Char} (h : isForbidden c.toNat = false) (ns : List Nat) :
    contentPoint? ((literalChar c).map Char.toNat ++ ns) = some (c.toNat, ns) := by
  have hne {d : Char} (hd : c ≠ d) : c.toNat ≠ d.toNat := fun heq => hd (Char.toNat_inj.1 heq)
  unfold literalChar
  split_ifs with hquote hbackslash hfeed hreturn htab hback hform hlow
  · rw [hquote]
    exact contentPoint?_escape rfl rfl ns
  · rw [hbackslash]
    exact contentPoint?_escape rfl rfl ns
  · rw [hfeed]
    exact contentPoint?_escape rfl rfl ns
  · rw [hreturn]
    exact contentPoint?_escape rfl rfl ns
  · rw [htab]
    exact contentPoint?_escape rfl rfl ns
  · rw [hback]
    exact contentPoint?_escape rfl rfl ns
  · rw [hform]
    exact contentPoint?_escape rfl rfl ns
  · have hcode : ∀ n < 0x20, ((hexDigits 4 n).map Char.toNat).length = 4 ∧
        code? ((hexDigits 4 n).map Char.toNat) = some n := by
      decide
    obtain ⟨hlength, hnumber⟩ := hcode c.toNat hlow
    exact contentPoint?_code hlength hnumber ns
  · have hbound : c.toNat < 0x110000 := by
      have hvalid : c.toNat < 0xd800 ∨ 0xdfff < c.toNat ∧ c.toNat < 0x110000 := c.valid
      omega
    have halone := standsAlone_of_not_isForbidden hbound (Nat.le_of_not_lt hlow) (hne hquote)
      (hne hbackslash) h
    exact (contentPoint?_alone (hne hbackslash) ns).trans (if_pos halone)

/-- What is written for a code point is read as that code point, unless it is forbidden. -/
theorem contentPoint?_literalPoint {n : Nat} (hn : n < 0x110000) (ns : List Nat) :
    contentPoint? (literalPoint n ++ ns) = if isForbidden n then none else some (n, ns) := by
  cases hforbidden : isForbidden n with
  | true =>
      obtain ⟨hbackslash, halone⟩ := not_standsAlone_of_isForbidden hforbidden
      rw [literalPoint_of_isForbidden hforbidden, List.singleton_append,
        contentPoint?_alone hbackslash, halone]
      rfl
  | false =>
      have hsurrogate : isSurrogate n = false := (Bool.or_eq_false_iff.1 hforbidden).2
      obtain ⟨c, rfl⟩ := exists_toNat_eq hn hsurrogate
      rw [literalPoint_toNat]
      exact contentPoint?_literalChar hforbidden ns

/-- Nothing that is written for a code point starts with a quote. -/
theorem head?_literalPoint_ne (n : Nat) (ns : List Nat) :
    (literalPoint n ++ ns).head? ≠ some quote := by
  unfold literalPoint
  split
  next hsurrogate =>
    intro heq
    obtain rfl : n = quote := Option.some.inj heq
    exact absurd hsurrogate (by decide)
  next =>
    have hescape : backslash ≠ quote := by decide
    unfold literalChar
    split_ifs with hquote
    iterate 8 exact fun heq => hescape (Option.some.inj heq)
    exact fun heq => hquote (Char.toNat_inj.1 (Option.some.inj heq))

/-- The code points of a text that are written in a literal are read up to its closing quote. -/
theorem content?_flatMap_literalPoint {points : List Nat} (h : ∀ n ∈ points, n < 0x110000)
    (rest : List Nat) :
    content? (points.flatMap literalPoint ++ quote :: rest) =
      if points.any isForbidden then none else some (points, rest) := by
  induction points with
  | nil => exact content?_quote rest
  | cons n points ih =>
      obtain ⟨hn, hpoints⟩ := List.forall_mem_cons.1 h
      have hhead := head?_literalPoint_ne n (points.flatMap literalPoint ++ quote :: rest)
      rw [List.flatMap_cons, List.append_assoc, content?_eq_bind hhead,
        contentPoint?_literalPoint hn, List.any_cons]
      cases hforbidden : isForbidden n with
      | true => rfl
      | false =>
          rw [if_neg (by decide), Option.bind_some, ih hpoints, Bool.false_or]
          split <;> rfl

/-- The literal of a text is a basic string of it, unless the text has a forbidden code point.
Another quote right behind is excluded: with the two of the empty literal it would open a string of
another kind. -/
theorem basicString?_literal_append (text rest : String)
    (hrest : (points rest).head? ≠ some quote) :
    basicString? (points (literal text ++ rest)) =
      if IsReadable text then some (points text, points rest) else none := by
  have hcontent := content?_flatMap_literalPoint (@lt_of_mem_points text) (points rest)
  -- Three quotes would be those of the empty literal and one behind it.
  have hother : ¬ (((points text).flatMap literalPoint ++ quote :: points rest).head? = some quote ∧
      ((points text).flatMap literalPoint ++ quote :: points rest).tail.head? = some quote) := by
    rintro ⟨hfirst, hsecond⟩
    cases hpoints : points text with
    | nil =>
        rw [hpoints] at hsecond
        exact hrest hsecond
    | cons n points =>
        rw [hpoints, List.flatMap_cons, List.append_assoc] at hfirst
        exact head?_literalPoint_ne n _ hfirst
  rw [points_literal_append, basicString?, if_neg (by simpa using hother), hcontent]
  by_cases hreadable : IsReadable text
  · rw [if_pos hreadable, if_neg (Bool.not_eq_true _ ▸ hreadable)]
  · rw [if_neg hreadable, if_pos (Bool.not_eq_false _ ▸ hreadable)]

theorem basicString?_literal (text : String) :
    basicString? (points (literal text)) =
      if IsReadable text then some (points text, []) else none := by
  have hnothing : points "" = [] := rfl
  have happend := basicString?_literal_append text "" (by rw [hnothing]; simp)
  rwa [String.append_empty, hnothing] at happend

/-! ### Texts that can be read -/

theorem points_of_unreserved {text : String} (h : Unreserved text) :
    points text = text.toList.map Char.toNat := by
  have hnothing : pointsOf [] = [] := rfl
  have happend := pointsOf_append h []
  rwa [List.append_nil, hnothing, List.append_nil] at happend

/-- Whether the characters of a text are neither reserved nor the delete character. -/
def IsPlain (text : String) : Prop :=
  ∀ c ∈ text.toList, isReserved c = false ∧ c.toNat ≠ 0x7f

instance : DecidablePred IsPlain := fun text => List.decidableBAll _ text.toList

theorem IsPlain.append {text rest : String} (h : IsPlain text) (h' : IsPlain rest) :
    IsPlain (text ++ rest) := by
  intro c hc
  rw [String.toList_append, List.mem_append] at hc
  exact hc.elim (h c) (h' c)

theorem IsPlain.isReadable {text : String} (h : IsPlain text) : IsReadable text := by
  have hunreserved : Unreserved text := List.any_eq_false.2 fun c hc => by simp [(h c hc).1]
  rw [IsReadable, points_of_unreserved hunreserved, List.any_eq_false]
  intro n hn
  obtain ⟨c, hc, rfl⟩ := List.mem_map.1 hn
  simp [isForbidden, isSurrogate_toNat, (h c hc).2]

/-- Spelled names are plain. -/
theorem isPlain_of_name {text : String} (h : Name.IsPlain text) : IsPlain text := by
  intro c hc
  have hink := isInk_of_isNameChar (h c hc)
  refine ⟨isReserved_of_isInk hink, ?_⟩
  simp only [isInk, Bool.and_eq_true, decide_eq_true_eq] at hink
  omega

/-! ### Documents -/

theorem length_lt_of_content? {ns text rest : List Nat} (h : content? ns = some (text, rest)) :
    rest.length < ns.length := by
  fun_induction content? ns generalizing text with
  | case1 => cases h
  | case2 ns =>
      cases h
      simp
  | case3 => cases h
  | case4 n ns hquote p rest' hpoint ih =>
      obtain ⟨result, hresult, heq⟩ := Option.map_eq_some_iff.1 h
      obtain ⟨-, rfl⟩ := Prod.mk.inj heq
      have hless := length_lt_of_contentPoint? hpoint
      have hbehind := @ih result.1 hresult
      omega

theorem length_lt_of_basicString? {ns text rest : List Nat}
    (h : basicString? ns = some (text, rest)) : rest.length < ns.length := by
  cases ns with
  | nil => cases h
  | cons n ns =>
      rw [basicString?] at h
      split at h
      · cases h
      · exact (length_lt_of_content? h).trans (Nat.lt_succ_self _)

/-- The basic strings of a document, as far as it has no others: what they stand for, in their
order. What stands around them is passed over; a comment reaches up to the end of its line. -/
def strings? (ns : List Nat) : Option (List (List Nat)) :=
  match ns with
  | [] => some []
  | n :: ns =>
    if n = quote then
      match _hstring : basicString? (n :: ns) with
      | none => none
      | some (text, rest) => (strings? rest).map (text :: ·)
    else if n = apostrophe then none
    else if n = hash then strings? (ns.dropWhile (· ≠ newline))
    else strings? ns
termination_by ns.length
decreasing_by
  · exact length_lt_of_basicString? _hstring
  · exact Nat.lt_succ_of_le (List.dropWhile_suffix _).length_le
  · exact Nat.lt_succ_self _

/-- The code points that mean nothing between strings. -/
def isBare (n : Nat) : Bool :=
  n ≠ quote && n ≠ apostrophe && n ≠ hash

theorem strings?_nil : strings? [] = some [] := by
  rw [strings?]

theorem strings?_quote (ns : List Nat) :
    strings? (quote :: ns) = (basicString? (quote :: ns)).bind fun found =>
      (strings? found.2).map (found.1 :: ·) := by
  rw [strings?, if_pos rfl]
  split
  next hstring =>
    rw [hstring]
    rfl
  next hstring =>
    rw [hstring]
    rfl

theorem strings?_bare {ns : List Nat} (h : ns.all isBare = true) (rest : List Nat) :
    strings? (ns ++ rest) = strings? rest := by
  induction ns with
  | nil => rfl
  | cons n ns ih =>
      rw [List.all_cons, Bool.and_eq_true] at h
      obtain ⟨hn, hns⟩ := h
      simp only [isBare, Bool.and_eq_true, decide_eq_true_eq] at hn
      rw [List.cons_append, strings?, if_neg hn.1.1, if_neg hn.1.2, if_neg hn.2, ih hns]

/-- A comment is passed over up to the end of its line. -/
theorem strings?_comment {ns : List Nat} (h : newline ∉ ns) (rest : List Nat) :
    strings? (hash :: (ns ++ newline :: rest)) = strings? (newline :: rest) := by
  have hdrop : (ns ++ newline :: rest).dropWhile (· ≠ newline) = newline :: rest := by
    have hpass : ∀ n ∈ ns, decide (n ≠ newline) = true := by
      intro n hn
      simpa using fun heq : n = newline => h (heq ▸ hn)
    rw [List.dropWhile_append_of_pos hpass, List.dropWhile_cons_of_neg (by simp)]
  rw [strings?, if_neg (by decide), if_neg (by decide), if_pos rfl, hdrop]

/-- A literal gives the string of its text, and what is behind it is read on. -/
theorem strings?_literal_append (text rest : String) (hrest : (points rest).head? ≠ some quote) :
    strings? (points (literal text ++ rest)) =
      if IsReadable text then (strings? (points rest)).map (points text :: ·) else none := by
  have hstring := basicString?_literal_append text rest hrest
  rw [points_literal_append] at hstring ⊢
  rw [strings?_quote, hstring]
  split <;> rfl

end Toml

end Groundplan
