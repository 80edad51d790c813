import Groundplan.Proofs.ModuleParts

/-!
# Reading lines of code

A definition in source is a line at the margin and the lines below it that are empty or start with
a blank. This module defines readers for the lines of code of a whole text, as a scan gives them,
and says what they find in a module that is made of parts: what they read in the parts, one after
the other.
-/

namespace Groundplan.Source

/-! ### Definitions at the margin -/

/-- Whether a line is empty or starts with a blank, so that it belongs to a definition above it. -/
def isInner (line : String) : Bool :=
  line.toList.head?.all fun c => c = ' '

/-- What belongs to each line that has a given beginning: the lines below it up to the next one at
the margin. -/
def bodies (opening : String) (lines : List String) : List (List String) :=
  readBelow opening (fun below => some (below.takeWhile isInner)) lines

theorem begins_eq_false_of_isInner {mark line : String} {c : Char}
    (hmark : mark.toList.head? = some c) (hc : c ≠ ' ') (hline : isInner line = true) :
    begins mark line = false := by
  refine begins_eq_false hmark fun hhead => ?_
  rw [isInner, hhead, Option.all_some, decide_eq_true_eq] at hline
  exact hc hline

theorem bodies_append {opening : String} {lines : List String}
    (h : ∀ line ∈ lines, begins opening line = false) (rest : List String) :
    bodies opening (lines ++ rest) = bodies opening rest :=
  readBelow_append _ h rest

theorem bodies_eq_nil {opening : String} {lines : List String}
    (h : ∀ line ∈ lines, begins opening line = false) : bodies opening lines = [] :=
  readBelow_eq_nil _ h

/-- A definition is read with all its lines. -/
theorem bodies_cons {opening head : String} {c : Char} (hopening : opening.toList.head? = some c)
    (hc : c ≠ ' ') (hhead : begins opening head = true) {body rest : List String}
    (hbody : ∀ line ∈ body, isInner line = true)
    (hrest : ∀ line ∈ rest.head?, isInner line = false) :
    bodies opening (head :: (body ++ rest)) = body :: bodies opening rest := by
  have hbelow : (body ++ rest).takeWhile isInner = body := by
    rw [List.takeWhile_append_of_pos hbody]
    cases rest with
    | nil => simp
    | cons line rest => simp [hrest line rfl]
  have hinner : ∀ line ∈ body, begins opening line = false := fun line hline =>
    begins_eq_false_of_isInner hopening hc (hbody line hline)
  rw [bodies, readBelow, if_pos hhead, hbelow, readBelow_append _ hinner]
  rfl

/-- The line of a class has the beginning of another only if it has its name. -/
theorem begins_class_eq_false (name : String) {other : String} (hname : Name.IsPlain name)
    (hother : Name.IsPlain other) (hne : other ≠ name) (rest : String) :
    begins ("class " ++ (name ++ "(")) ("class " ++ (other ++ ("(" ++ rest))) = false := by
  rw [Bool.eq_false_iff]
  intro hbegins
  obtain ⟨behind, hbehind⟩ := Option.isSome_iff_exists.1 hbegins
  obtain ⟨cs, hcs, -⟩ := Option.map_eq_some_iff.1 hbehind
  rw [TypeExpr.dropOpening?_eq_some_iff] at hcs
  have hread : between? "class " '(' ("class " ++ (other ++ ("(" ++ rest))) = some other :=
    between?_eq ("(" ++ rest) rfl (by simp) (stop_not_mem hother (by decide))
  have hread' : between? "class " '(' ("class " ++ (other ++ ("(" ++ rest))) = some name := by
    refine between?_eq ("(" ++ String.ofList cs) ?_ (by simp) (stop_not_mem hname (by decide))
    rw [← String.toList_inj, hcs]
    simp
  exact hne (Option.some.inj (hread.symm.trans hread'))

/-! ### Lines of stretches -/

namespace Stretch

theorem code_mem_of_mem_lines {texts : List String} {s : Stretch} (h : s ∈ lines 0 texts) :
    s.code ∈ texts := by
  rw [lines, indentBy_zero] at h
  obtain ⟨text, htext, rfl⟩ := List.mem_map.1 h
  exact htext

theorem isInner_of_mem_lines (level : Nat) (texts : List String) :
    ∀ s ∈ lines (level + 1) texts, isInner s.code = true := by
  intro s hs
  obtain ⟨line, hline, rfl⟩ := List.mem_map.1 hs
  obtain ⟨text, -, rfl⟩ := List.mem_map.1 hline
  split
  · rfl
  · simp [isInner, Stretch.line, padding, Nat.mul_add, List.replicate_succ]

theorem isInner_of_mem_remarks (level : Nat) (texts : List String) :
    ∀ s ∈ remarks (level + 1) texts, isInner s.code = true := by
  intro s hs
  obtain ⟨text, -, rfl⟩ := List.mem_map.1 hs
  simp [isInner, remark, padding, Nat.mul_add, List.replicate_succ]

theorem isInner_doc {d : Docstring} (h : d.level ≠ 0) : isInner (doc d).code = true := by
  obtain ⟨level, hlevel⟩ := Nat.exists_eq_succ_of_ne_zero h
  simp [isInner, doc, hlevel, padding, Nat.mul_add, List.replicate_succ]

theorem isInner_of_mem_commented (level : Nat) (comment : Option String) (text : String) :
    ∀ s ∈ commented (level + 1) comment text, isInner s.code = true := by
  intro s hs
  simp only [commented, List.mem_append, Option.mem_toList, Option.map_eq_some_iff,
    List.mem_singleton] at hs
  rcases hs with ⟨comment, -, rfl⟩ | rfl <;>
    simp [isInner, remark, line, padding, Nat.mul_add, List.replicate_succ]

theorem isInner_of_mem_spaced {stretches : List Stretch}
    (h : ∀ s ∈ stretches, isInner s.code = true) :
    ∀ s ∈ spaced stretches, isInner s.code = true := by
  cases stretches with
  | nil => exact h
  | cons s stretches => exact List.forall_mem_cons.2 ⟨rfl, h⟩

end Stretch

/-! ### Lines of modules -/

/-- The lines of code of a module that is made of parts. -/
def codeOf (parts : List (List Stretch)) : List String :=
  (laidOut parts).map Stretch.code ++ [""]

theorem codeOf_append {parts parts' : List (List Stretch)} (h : parts ≠ []) (h' : parts' ≠ []) :
    codeOf (parts ++ parts') = codeOf parts ++ "" :: codeOf parts' := by
  rw [codeOf, laidOut_append h h', List.map_append, List.map_append, codeOf, codeOf]
  simp [Stretch.line]

theorem codeOf_singleton (part : List Stretch) : codeOf [part] = part.map Stretch.code ++ [""] := by
  rw [codeOf, laidOut_singleton]

theorem head?_codeOf (s : Stretch) (body : List Stretch) (parts : List (List Stretch)) :
    (codeOf ((s :: body) :: parts)).head? = some s.code := by
  cases parts with
  | nil => rw [codeOf_singleton, List.map_cons, List.cons_append, List.head?_cons]
  | cons next parts =>
      rw [← List.singleton_append, codeOf_append (by simp) (by simp), codeOf_singleton,
        List.map_cons, List.cons_append, List.cons_append, List.head?_cons]

theorem of_mem_codeOf {parts : List (List Stretch)} {line : String} (h : line ∈ codeOf parts) :
    line = "" ∨ ∃ part ∈ parts, ∃ s ∈ part, line = s.code := by
  rcases List.mem_append.1 h with h | h
  · obtain ⟨s, hs, rfl⟩ := List.mem_map.1 h
    rcases of_mem_laidOut hs with rfl | ⟨part, hpart, hs⟩
    · exact .inl rfl
    · exact .inr ⟨part, hpart, s, hs, rfl⟩
  · exact .inl (List.mem_singleton.1 h)

/-- Nothing is read from the empty lines between parts. -/
theorem filterMap_codeOf {α : Type} {read : String → Option α} (h : read "" = none)
    (parts : List (List Stretch)) :
    (codeOf parts).filterMap read =
      parts.flatMap fun part => (part.map Stretch.code).filterMap read := by
  induction parts with
  | nil => simp [codeOf, laidOut, h]
  | cons part parts ih =>
      cases parts with
      | nil => simp [codeOf_singleton, h]
      | cons next parts =>
          rw [← List.singleton_append, codeOf_append (by simp) (by simp), List.filterMap_append,
            List.filterMap_cons_none h, ih, codeOf_singleton]
          simp [h]

/-- Whether a part is a definition: a given line at the margin and lines that belong to it. -/
def IsDefinition (head : String) (part : List Stretch) : Prop :=
  ∃ s body, part = s :: body ∧ s.code = head ∧ ∀ t ∈ body, isInner t.code = true

theorem isDefinition_blockPart {head : Stretch} {summary : String} {details : List String}
    {body : List Stretch} (h : ∀ s ∈ body, isInner s.code = true) :
    IsDefinition head.code (blockPart head summary details body) :=
  ⟨head, _, rfl, rfl, List.forall_mem_cons.2 ⟨Stretch.isInner_doc (by simp), h⟩⟩

theorem isDefinition_classPart (name base : String) {summary : String} {details : List String}
    {body : List Stretch} (h : ∀ s ∈ body, isInner s.code = true) :
    IsDefinition ("class " ++ (name ++ ("(" ++ base)))
      (blockPart (.line ("class " ++ name ++ ("(" ++ base))) summary details body) := by
  rw [← String.append_assoc]
  exact isDefinition_blockPart h

theorem IsDefinition.begins_eq_false {head : String} {part : List Stretch}
    (h : IsDefinition head part) {mark : String} {c : Char} (hmark : mark.toList.head? = some c)
    (hc : c ≠ ' ') (hhead : begins mark head = false) : ∀ s ∈ part, begins mark s.code = false := by
  obtain ⟨s, body, rfl, rfl, hbody⟩ := h
  exact List.forall_mem_cons.2
    ⟨hhead, fun t ht => begins_eq_false_of_isInner hmark hc (hbody t ht)⟩

theorem filterMap_between?_eq_nil {mark : String} {part : List Stretch}
    (h : ∀ s ∈ part, begins mark s.code = false) (stop : Char) :
    (part.map Stretch.code).filterMap (between? mark stop) = [] := by
  refine List.filterMap_eq_nil_iff.2 fun line hline => ?_
  obtain ⟨s, hs, rfl⟩ := List.mem_map.1 hline
  exact between?_eq_none (h s hs) _

/-- What is behind a mark at the margin is read from the first line of a definition only. -/
theorem IsDefinition.filterMap_between? {head : String} {part : List Stretch}
    (h : IsDefinition head part) {mark : String} {c : Char} (hmark : mark.toList.head? = some c)
    (hc : c ≠ ' ') (stop : Char) :
    (part.map Stretch.code).filterMap (between? mark stop) = (between? mark stop head).toList := by
  obtain ⟨s, body, rfl, rfl, hbody⟩ := h
  have hnone : (body.map Stretch.code).filterMap (between? mark stop) = [] :=
    filterMap_between?_eq_nil (fun t ht => begins_eq_false_of_isInner hmark hc (hbody t ht)) _
  rw [List.map_cons]
  cases hread : between? mark stop s.code with
  | none => rw [List.filterMap_cons_none hread, hnone]; rfl
  | some found => rw [List.filterMap_cons_some hread, hnone]; rfl

theorem begins_codeOf_eq_false {opening : String} (hempty : begins opening "" = false)
    {parts : List (List Stretch)}
    (h : ∀ part ∈ parts, ∀ s ∈ part, begins opening s.code = false) :
    ∀ line ∈ codeOf parts, begins opening line = false := by
  intro line hline
  rcases of_mem_codeOf hline with rfl | ⟨part, hpart, s, hs, rfl⟩
  · exact hempty
  · exact h part hpart s hs

/-- A definition that comes first is read with its lines, and with the empty ones up to the next
definition. -/
theorem IsDefinition.bodies_codeOf_cons {head : String} {part : List Stretch}
    (h : IsDefinition head part) {opening : String} {c : Char}
    (hopening : opening.toList.head? = some c) (hc : c ≠ ' ') (hhead : begins opening head = true)
    {behind : List (List Stretch)}
    (hbehind : ∀ part ∈ behind, ∀ s ∈ part, begins opening s.code = false)
    (hnext : ∀ part ∈ behind.head?, ∃ next, IsDefinition next part ∧ isInner next = false) :
    ∃ n, bodies opening (codeOf (part :: behind)) =
      [part.tail.map Stretch.code ++ List.replicate n ""] := by
  obtain ⟨s, body, rfl, rfl, hbody⟩ := h
  have hinner : ∀ n, ∀ line ∈ body.map Stretch.code ++ List.replicate n "",
      isInner line = true := by
    intro n line hline
    rcases List.mem_append.1 hline with hline | hline
    · obtain ⟨t, ht, rfl⟩ := List.mem_map.1 hline
      exact hbody t ht
    · rw [List.eq_of_mem_replicate hline]
      rfl
  cases behind with
  | nil =>
      -- The text of a module ends with a line feed, so that there is an empty line at its end.
      have hbodies : bodies opening
          (s.code :: (body.map Stretch.code ++ List.replicate 1 "" ++ [])) =
            [body.map Stretch.code ++ List.replicate 1 ""] :=
        bodies_cons hopening hc hhead (hinner 1) (by simp)
      rw [List.append_nil] at hbodies
      refine ⟨1, ?_⟩
      rw [codeOf_singleton, List.map_cons, List.cons_append]
      exact hbodies
  | cons next behind =>
      obtain ⟨first, ⟨t, rest, rfl, rfl, -⟩, hfirst⟩ := hnext _ rfl
      have hempty : begins opening "" = false := Source.begins_eq_false hopening (by simp)
      have hmargin : ∀ line ∈ (codeOf ((t :: rest) :: behind)).head?, isInner line = false := by
        rw [head?_codeOf]
        simpa using hfirst
      have hbodies := bodies_cons hopening hc hhead (hinner 2) hmargin
      refine ⟨2, ?_⟩
      rw [← List.singleton_append, codeOf_append (by simp) (by simp), codeOf_singleton,
        List.map_cons]
      rw [bodies_eq_nil (begins_codeOf_eq_false hempty hbehind)] at hbodies
      simpa using hbodies

/-- A definition is read so from a module in which no other line begins as it does. -/
theorem IsDefinition.bodies_codeOf {head : String} {part : List Stretch}
    (h : IsDefinition head part) {opening : String} {c : Char}
    (hopening : opening.toList.head? = some c) (hc : c ≠ ' ') (hhead : begins opening head = true)
    {before behind : List (List Stretch)}
    (hbefore : ∀ part ∈ before, ∀ s ∈ part, begins opening s.code = false)
    (hbehind : ∀ part ∈ behind, ∀ s ∈ part, begins opening s.code = false)
    (hnext : ∀ part ∈ behind.head?, ∃ next, IsDefinition next part ∧ isInner next = false) :
    ∃ n, bodies opening (codeOf (before ++ part :: behind)) =
      [part.tail.map Stretch.code ++ List.replicate n ""] := by
  have hempty : begins opening "" = false := Source.begins_eq_false hopening (by simp)
  have hfirst := h.bodies_codeOf_cons hopening hc hhead hbehind hnext
  rcases List.eq_nil_or_concat before with rfl | ⟨_, _, rfl⟩
  · exact hfirst
  · rw [codeOf_append (by simp) (by simp), bodies_append (begins_codeOf_eq_false hempty hbefore),
      bodies, readBelow, if_neg (by simp [hempty])]
    exact hfirst

/-! ### Above the blocks of a module -/

theorem head?_importPart {groups : List (List Import)} {s : Stretch} (h : s ∈ importPart groups) :
    s.code.toList.head? = none ∨ s.code.toList.head? = some 'f' := by
  rcases Text.of_mem_intercalate h with h | ⟨part, hpart, h⟩
  · rw [List.mem_singleton.1 h]
    exact .inl rfl
  · obtain ⟨group, -, rfl⟩ := List.mem_map.1 hpart
    obtain ⟨i, -, rfl⟩ := List.mem_map.1 h
    refine .inr ?_
    cases i <;> simp [Import.stretch, Stretch.remark, Stretch.line, Import.line]

/-- A mark that is no quote and no import is looked for in the blocks of a module only. -/
theorem SourceModule.begins_allParts (m : SourceModule) {mark : String} {c : Char}
    (hmark : mark.toList.head? = some c) (hquote : c ≠ '"') (himport : c ≠ 'f')
    {parts : List (List Stretch)} (h : ∀ part ∈ parts, ∀ s ∈ part, begins mark s.code = false) :
    ∀ part ∈ m.allParts parts, ∀ s ∈ part, begins mark s.code = false := by
  refine List.forall_mem_cons.2 ⟨?_, List.forall_mem_cons.2 ⟨fun s hs => ?_, h⟩⟩
  · refine List.forall_mem_singleton.2 (begins_eq_false hmark ?_)
    simpa [Stretch.doc, SourceModule.docstring, padding] using hquote.symm
  · refine begins_eq_false hmark ?_
    rcases head?_importPart hs with hhead | hhead <;> rw [hhead]
    · simp
    · simpa using himport.symm

theorem SourceModule.flatMap_filterMap_allParts (m : SourceModule) {mark : String} {c : Char}
    (hmark : mark.toList.head? = some c) (hquote : c ≠ '"') (himport : c ≠ 'f') (stop : Char)
    (parts : List (List Stretch)) :
    ((m.allParts parts).flatMap fun part =>
        (part.map Stretch.code).filterMap (between? mark stop)) =
      parts.flatMap fun part => (part.map Stretch.code).filterMap (between? mark stop) := by
  have hnone : ∀ part ∈ m.allParts [],
      (part.map Stretch.code).filterMap (between? mark stop) = [] := fun part hpart =>
    filterMap_between?_eq_nil (m.begins_allParts hmark hquote himport (by simp) part hpart) _
  have hsplit : m.allParts parts = m.allParts [] ++ parts := rfl
  rw [hsplit, List.flatMap_append, List.flatMap_eq_nil_iff.2 hnone, List.nil_append]

end Groundplan.Source
