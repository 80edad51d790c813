import Groundplan.Proofs.SourceStretches

/-!
# The parts of the entities and commands modules

A generated module is made of parts: its docstring, its imports and its blocks. The blocks of the
entities module and of the commands module are taken apart here into stretches of source.

The stretches are sound. Names are spelled, and texts are on escaped lines, in comments or in
literals. Only the types of fields and identifiers are shown as they are written, and they have to
be contained.
-/

namespace Groundplan

open Source

namespace Source

/-! ### Fixed lines and blocks -/

theorem runs_nil : ∀ line ∈ ([] : List String), Run [] [line] line := by
  simp

theorem runs_cons {cs : List Char} {lines : List String} (h : codeEnd? .start cs = some .start)
    (hlines : ∀ line ∈ lines, Run [] [line] line) :
    ∀ line ∈ String.ofList cs :: lines, Run [] [line] line :=
  List.forall_mem_cons.2 ⟨run_fixed h, hlines⟩

theorem inline_of_isPlain {text : String} (h : Name.IsPlain text) : Inline text :=
  inline_of_free (free_isLexical_of_isPlain h)

theorem inline_fixed {cs : List Char} (h : codeEnd? .start cs = some .start) :
    Inline (String.ofList cs) := by
  refine Contained.inline ⟨.code, List.mem_cons_self, ?_⟩
  rw [String.toList_ofList]
  exact h

theorem isPart_lines {texts : List String} {last : String}
    (h : ∀ text ∈ texts, Run [] [text] text) (hlast : texts.getLast? = some last) (hne : last ≠ "")
    (level : Nat) : IsPart (Stretch.lines level texts) := by
  refine ⟨?_, Stretch.sound_lines h level⟩
  obtain ⟨above, rfl⟩ := List.getLast?_eq_some_iff.1 hlast
  have hrun := (h last (by simp)).indent level
  rw [Stretch.flatMap_source_lines]
  have hsplit : indentBy level (above ++ [last]) =
      indentBy level above ++ [padding level ++ last] := by
    simp [indentBy, hne]
  rw [hsplit]
  exact (solid_singleton (by simp [hne]) hrun.1).append _

/-- A part stays one below lines and a docstring. -/
theorem IsPart.documented {part : List Stretch} (h : IsPart part) (d : Docstring)
    (hdoc : Inert d.content) {texts : List String} (htexts : ∀ text ∈ texts, Run [] [text] text)
    (level : Nat) : IsPart (Stretch.lines level texts ++ (.doc d :: part)) :=
  (h.prepend (List.forall_mem_singleton.2 (Stretch.sound_doc hdoc))).prepend
    (Stretch.sound_lines htexts level)

/-- A block: its head, its docstring and the rest of its body. -/
def blockPart (head : Stretch) (summary : String) (details : List String) (body : List Stretch) :
    List Stretch :=
  head :: .doc ⟨1, summary, details⟩ :: body

theorem partText_blockPart (head : Stretch) (summary : String) (details : List String)
    {body : List Stretch} {lines : List String}
    (hbody : body.flatMap Stretch.source = indent lines) :
    partText (blockPart head summary details body) =
      joinLines (head.source ++ indent (docstring summary details ++ lines)) := by
  rw [partText, blockPart, List.flatMap_cons, List.flatMap_cons, hbody, indent_append]
  rfl

theorem isPart_blockPart {head : Stretch} (hhead : head.Sound) {summary : String}
    {details : List String} (hdoc : Inert (Docstring.mk 1 summary details).content)
    {body : List Stretch} (hbody : Follows body) :
    IsPart (blockPart head summary details body) :=
  ((isPart_doc hdoc).append hbody).prepend (List.forall_mem_singleton.2 hhead)

@[simp] theorem flatMap_strings_blockPart {head : Stretch} (hhead : head.strings = [])
    (summary : String) (details : List String) (body : List Stretch) :
    (blockPart head summary details body).flatMap Stretch.strings =
      (Docstring.mk 1 summary details).content :: body.flatMap Stretch.strings := by
  rw [blockPart, List.flatMap_cons, List.flatMap_cons, hhead]
  rfl

theorem Declaration.flatMap_source_spaced (declarations : List Declaration) :
    (Stretch.spaced (declarations.flatMap (Declaration.stretches 1))).flatMap Stretch.source =
      indentBy 1 (spaced (declarations.flatMap Declaration.lines)) := by
  refine Stretch.flatMap_source_spaced ?_ ?_
  · rw [List.flatMap_assoc, indentBy, List.map_flatMap]
    simp only [Declaration.flatMap_source_stretches]
    rfl
  · intro s hs
    obtain ⟨d, -, hs⟩ := List.mem_flatMap.1 hs
    exact Stretch.source_ne_nil_of_mem_commented hs

theorem Declaration.flatMap_strings_stretches (declarations : List Declaration) :
    (declarations.flatMap (Declaration.stretches 1)).flatMap Stretch.strings = [] := by
  simp [List.flatMap_assoc, stretches]

theorem sound_class {name base : String} (hname : Name.IsPlain name) (hbase : Inline base) :
    (Stretch.line ("class " ++ name ++ base)).Sound := by
  refine Stretch.sound_line (run_inline ?_)
  exact inline_append_of_free
    (Text.Free.append (Text.free_ofList rfl) (free_isLexical_of_isPlain hname)) hbase

end Source

theorem isPart_fields {m : Model} {properties : List Property}
    (h : ∀ p ∈ properties, Contained ((Scope.ofModel m).meaning p.typeText)) :
    ∀ d ∈ properties.map (Scope.ofModel m).field, IsPart (d.stretches 1) := by
  intro d hd
  obtain ⟨p, hp, rfl⟩ := List.mem_map.1 hd
  exact Scope.isPart_field (Scope.namesWords_ofModel m) (Scope.contained_hint (h p hp)) 1

theorem inert_pascal (name : String) : Inert (Name.pascal name) :=
  inert_of_isPlain (Name.isPlain_pascal name)

/-- The summary of a definition: its description, or a phrase that starts with its name. -/
theorem inert_described {after : String} (hafter : Inert after) (description : Option String)
    (name : String) : Inert (Text.docLineOr description (Name.pascal name ++ after)) :=
  inert_docLineOr ((inert_pascal name).append hafter)

/-- The summary of a function: a description, or a phrase around a name. -/
theorem inert_performed {before after : String} (hbefore : Inert before) (hafter : Inert after)
    (description : Option String) (name : String) :
    Inert (Text.docLineOr description (before ++ Name.pascal name ++ after)) :=
  inert_docLineOr ((hbefore.append (inert_pascal name)).append hafter)

/-! ### Entities -/

namespace Entities

/-- The types that the entities module shows. -/
def shownTypes (m : Model) : List String :=
  underlyingTypes m ++ (recordProperties m ++ aggregateProperties m).map Property.typeText

/-- The docstrings of the types that every entities module has. -/
def sharedDocstrings : List Docstring :=
  [⟨1, "Base for every generated record.", []⟩, ⟨1, "One page of query results.", []⟩]

/-- The docstrings in the source of a generated type. -/
def EntityType.docstrings : EntityType → List Docstring
  | .enumeration t => [⟨1, t.summary, []⟩]
  | .identifier t =>
    [⟨1, t.summary, []⟩, ⟨2, "Wrap a raw value.", []⟩, ⟨2, "Unwrap the raw value.", []⟩]
  | .record t => [⟨1, t.summary, t.details⟩]

/-- The docstrings of the entities module. -/
def docstrings (m : Model) : List Docstring :=
  (sourceModule m).docstring :: sharedDocstrings ++ (types m).flatMap EntityType.docstrings

def sharedPart : List Stretch :=
  Stretch.lines 0 (shared.take 4) ++ ([.doc ⟨1, "Base for every generated record.", []⟩] ++
    (Stretch.lines 0 ((shared.drop 5).take 5) ++ ([.doc ⟨1, "One page of query results.", []⟩] ++
      Stretch.lines 0 (shared.drop 11))))

def EnumMember.stretches (m : EnumMember) : List Stretch :=
  Stretch.commented 1 m.comment (m.name ++ " = " ++ Text.literal m.value)

def EnumerationType.part (t : EnumerationType) : List Stretch :=
  blockPart (.line ("class " ++ t.name ++ "(str, Enum):")) t.summary []
    (Stretch.spaced (t.members.flatMap EnumMember.stretches))

def IdentifierType.part (t : IdentifierType) : List Stretch :=
  blockPart (.line ("class " ++ t.name ++ "(DomainModel):")) t.summary []
    (Stretch.lines 1 (["", "model_config = ConfigDict(frozen=True)"] ++
      spaced ((t.format.map fun text => "FORMAT: ClassVar[str] = " ++ Text.literal text).toList ++
        (t.start.map fun text => "PREFIX: ClassVar[str] = " ++ Text.literal text).toList) ++
      ["", "value: " ++ t.underlying, "", "@classmethod",
        "def from_value(cls, value: " ++ t.underlying ++ ") -> " ++ t.name ++ ":"]) ++
    (.doc ⟨2, "Wrap a raw value.", []⟩ ::
      (Stretch.lines 1 ["    return cls(value=value)", "",
        "def into_value(self) -> " ++ t.underlying ++ ":"] ++
      (.doc ⟨2, "Unwrap the raw value.", []⟩ ::
        Stretch.lines 1 ["    return self.value", "", "def __str__(self) -> str:",
          "    return str(self.value)"]))))

def RecordType.part (t : RecordType) : List Stretch :=
  blockPart (.line ("class " ++ t.name ++ "(DomainModel):")) t.summary t.details
    (Stretch.lines 1 ["", configLine t.frozen] ++
      Stretch.spaced (t.fields.flatMap (Declaration.stretches 1)))

def EntityType.part : EntityType → List Stretch
  | .enumeration t => t.part
  | .identifier t => t.part
  | .record t => t.part

/-- The parts of the entities module below its imports. -/
def parts (m : Model) : List (List Stretch) :=
  sharedPart :: (types m).map EntityType.part

/-! #### Source -/

theorem partText_sharedPart : partText sharedPart = joinLines shared := by
  unfold partText sharedPart
  simp [Stretch.doc, Docstring.lines, docstring, indentBy, tripleQuote, padding, shared]

theorem EnumMember.flatMap_source_stretches (m : EnumMember) :
    m.stretches.flatMap Stretch.source = indent m.lines :=
  Stretch.flatMap_source_commented 1 m.comment (by simp)

theorem EnumerationType.partText_part (t : EnumerationType) : partText t.part = t.block := by
  refine partText_blockPart _ _ _ (Stretch.flatMap_source_spaced ?_ ?_)
  · rw [List.flatMap_assoc, indentBy, List.map_flatMap]
    simp only [EnumMember.flatMap_source_stretches]
    rfl
  · intro s hs
    obtain ⟨member, -, hs⟩ := List.mem_flatMap.1 hs
    exact Stretch.source_ne_nil_of_mem_commented hs

theorem IdentifierType.partText_part (t : IdentifierType) : partText t.part = t.block := by
  have hwrap : (Docstring.mk 2 "Wrap a raw value." []).lines =
      indentBy 1 ["    \"\"\"Wrap a raw value.\"\"\""] := by
    simp [Docstring.lines, docstring, indentBy, tripleQuote, padding]
  have hunwrap : (Docstring.mk 2 "Unwrap the raw value." []).lines =
      indentBy 1 ["    \"\"\"Unwrap the raw value.\"\"\""] := by
    simp [Docstring.lines, docstring, indentBy, tripleQuote, padding]
  have hdoc (d : Docstring) : (Stretch.doc d).source = d.lines := rfl
  unfold part block
  rw [List.append_assoc, List.append_assoc]
  refine partText_blockPart _ _ _ ?_
  simp only [List.flatMap_append, List.flatMap_cons, Stretch.flatMap_source_lines, hdoc, hwrap,
    hunwrap, ← indentBy_append, List.append_assoc, List.cons_append, List.nil_append]
  rfl

theorem RecordType.partText_part (t : RecordType) : partText t.part = t.block := by
  unfold part block
  rw [List.append_assoc]
  refine partText_blockPart _ _ _ ?_
  rw [List.flatMap_append, Stretch.flatMap_source_lines, indent_append,
    Declaration.flatMap_source_spaced]
  rfl

/-! #### Soundness -/

theorem isPart_sharedPart : IsPart sharedPart := by
  have hmodel : ∀ text ∈ shared.take 4, Run [] [text] text := by
    iterate 4 refine runs_cons rfl ?_
    exact runs_nil
  have hpage : ∀ text ∈ (shared.drop 5).take 5, Run [] [text] text := by
    iterate 5 refine runs_cons rfl ?_
    exact runs_nil
  have hlast : ∀ text ∈ shared.drop 11, Run [] [text] text := by
    iterate 5 refine runs_cons rfl ?_
    exact runs_nil
  have hbelow := (isPart_lines hlast rfl (by simp) 0).documented
    ⟨1, "One page of query results.", []⟩ (inert_ofList rfl) hpage 0
  exact hbelow.documented ⟨1, "Base for every generated record.", []⟩ (inert_ofList rfl) hmodel 0

theorem EnumerationType.isPart_part {t : EnumerationType} (hname : Name.IsPlain t.name)
    (hsummary : Inert t.summary)
    (hmembers : ∀ member ∈ t.members, Name.IsPlain member.name ∧
      ∀ comment ∈ member.comment, Unbroken comment) : IsPart t.part := by
  refine isPart_blockPart (sound_class hname (inline_fixed rfl))
    (Docstring.inert_content hsummary (by simp)) (Follows.spaced ?_)
  refine follows_flatMap fun member hmember => ?_
  obtain ⟨hmemberName, hcomment⟩ := hmembers member hmember
  refine isPart_commented hcomment (run_inline ?_) (by simp) 1
  exact inline_append_of_free
    ((free_isLexical_of_isPlain hmemberName).append (Text.free_ofList rfl)) (inline_literal _)

theorem IdentifierType.isPart_part {t : IdentifierType} (hname : Name.IsPlain t.name)
    (hsummary : Inert t.summary) (hunderlying : Inline t.underlying) : IsPart t.part := by
  have hinline := inline_of_isPlain hname
  have hfields : ∀ text ∈ ["", "model_config = ConfigDict(frozen=True)"] ++
      spaced ((t.format.map fun text => "FORMAT: ClassVar[str] = " ++ Text.literal text).toList ++
        (t.start.map fun text => "PREFIX: ClassVar[str] = " ++ Text.literal text).toList) ++
      ["", "value: " ++ t.underlying, "", "@classmethod",
        "def from_value(cls, value: " ++ t.underlying ++ ") -> " ++ t.name ++ ":"],
      Run [] [text] text := by
    refine List.forall_mem_append.2 ⟨List.forall_mem_append.2 ⟨?_, ?_⟩, ?_⟩
    · exact runs_cons rfl (runs_cons rfl runs_nil)
    · intro text htext
      rcases of_mem_spaced htext with rfl | htext
      · exact run_end
      · simp only [List.mem_append, Option.mem_toList, Option.map_eq_some_iff] at htext
        rcases htext with ⟨format, -, rfl⟩ | ⟨start, -, rfl⟩
        · exact .fixed (run_inline (inline_literal format)) rfl
        · exact .fixed (run_inline (inline_literal start)) rfl
    · refine runs_cons rfl (List.forall_mem_cons.2 ⟨.fixed (run_inline hunderlying) rfl,
        runs_cons rfl (runs_cons rfl (List.forall_mem_singleton.2 ?_))⟩)
      simp only [String.append_assoc]
      exact .fixed (.text (.fixed (.text (run_fixed rfl) hinline (clear_cons rfl _)) rfl)
        hunderlying (clear_ofList rfl)) rfl
  have hinto : ∀ text ∈ ["    return cls(value=value)", "",
      "def into_value(self) -> " ++ t.underlying ++ ":"], Run [] [text] text := by
    refine runs_cons rfl (runs_cons rfl (List.forall_mem_singleton.2 ?_))
    rw [String.append_assoc]
    exact .fixed (.text (run_fixed rfl) hunderlying (clear_cons rfl _)) rfl
  have hend : ∀ text ∈ ["    return self.value", "", "def __str__(self) -> str:",
      "    return str(self.value)"], Run [] [text] text := by
    iterate 4 refine runs_cons rfl ?_
    exact runs_nil
  refine isPart_blockPart (sound_class hname (inline_fixed rfl))
    (Docstring.inert_content hsummary (by simp)) (.inr ?_)
  have hunwrap := (isPart_lines hend rfl (by simp) 1).documented ⟨2, "Unwrap the raw value.", []⟩
    (inert_ofList rfl) hinto 1
  exact hunwrap.documented ⟨2, "Wrap a raw value.", []⟩ (inert_ofList rfl) hfields 1

theorem RecordType.isPart_part {t : RecordType} (hname : Name.IsPlain t.name)
    (hdoc : Inert (Docstring.mk 1 t.summary t.details).content)
    (hfields : ∀ d ∈ t.fields, IsPart (d.stretches 1)) : IsPart t.part := by
  have hconfig : ∀ text ∈ ["", configLine t.frozen], Run [] [text] text := by
    refine runs_cons rfl (List.forall_mem_singleton.2 ?_)
    unfold configLine
    split
    · exact run_fixed rfl
    · exact run_fixed rfl
  have hne : configLine t.frozen ≠ "" := by
    unfold configLine
    split <;> simp
  refine isPart_blockPart (sound_class hname (inline_fixed rfl)) hdoc (.inr ?_)
  exact (isPart_lines hconfig rfl hne 1).append (follows_flatMap hfields).spaced

theorem inert_invariantLine (i : Invariant) : Inert (invariantLine i) := by
  unfold invariantLine
  refine Inert.append (((Inert.append (inert_ofList rfl) (inert_docLine _)).append
    (inert_ofList rfl)).append (inert_docLine _)) ?_
  split
  · exact inert_of_free rfl
  · exact inert_of_free rfl
  · exact (Inert.append (inert_ofList rfl) (inert_docLine _)).append (inert_ofList rfl)

theorem inert_identityLines (properties : List Property) :
    ∀ line ∈ identityLines properties, Inert line := by
  unfold identityLines
  split
  · simp
  · refine List.forall_mem_singleton.2 (Inert.append (inert_ofList rfl) ?_)
    refine Inert.intercalate (inert_ofList rfl) fun text htext => ?_
    obtain ⟨p, -, rfl⟩ := List.mem_map.1 htext
    exact inert_of_isPlain (Name.isPlain_member p.name)

theorem inert_invariantLines (invariants : List Invariant) :
    ∀ line ∈ invariantLines invariants, Inert line := by
  unfold invariantLines
  split
  · simp
  · refine List.forall_mem_cons.2 ⟨inert_ofList rfl, fun line hline => ?_⟩
    obtain ⟨i, -, rfl⟩ := List.mem_map.1 hline
    exact inert_invariantLine i

theorem isPart_valueType {m : Model}
    (h : ∀ text ∈ shownTypes m, Contained ((Scope.ofModel m).meaning text))
    {entry : String × ValueObject} (hentry : entry ∈ m.valueObjects.entries) :
    IsPart (valueType (Scope.ofModel m) entry).part := by
  have hsorted := m.valueObjects.sorted_perm.mem_iff.2 hentry
  have hname := Name.isPlain_pascal entry.1
  cases hshape : entry.2.shape with
  | enumeration values =>
      simp only [valueType, hshape]
      refine EnumerationType.isPart_part hname ?_ ?_
      · unfold enumerationType
        dsimp only
        exact inert_described (by decide) _ entry.1
      · intro member hmember
        obtain ⟨value, -, rfl⟩ := List.mem_map.1 hmember
        dsimp only
        refine ⟨Name.isPlain_constant value.name, fun comment hcomment => ?_⟩
        split at hcomment
        · cases hcomment
        · cases hcomment
        · cases hcomment
          exact unbroken_flatten _
  | identifier underlying format start =>
      simp only [valueType, hshape]
      refine IdentifierType.isPart_part hname ?_ ?_
      · unfold identifierType
        dsimp only
        exact inert_described (by decide) _ entry.1
      · refine (Scope.contained_target (h underlying (List.mem_append_left _ ?_))).inline
        exact List.mem_filterMap.2 ⟨entry, hsorted, by simp only [hshape]⟩
  | record properties =>
      simp only [valueType, hshape]
      refine RecordType.isPart_part hname (Docstring.inert_content ?_ (by simp [recordType])) ?_
      · unfold recordType
        dsimp only
        exact inert_described (by decide) _ entry.1
      · refine isPart_fields fun p hp => h _ (List.mem_append_right _ (List.mem_map_of_mem ?_))
        refine List.mem_append_left _ (List.mem_flatMap.2 ⟨entry, hsorted, ?_⟩)
        simpa only [hshape] using hp

theorem isPart_aggregateType {m : Model}
    (h : ∀ text ∈ shownTypes m, Contained ((Scope.ofModel m).meaning text))
    {entry : String × Aggregate} (hentry : entry ∈ m.aggregates.entries) :
    IsPart (aggregateType (Scope.ofModel m) entry.1 entry.2).part := by
  refine RecordType.isPart_part (Name.isPlain_pascal entry.1)
    (Docstring.inert_content ?_ (inert_paragraphs ?_)) ?_
  · unfold aggregateType
    dsimp only
    exact inert_described (by decide) _ entry.1
  · exact List.forall_mem_cons.2 ⟨inert_identityLines _,
      List.forall_mem_singleton.2 (inert_invariantLines _)⟩
  · refine isPart_fields fun p hp => h _ (List.mem_append_right _ (List.mem_map_of_mem ?_))
    refine List.mem_append_right _ (List.mem_flatMap.2 ⟨entry, ?_, hp⟩)
    exact m.aggregates.sorted_perm.mem_iff.2 hentry

theorem EntityType.partText_part (t : EntityType) : partText t.part = t.block := by
  cases t with
  | enumeration t => exact t.partText_part
  | identifier t => exact t.partText_part
  | record t => exact t.partText_part

theorem isPart_imports : IsPart (importPart imports) :=
  isPart_importPart (by decide) (by decide)

theorem inert_title (m : Model) : Inert (sourceModule m).title :=
  (Inert.append (inert_ofList rfl) (inert_docLine _)).append (inert_ofList rfl)

theorem map_partText_parts (m : Model) : (parts m).map partText = (sourceModule m).blocks := by
  rw [parts, List.map_cons, partText_sharedPart, List.map_map]
  exact congrArg _ (List.map_congr_left fun t _ => t.partText_part)

/-- The entities module is made of its parts if the types it shows are contained. -/
theorem madeOf_parts {m : Model}
    (h : ∀ text ∈ shownTypes m, Contained ((Scope.ofModel m).meaning text)) :
    (sourceModule m).MadeOf ((sourceModule m).allParts (parts m)) := by
  refine SourceModule.madeOf_allParts (inert_title m) isPart_imports (map_partText_parts m)
    (List.forall_mem_cons.2 ⟨isPart_sharedPart, fun part hpart => ?_⟩)
  obtain ⟨t, ht, rfl⟩ := List.mem_map.1 hpart
  rcases mem_types.1 ht with ⟨entry, hentry, rfl⟩ | ⟨entry, hentry, rfl⟩
  · exact isPart_valueType h hentry
  · exact isPart_aggregateType h hentry

theorem flatMap_strings_sharedPart :
    sharedPart.flatMap Stretch.strings = sharedDocstrings.map Docstring.content := by
  simp [sharedPart, sharedDocstrings, Stretch.doc]

theorem EntityType.flatMap_strings_part (t : EntityType) :
    t.part.flatMap Stretch.strings = t.docstrings.map Docstring.content := by
  cases t with
  | enumeration t =>
      simp [part, EnumerationType.part, docstrings, EnumMember.stretches, Stretch.line,
        List.flatMap_assoc]
  | identifier t =>
      simp [part, IdentifierType.part, docstrings, Stretch.line, Stretch.doc]
  | record t =>
      simp [part, RecordType.part, docstrings, Stretch.line,
        Declaration.flatMap_strings_stretches]

theorem flatMap_strings_parts (m : Model) :
    ((sourceModule m).allParts (parts m)).flatMap (fun part => part.flatMap Stretch.strings) =
      (docstrings m).map Docstring.content := by
  simp [SourceModule.allParts, parts, docstrings, flatMap_strings_sharedPart,
    SourceModule.flatMap_strings_importPart, EntityType.flatMap_strings_part, Stretch.doc,
    List.flatMap_map, List.map_flatMap]

end Entities

/-! ### Commands -/

namespace Commands

/-- The types that the commands module shows. -/
def shownTypes (m : Model) : List String :=
  m.commands.sorted.flatMap fun (_, c) => c.payload.map Property.typeText

def errorDocstrings : List Docstring :=
  [⟨1, "Reason a command was rejected.", []⟩,
    ⟨1, "Structured failure raised by command validation and command handlers.", []⟩]

/-- The docstring of the method that validates a command. -/
def validateDocstring : Docstring :=
  ⟨2, "Validate the command.", ["Raises:", "    CommandError: If a validation rule is violated"]⟩

/-- The docstrings in the source of a command's record. -/
def CommandType.docstrings (t : CommandType) : List Docstring :=
  [⟨1, t.summary, t.details⟩, validateDocstring]

/-- The docstring of a handler method. -/
def HandlerMethod.docstring (h : HandlerMethod) : Docstring :=
  ⟨2, h.summary, h.details⟩

/-- The summary of the handler contract. -/
def contractSummary (m : Model) : String :=
  "Handles every command of the " ++ Text.docLine m.context.name ++ " bounded context."

/-- The docstrings of the commands module. -/
def docstrings (m : Model) : List Docstring :=
  (sourceModule m).docstring :: errorDocstrings ++ (types m).flatMap CommandType.docstrings ++
    ⟨1, contractSummary m, []⟩ :: (handlerMethods m).map HandlerMethod.docstring

def errorPart : List Stretch :=
  Stretch.lines 0 (errorTypes.take 1) ++ (.doc ⟨1, "Reason a command was rejected.", []⟩ ::
    (Stretch.lines 0 ((errorTypes.drop 2).take 8) ++
      (.doc ⟨1, "Structured failure raised by command validation and command handlers.", []⟩ ::
        Stretch.lines 0 (errorTypes.drop 11))))

def CommandType.part (t : CommandType) : List Stretch :=
  blockPart (.line ("class " ++ t.name ++ "(DomainModel):")) t.summary t.details
    (Stretch.spaced (t.fields.flatMap (Declaration.stretches 1)) ++
      (Stretch.lines 1 ["", "def validate(self) -> None:"] ++ (.doc validateDocstring ::
        (Stretch.remarks 2 t.remarks ++ Stretch.lines 2 ["return None"]))))

def HandlerMethod.stretches (h : HandlerMethod) : List Stretch :=
  Stretch.lines 1 ["", "@abstractmethod",
    "async def " ++ h.name ++ "(self, command: " ++ h.commandName ++ ") -> List[DomainEvent]:"] ++
  (.doc h.docstring :: Stretch.lines 2 ["..."])

def contractPart (m : Model) : List Stretch :=
  blockPart (.line "class CommandHandler(ABC):") (contractSummary m) []
    ((handlerMethods m).flatMap HandlerMethod.stretches)

/-- The parts of the commands module below its imports. -/
def parts (m : Model) : List (List Stretch) :=
  errorPart :: (types m).map CommandType.part ++ [contractPart m]

/-! #### Source -/

theorem partText_errorPart : partText errorPart = joinLines errorTypes := by
  unfold partText errorPart
  simp [Stretch.doc, Docstring.lines, Source.docstring, indentBy, tripleQuote, padding, errorTypes]

theorem CommandType.partText_part {t : CommandType}
    (hremarks : ∀ remark ∈ t.remarks, remark.toList.head? = some '#') :
    partText t.part = t.block := by
  have hvalidate : validateDocstring.lines = indent [
      "    \"\"\"Validate the command.",
      "",
      "    Raises:",
      "        CommandError: If a validation rule is violated",
      "    \"\"\""] := by
    simp [validateDocstring, Docstring.lines, Source.docstring, indent, indentBy, tripleQuote,
      padding]
  have hindent (lines : List String) : indentBy 1 lines = indent lines := rfl
  unfold part block
  rw [List.append_assoc, List.append_assoc]
  refine partText_blockPart _ _ _ ?_
  rw [List.flatMap_append, List.flatMap_append, List.flatMap_cons, List.flatMap_append,
    Declaration.flatMap_source_spaced, Stretch.flatMap_source_lines, Stretch.flatMap_source_lines,
    Stretch.flatMap_source_remarks hremarks, Stretch.source_doc, hvalidate, ← indentBy_append,
    ← indent_indentBy 1, hindent, hindent, hindent, ← indent_append, ← indent_append,
    ← indent_append]
  rfl

theorem HandlerMethod.flatMap_source_stretches (h : HandlerMethod) :
    h.stretches.flatMap Stretch.source = indent h.lines := by
  have hindent (lines : List String) : indent (indent lines) = indentBy 2 lines :=
    indent_indentBy 1 lines
  rw [HandlerMethod.stretches, List.flatMap_append, List.flatMap_cons, Stretch.flatMap_source_lines,
    Stretch.flatMap_source_lines, Stretch.source_doc, HandlerMethod.lines, indent_append, hindent,
    indentBy_append]
  rfl

theorem partText_contractPart (m : Model) : partText (contractPart m) = handlerContract m := by
  refine partText_blockPart _ _ _ ?_
  rw [List.flatMap_assoc, indent, indentBy, List.map_flatMap]
  simp only [HandlerMethod.flatMap_source_stretches]
  rfl

/-! #### Soundness -/

theorem isPart_errorPart : IsPart errorPart := by
  have hkind : ∀ text ∈ errorTypes.take 1, Run [] [text] text := by
    refine runs_cons rfl runs_nil
  have hmembers : ∀ text ∈ (errorTypes.drop 2).take 8, Run [] [text] text := by
    repeat refine runs_cons rfl ?_
    exact runs_nil
  have hmethods : ∀ text ∈ errorTypes.drop 11, Run [] [text] text := by
    repeat refine runs_cons rfl ?_
    exact runs_nil
  have hfailure := (isPart_lines hmethods rfl (by simp) 0).documented
    ⟨1, "Structured failure raised by command validation and command handlers.", []⟩
    (inert_ofList rfl) hmembers 0
  exact hfailure.documented ⟨1, "Reason a command was rejected.", []⟩ (inert_ofList rfl) hkind 0

theorem CommandType.isPart_part {t : CommandType} (hname : Name.IsPlain t.name)
    (hdoc : Inert (Docstring.mk 1 t.summary t.details).content)
    (hfields : ∀ d ∈ t.fields, IsPart (d.stretches 1))
    (hremarks : ∀ remark ∈ t.remarks, remark.toList.head? = some '#' ∧ Unbroken remark) :
    IsPart t.part := by
  have hvalidate : ∀ text ∈ ["", "def validate(self) -> None:"], Run [] [text] text :=
    runs_cons rfl (runs_cons rfl runs_nil)
  have hreturn : ∀ text ∈ ["return None"], Run [] [text] text := runs_cons rfl runs_nil
  have hvalidateDoc : Inert validateDocstring.content := by
    refine Docstring.inert_content (inert_ofList rfl) ?_
    exact List.forall_mem_cons.2 ⟨inert_ofList rfl, List.forall_mem_singleton.2 (inert_ofList rfl)⟩
  refine isPart_blockPart (sound_class hname (inline_fixed rfl)) hdoc (.inr ?_)
  have hbody := (isPart_lines hreturn rfl (by simp) 2).prepend (Stretch.sound_remarks hremarks 2)
  exact (hbody.documented validateDocstring hvalidateDoc hvalidate 1).prepend
    (Stretch.sound_spaced (follows_flatMap hfields).sound)

theorem HandlerMethod.isPart_stretches {h : HandlerMethod} (hname : Name.IsPlain h.name)
    (hcommand : Name.IsPlain h.commandName) (hdoc : Inert h.docstring.content) :
    IsPart h.stretches := by
  have hhead : ∀ text ∈ ["", "@abstractmethod", "async def " ++ h.name ++ "(self, command: " ++
      h.commandName ++ ") -> List[DomainEvent]:"], Run [] [text] text := by
    refine runs_cons rfl (runs_cons rfl (List.forall_mem_singleton.2 ?_))
    simp only [String.append_assoc]
    exact .fixed (.text (.fixed (.text (run_fixed rfl) (inline_of_isPlain hcommand)
      (clear_cons rfl _)) rfl) (inline_of_isPlain hname) (clear_ofList rfl)) rfl
  have hbody : ∀ text ∈ ["..."], Run [] [text] text := runs_cons rfl runs_nil
  exact (isPart_lines hbody rfl (by simp) 2).documented h.docstring hdoc hhead 1

theorem inert_aggregateLines (aggregate : Option String) :
    ∀ line ∈ aggregateLines aggregate, Inert line := by
  unfold aggregateLines
  split
  · simp
  · simp
  · exact List.forall_mem_singleton.2 (Inert.append (inert_ofList rfl) (inert_pascal _))

theorem inert_producesLines (events : List String) :
    ∀ line ∈ producesLines events, Inert line := by
  unfold producesLines
  split
  · simp
  · refine List.forall_mem_singleton.2 (Inert.append (inert_ofList rfl) ?_)
    refine Inert.intercalate (inert_ofList rfl) fun text htext => ?_
    obtain ⟨event, -, rfl⟩ := List.mem_map.1 htext
    exact inert_pascal event

theorem inert_preconditionLines (conditions : List Condition) :
    ∀ line ∈ preconditionLines conditions, Inert line := by
  unfold preconditionLines
  split
  · simp
  · refine List.forall_mem_cons.2 ⟨inert_ofList rfl, fun line hline => ?_⟩
    obtain ⟨c, -, rfl⟩ := List.mem_map.1 hline
    exact (((Inert.append (inert_ofList rfl) (inert_docLine _)).append (inert_ofList rfl)).append
      (inert_docLine _)).append (inert_ofList rfl)

theorem HandlerMethod.inert_docstring {m : Model} {h : HandlerMethod}
    (hmem : h ∈ handlerMethods m) : Inert h.docstring.content := by
  obtain ⟨⟨name, c⟩, -, rfl⟩ := List.mem_map.1 hmem
  refine Docstring.inert_content ?_ (inert_paragraphs ?_)
  · unfold HandlerMethod.docstring handlerMethod
    dsimp only
    exact inert_performed (by decide) (by decide) _ name
  · refine List.forall_mem_cons.2 ⟨inert_producesLines _, List.forall_mem_cons.2
      ⟨inert_preconditionLines _, List.forall_mem_singleton.2 ?_⟩⟩
    exact List.forall_mem_cons.2 ⟨inert_ofList rfl, List.forall_mem_singleton.2 (inert_ofList rfl)⟩

theorem of_mem_remarks {conditions : List Condition} :
    ∀ remark ∈ conditions.map validationRemark,
      remark.toList.head? = some '#' ∧ Unbroken remark := by
  intro remark hremark
  obtain ⟨c, -, rfl⟩ := List.mem_map.1 hremark
  unfold validationRemark
  refine ⟨by simp, ?_⟩
  exact (((Text.Free.append (Text.free_ofList rfl) (unbroken_flatten _)).append
    (Text.free_ofList rfl)).append (unbroken_flatten _)).append (Text.free_ofList rfl)

theorem isPart_commandType {m : Model}
    (h : ∀ text ∈ shownTypes m, Contained ((Scope.ofModel m).meaning text))
    {entry : String × Command} (hentry : entry ∈ m.commands.sorted) :
    IsPart (commandType (Scope.ofModel m) entry.1 entry.2).part := by
  refine CommandType.isPart_part (Name.isPlain_pascal entry.1)
    (Docstring.inert_content ?_ (inert_aggregateLines _)) ?_ of_mem_remarks
  · unfold commandType
    dsimp only
    exact inert_described (by decide) _ entry.1
  · refine isPart_fields fun p hp => h _ (List.mem_flatMap.2 ⟨entry, hentry, ?_⟩)
    exact List.mem_map_of_mem hp

theorem isPart_contractPart (m : Model) : IsPart (contractPart m) := by
  refine isPart_blockPart (Stretch.sound_fixed rfl) (Docstring.inert_content ?_ (by simp))
    (follows_flatMap fun h hh => ?_)
  · exact (Inert.append (inert_ofList rfl) (inert_docLine _)).append (inert_ofList rfl)
  · have hdoc := HandlerMethod.inert_docstring hh
    obtain ⟨entry, -, rfl⟩ := List.mem_map.1 hh
    exact HandlerMethod.isPart_stretches (Name.isPlain_handlerMethod entry.1)
      (Name.isPlain_pascal entry.1) hdoc

theorem isPart_imports : IsPart (importPart imports) :=
  isPart_importPart (by decide) (by decide)

theorem inert_title (m : Model) : Inert (sourceModule m).title :=
  (Inert.append (inert_ofList rfl) (inert_docLine _)).append (inert_ofList rfl)

theorem map_partText_parts (m : Model) : (parts m).map partText = (sourceModule m).blocks := by
  have htypes : ((types m).map CommandType.part).map partText =
      (types m).map CommandType.block := by
    rw [List.map_map]
    refine List.map_congr_left fun t ht => CommandType.partText_part fun remark hremark => ?_
    obtain ⟨entry, -, rfl⟩ := List.mem_map.1 ht
    exact (of_mem_remarks remark hremark).1
  rw [parts, List.cons_append, List.map_cons, List.map_append, partText_errorPart, htypes,
    List.map_singleton, partText_contractPart]
  rfl

/-- The commands module is made of its parts if the types it shows are contained. -/
theorem madeOf_parts {m : Model}
    (h : ∀ text ∈ shownTypes m, Contained ((Scope.ofModel m).meaning text)) :
    (sourceModule m).MadeOf ((sourceModule m).allParts (parts m)) := by
  refine SourceModule.madeOf_allParts (inert_title m) isPart_imports (map_partText_parts m)
    (List.forall_mem_append.2 ⟨List.forall_mem_cons.2 ⟨isPart_errorPart, fun part hpart => ?_⟩,
      List.forall_mem_singleton.2 (isPart_contractPart m)⟩)
  obtain ⟨t, ht, rfl⟩ := List.mem_map.1 hpart
  obtain ⟨entry, hentry, rfl⟩ := List.mem_map.1 ht
  exact isPart_commandType h hentry

theorem flatMap_strings_parts (m : Model) :
    ((sourceModule m).allParts (parts m)).flatMap (fun part => part.flatMap Stretch.strings) =
      (docstrings m).map Docstring.content := by
  have herror : errorPart.flatMap Stretch.strings = errorDocstrings.map Docstring.content := by
    simp [errorPart, errorDocstrings, Stretch.doc]
  have htype (t : CommandType) :
      t.part.flatMap Stretch.strings = t.docstrings.map Docstring.content := by
    simp [CommandType.part, CommandType.docstrings, Stretch.line, Stretch.doc,
      Declaration.flatMap_strings_stretches]
  have hcontract : (contractPart m).flatMap Stretch.strings =
      (Docstring.mk 1 (contractSummary m) [] ::
        (handlerMethods m).map HandlerMethod.docstring).map Docstring.content := by
    simp [contractPart, HandlerMethod.stretches, Stretch.line, Stretch.doc, List.flatMap_assoc,
      List.map_eq_flatMap]
  simp [SourceModule.allParts, parts, docstrings, herror, htype, hcontract,
    SourceModule.flatMap_strings_importPart, Stretch.doc, List.flatMap_map, List.map_flatMap]

end Commands

end Groundplan
