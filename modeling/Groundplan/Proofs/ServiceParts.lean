import Groundplan.Proofs.ModuleParts
import Groundplan.Proofs.TypeClassifiers
import Groundplan.Render.Events
import Groundplan.Render.Routes

/-!
# The parts of the events and routes modules

The blocks of the events module and of the routes module are taken apart into stretches of source,
as those of entities and commands are. Tables, registrations and signatures of several lines are
in brackets and come to one line of code each.

Parameters of queries are bound if their types are built from primitive ones, and these types are
contained whatever the model is. The type of a query's answer is shown in a docstring only. It is
the one text there that is neither spelled nor escaped, and it has to be unquoted.
-/

namespace Groundplan

open Source

theorem Source.inline_indent {lines : List String} (h : ∀ line ∈ lines, Inline line) :
    ∀ line ∈ indent lines, Inline line := by
  intro line hline
  obtain ⟨text, htext, rfl⟩ := List.mem_map.1 hline
  split
  · exact inline_ofList rfl
  · exact inline_append_of_free (free_isLexical_padding 1) (h text htext)

theorem TypeExpr.FromPrimitive.contained {text : String} (h : FromPrimitive text) :
    Contained text := by
  have hprimitives : ∀ entry ∈ primitives, Text.Free isLexical entry.2 := by decide
  induction h with
  | primitive hentry => exact contained_of_free (hprimitives _ hentry)
  | list _ ih => exact contained_around ih .list
  | optional _ ih => exact contained_around ih .option

/-! ### Events -/

namespace Events

/-- The types that the events module shows. -/
def shownTypes (m : Model) : List String :=
  m.events.sorted.flatMap fun (_, e) => (keptPayload e).map Property.typeText

/-- The docstring of the method that creates an event. -/
def creationDocstring : Docstring :=
  ⟨2, "Create the event with a fresh id and the current time.", []⟩

/-- The docstrings in the source of an event's record. -/
def EventType.docstrings (t : EventType) : List Docstring :=
  [⟨1, t.summary, t.details⟩, creationDocstring]

def emptyEnvelopeDocstring : Docstring :=
  ⟨1, "Envelope over the events of this bounded context (none are declared).", []⟩

def decodingDocstring : Docstring :=
  ⟨2, "Decode ``data`` with the record class named by ``type``.", []⟩

def wrappingDocstring : Docstring :=
  ⟨2, "Put an event record into the envelope.", []⟩

/-- The docstrings in the blocks that tie all event records together. -/
def envelopeDocstrings : List String → List Docstring
  | [] => [emptyEnvelopeDocstring]
  | _ => [⟨1, "Envelope over every event of this bounded context, tagged by type.", []⟩,
    decodingDocstring, wrappingDocstring]

def metadataDocstring : Docstring :=
  ⟨1, "Storage metadata recorded alongside every persisted event.", []⟩

def subscriptionDocstring : Docstring :=
  ⟨1, "Event published by another bounded context that this context handles.", []⟩

/-- The docstrings of the events module. -/
def docstrings (m : Model) : List Docstring :=
  (sourceModule m).docstring :: (types m).flatMap EventType.docstrings ++
    envelopeDocstrings ((types m).map EventType.name) ++ [metadataDocstring, subscriptionDocstring]

def EventType.part (t : EventType) : List Stretch :=
  blockPart (.line ("class " ++ t.name ++ "(DomainModel):")) t.summary t.details
    (Stretch.lines 1 ("" :: t.standard.map StandardField.line) ++
      (t.payload.flatMap (Declaration.stretches 1) ++
        (Stretch.lines 1 ("" :: t.constructorLines.take 2) ++ (.doc creationDocstring ::
          Stretch.lines 1 (t.constructorLines.drop 3)))))

/-- The lines of the table of event types. -/
def registryLines (names : List String) : List String :=
  ["EVENT_TYPES: Dict[str, Type[DomainModel]] = \x7b"] ++
    names.map (fun name => "    " ++ Text.literal name ++ ": " ++ name ++ ",") ++ ["\x7d"]

def emptyEnvelopePart : List Stretch :=
  Stretch.lines 0 (emptyEnvelope.take 4) ++
    (.doc emptyEnvelopeDocstring :: Stretch.lines 0 (emptyEnvelope.drop 5))

def envelopePart (names : List String) : List Stretch :=
  blockPart (.line "class DomainEvent(DomainModel):")
    "Envelope over every event of this bounded context, tagged by type." []
    (Stretch.lines 1 (["", "type: Literal[" ++ ", ".intercalate (names.map Text.literal) ++ "]",
      "data: Union[" ++ ", ".intercalate names ++ "]", ""] ++ envelopeMethods.take 3) ++
    (.doc decodingDocstring :: (Stretch.lines 1 ((envelopeMethods.drop 4).take 9) ++
      (.doc wrappingDocstring :: Stretch.lines 1 (envelopeMethods.drop 14)))))

def envelopeParts : List String → List (List Stretch)
  | [] => [emptyEnvelopePart]
  | names => [[.joined (registryLines names)], envelopePart names]

def metadataPart : List Stretch :=
  Stretch.lines 0 (metadataType.take 1) ++ (.doc metadataDocstring ::
    Stretch.lines 0 (metadataType.drop 2))

def subscriptionPart : List Stretch :=
  Stretch.lines 0 (subscriptionType.take 1) ++ (.doc subscriptionDocstring ::
    Stretch.lines 0 (subscriptionType.drop 2))

/-- The lines of the list of subscriptions. -/
def subscriptionListLines : List Subscription → List String
  | [] => ["EXTERNAL_EVENT_SUBSCRIPTIONS: Tuple[ExternalEventSubscription, ...] = ()"]
  | subscriptions =>
    ["EXTERNAL_EVENT_SUBSCRIPTIONS: Tuple[ExternalEventSubscription, ...] = ("] ++
      subscriptions.flatMap subscriptionLines ++ [")"]

/-- The parts of the events module below its imports. -/
def parts (m : Model) : List (List Stretch) :=
  [Stretch.lines 0 utcNow] ++ (types m).map EventType.part ++
    envelopeParts ((types m).map EventType.name) ++
    [metadataPart, subscriptionPart, [.joined (subscriptionListLines m.subscriptions)]]

/-! #### Source -/

theorem EventType.partText_part (t : EventType) : partText t.part = t.block := by
  have hcreate : creationDocstring.lines =
      indentBy 1 ["    \"\"\"Create the event with a fresh id and the current time.\"\"\""] := by
    simp [creationDocstring, Docstring.lines, docstring, indentBy, tripleQuote, padding]
  have hpayload : (t.payload.flatMap (Declaration.stretches 1)).flatMap Stretch.source =
      indentBy 1 (t.payload.flatMap Declaration.lines) := by
    rw [List.flatMap_assoc, indentBy, List.map_flatMap]
    simp only [Declaration.flatMap_source_stretches]
    rfl
  unfold part block
  simp only [List.append_assoc]
  refine partText_blockPart _ _ _ ?_
  simp only [List.flatMap_append, List.flatMap_cons, Stretch.flatMap_source_lines, hpayload,
    Stretch.source_doc, hcreate, ← indentBy_append]
  simp only [List.cons_append, List.nil_append]
  rfl

theorem partText_emptyEnvelopePart : partText emptyEnvelopePart = joinLines emptyEnvelope := by
  unfold partText emptyEnvelopePart
  simp [Stretch.doc, emptyEnvelopeDocstring, Docstring.lines, Source.docstring, indentBy,
    tripleQuote, padding, emptyEnvelope]

theorem partText_joined (lines : List String) : partText [.joined lines] = joinLines lines := by
  rw [partText, List.flatMap_singleton]
  rfl

theorem partText_envelopePart (names : List String) :
    partText (envelopePart names) = envelope names := by
  have hdecode : decodingDocstring.lines =
      indentBy 1 ["    \"\"\"Decode ``data`` with the record class named by ``type``.\"\"\""] := by
    simp [decodingDocstring, Docstring.lines, docstring, indentBy, tripleQuote, padding]
  have hwrap : wrappingDocstring.lines =
      indentBy 1 ["    \"\"\"Put an event record into the envelope.\"\"\""] := by
    simp [wrappingDocstring, Docstring.lines, docstring, indentBy, tripleQuote, padding]
  unfold envelopePart envelope
  rw [List.append_assoc]
  refine partText_blockPart _ _ _ ?_
  simp only [List.flatMap_append, List.flatMap_cons, Stretch.flatMap_source_lines,
    Stretch.source_doc, hdecode, hwrap, ← indentBy_append]
  rfl

theorem map_partText_envelopeParts (names : List String) :
    (envelopeParts names).map partText = envelopeBlocks names := by
  cases names with
  | nil => exact congrArg (fun text => [text]) partText_emptyEnvelopePart
  | cons name names =>
      exact congrArg₂ (fun text text' => [text, text']) (partText_joined _)
        (partText_envelopePart (name :: names))

theorem partText_metadataPart : partText metadataPart = joinLines metadataType := by
  unfold partText metadataPart
  simp [Stretch.doc, metadataDocstring, Docstring.lines, Source.docstring, indentBy, tripleQuote,
    padding, metadataType]

theorem partText_subscriptionPart : partText subscriptionPart = joinLines subscriptionType := by
  unfold partText subscriptionPart
  simp [Stretch.doc, subscriptionDocstring, Docstring.lines, Source.docstring, indentBy,
    tripleQuote, padding, subscriptionType]

theorem joinLines_subscriptionListLines (subscriptions : List Subscription) :
    joinLines (subscriptionListLines subscriptions) = subscriptionList subscriptions := by
  cases subscriptions with
  | nil => exact joinLines_singleton _
  | cons s subscriptions => rfl

/-! #### Soundness -/

theorem isPart_utcNow : IsPart (Stretch.lines 0 utcNow) := by
  have hlines : ∀ text ∈ utcNow, Run [] [text] text := runs_cons rfl (runs_cons rfl runs_nil)
  exact isPart_lines hlines rfl (by simp) 0

theorem inline_parameters {parameters : List Declaration}
    (h : ∀ p ∈ parameters, IsWord p.name ∧ Inline p.hint ∧ p.initial = .none) :
    Inline (", ".intercalate ("cls" :: parameters.map Declaration.line)) ∧
      Inline (", ".intercalate (parameters.map fun p => p.name ++ "=" ++ p.name)) := by
  constructor
  · refine Inline.listed (List.forall_mem_cons.2 ⟨inline_ofList rfl, fun text htext => ?_⟩)
    obtain ⟨p, hp, rfl⟩ := List.mem_map.1 htext
    obtain ⟨hname, hhint, hinitial⟩ := h p hp
    exact Declaration.inline_line hname hhint (hinitial ▸ trivial)
  · refine Inline.listed fun text htext => ?_
    obtain ⟨p, hp, rfl⟩ := List.mem_map.1 htext
    have hname := free_of_all_isWordChar (h p hp).1.2
    exact inline_of_free ((hname.append (Text.free_ofList rfl)).append hname)

theorem EventType.isPart_part {t : EventType} (hname : Name.IsPlain t.name)
    (hdoc : Inert (Docstring.mk 1 t.summary t.details).content)
    (hpayload : ∀ d ∈ t.payload, IsPart (d.stretches 1))
    (hparameters : ∀ p ∈ t.parameters, IsWord p.name ∧ Inline p.hint ∧ p.initial = .none) :
    IsPart t.part := by
  obtain ⟨hlisted, hpassed⟩ := inline_parameters hparameters
  have hstandard : ∀ text ∈ "" :: t.standard.map StandardField.line, Run [] [text] text := by
    refine runs_cons rfl fun text htext => ?_
    obtain ⟨field, -, rfl⟩ := List.mem_map.1 htext
    cases field <;> exact run_fixed rfl
  -- Only the signature and the call in the constructor have texts of the model in them.
  have hhead : ∀ text ∈ "" :: t.constructorLines.take 2, Run [] [text] text := by
    refine runs_cons rfl (runs_cons rfl (List.forall_mem_singleton.2 ?_))
    simp only [String.append_assoc]
    exact .fixed (.text (.fixed (.text (run_fixed rfl) (inline_of_isPlain hname) (clear_cons rfl _))
      rfl) hlisted (clear_ofList rfl)) rfl
  have hreturn : ∀ text ∈ t.constructorLines.drop 3, Run [] [text] text := by
    refine List.forall_mem_singleton.2 ?_
    rw [String.append_assoc]
    exact .fixed (.text (run_fixed rfl) hpassed (clear_cons rfl _)) rfl
  refine isPart_blockPart (sound_class hname (inline_fixed rfl)) hdoc (.inr ?_)
  have hend := (isPart_lines hreturn rfl (by simp) 1).documented creationDocstring
    (inert_ofList rfl) hhead 1
  exact (hend.prepend (follows_flatMap hpayload).sound).prepend (Stretch.sound_lines hstandard 1)

theorem isPart_registry {names : List String} (h : ∀ name ∈ names, Name.IsPlain name) :
    IsPart [.joined (registryLines names)] := by
  have hentries : ∀ text ∈ names.map (fun name =>
      "    " ++ Text.literal name ++ ": " ++ name ++ ","), Inline text := by
    intro text htext
    obtain ⟨name, hname, rfl⟩ := List.mem_map.1 htext
    have hbehind : Text.Free isLexical (": " ++ name ++ ",") :=
      (Text.Free.append (Text.free_ofList rfl) (free_isLexical_of_isPlain (h name hname))).append
        (Text.free_ofList rfl)
    -- Behind the quote that closes the name there is a colon, never another quote.
    have hclear : Clear (": " ++ name ++ ",").toList := by
      rw [String.toList_append, String.toList_append]
      exact clear_cons rfl _
    simp only [String.append_assoc]
    exact inline_append_of_free (Text.free_ofList rfl) ((inline_literal name).append
      (inline_of_free hbehind) (.inr hclear))
  have hclosing : Run ['\x7d'] ["\x7d"] "\x7d" := run_fixed rfl
  have hrun := hclosing.inner (by simp) hentries
  unfold registryLines
  refine isPart_joined ?_ (by simp) (by decide)
  rw [List.append_assoc, List.singleton_append, String.join_cons, String.join_append,
    String.join_cons, String.join_nil, String.append_empty]
  exact hrun.fixedLine rfl (by simp)

theorem isPart_emptyEnvelope : IsPart emptyEnvelopePart := by
  have hhead : ∀ text ∈ emptyEnvelope.take 4, Run [] [text] text := by
    repeat refine runs_cons rfl ?_
    exact runs_nil
  have hbody : ∀ text ∈ emptyEnvelope.drop 5, Run [] [text] text := by
    repeat refine runs_cons rfl ?_
    exact runs_nil
  exact (isPart_lines hbody rfl (by simp) 0).documented emptyEnvelopeDocstring (inert_ofList rfl)
    hhead 0

theorem isPart_envelope {names : List String} (h : ∀ name ∈ names, Name.IsPlain name) :
    IsPart (envelopePart names) := by
  have htags : Inline (", ".intercalate (names.map Text.literal)) := by
    refine Inline.listed fun text htext => ?_
    obtain ⟨name, -, rfl⟩ := List.mem_map.1 htext
    exact inline_literal name
  have hvariants : Inline (", ".intercalate names) :=
    Inline.listed fun name hname => inline_of_isPlain (h name hname)
  have hmethods : ∀ text ∈ envelopeMethods.take 3, Run [] [text] text := by
    repeat refine runs_cons rfl ?_
    exact runs_nil
  have hfields : ∀ text ∈ ["", "type: Literal[" ++ ", ".intercalate (names.map Text.literal) ++ "]",
      "data: Union[" ++ ", ".intercalate names ++ "]", ""] ++ envelopeMethods.take 3,
      Run [] [text] text := by
    refine List.forall_mem_append.2 ⟨?_, hmethods⟩
    refine runs_cons rfl ?_
    refine List.forall_mem_cons.2 ⟨?_, List.forall_mem_cons.2 ⟨?_, runs_cons rfl runs_nil⟩⟩
    · rw [String.append_assoc]
      exact .fixed (.text (run_fixed rfl) htags (clear_cons rfl _)) rfl
    · rw [String.append_assoc]
      exact .fixed (.text (run_fixed rfl) hvariants (clear_cons rfl _)) rfl
  have hdecode : ∀ text ∈ (envelopeMethods.drop 4).take 9, Run [] [text] text := by
    repeat refine runs_cons rfl ?_
    exact runs_nil
  have hwrap : ∀ text ∈ envelopeMethods.drop 14, Run [] [text] text := by
    repeat refine runs_cons rfl ?_
    exact runs_nil
  have hsummary : Inert (Docstring.mk 1
      "Envelope over every event of this bounded context, tagged by type." []).content :=
    inert_ofList rfl
  refine isPart_blockPart (Stretch.sound_fixed rfl) hsummary (.inr ?_)
  have hend := (isPart_lines hwrap rfl (by simp) 1).documented wrappingDocstring
    (inert_ofList rfl) hdecode 1
  exact hend.documented decodingDocstring (inert_ofList rfl) hfields 1

theorem isPart_of_mem_envelopeParts {names : List String} (h : ∀ name ∈ names, Name.IsPlain name) :
    ∀ part ∈ envelopeParts names, IsPart part := by
  cases names with
  | nil => exact List.forall_mem_singleton.2 isPart_emptyEnvelope
  | cons name names =>
      exact List.forall_mem_cons.2
        ⟨isPart_registry h, List.forall_mem_singleton.2 (isPart_envelope h)⟩

theorem isPart_metadata : IsPart metadataPart := by
  have hhead : ∀ text ∈ metadataType.take 1, Run [] [text] text := runs_cons rfl runs_nil
  have hbody : ∀ text ∈ metadataType.drop 2, Run [] [text] text := by
    repeat refine runs_cons rfl ?_
    exact runs_nil
  exact (isPart_lines hbody rfl (by simp) 0).documented metadataDocstring (inert_ofList rfl)
    hhead 0

theorem isPart_subscription : IsPart subscriptionPart := by
  have hhead : ∀ text ∈ subscriptionType.take 1, Run [] [text] text := runs_cons rfl runs_nil
  have hbody : ∀ text ∈ subscriptionType.drop 2, Run [] [text] text := by
    repeat refine runs_cons rfl ?_
    exact runs_nil
  exact (isPart_lines hbody rfl (by simp) 0).documented subscriptionDocstring (inert_ofList rfl)
    hhead 0

/-- The lines of a subscription between its brackets. -/
theorem inline_of_mem_subscriptionLines (s : Subscription) :
    ∃ texts, subscriptionLines s = "    ExternalEventSubscription(" :: (texts ++ ["    ),"]) ∧
      ∀ text ∈ texts, Inline text := by
  have hkey {key : String} (hfree : Text.Free isLexical key) (value : String) :
      Inline (key ++ Text.literal value ++ ",") := by
    rw [String.append_assoc]
    exact inline_append_of_free hfree ((inline_literal value).append (inline_ofList rfl)
      (.inr (clear_cons rfl _)))
  unfold subscriptionLines
  split
  · refine ⟨_, rfl, ?_⟩
    iterate 2 refine List.forall_mem_cons.2 ⟨hkey (Text.free_ofList rfl) _, ?_⟩
    exact List.forall_mem_singleton.2 (hkey (Text.free_ofList rfl) _)
  · refine ⟨_, rfl, ?_⟩
    iterate 2 refine List.forall_mem_cons.2 ⟨hkey (Text.free_ofList rfl) _, ?_⟩
    exact List.forall_mem_singleton.2 (hkey (Text.free_ofList rfl) _)
  · refine ⟨[_, _, _, _], rfl, ?_⟩
    iterate 3 refine List.forall_mem_cons.2 ⟨hkey (Text.free_ofList rfl) _, ?_⟩
    exact List.forall_mem_singleton.2 (hkey (Text.free_ofList rfl) _)

theorem run_subscriptions (subscriptions : List Subscription) {lines : List String} {code : String}
    (h : Run [')'] lines code) :
    Run [')'] (subscriptions.flatMap subscriptionLines ++ lines)
      (String.join (subscriptions.flatMap subscriptionLines) ++ code) := by
  induction subscriptions with
  | nil => simpa using h
  | cons s subscriptions ih =>
      obtain ⟨texts, htexts, hinline⟩ := inline_of_mem_subscriptionLines s
      -- Two brackets are open within an entry, its own and that of the list.
      have hclosing : Run [')', ')'] ("    )," :: _) ("    )," ++ _) := ih.fixedLine rfl (by simp)
      have hrun : Run [')'] ("    ExternalEventSubscription(" :: _)
          ("    ExternalEventSubscription(" ++ _) :=
        (hclosing.inner (by simp) hinline).fixedLine rfl (by simp)
      rw [List.flatMap_cons, htexts]
      simpa [String.append_assoc] using hrun

theorem isPart_subscriptionList (subscriptions : List Subscription) :
    IsPart [.joined (subscriptionListLines subscriptions)] := by
  cases subscriptions with
  | nil =>
      refine @isPart_joined [] _ ?_ (by simp) (oneLine_ofList (by decide))
      rw [List.nil_append, String.join_cons, String.join_nil, String.append_empty]
      exact run_fixed rfl
  | cons s subscriptions =>
      have hclosing : Run [')'] [")"] ")" := run_fixed rfl
      have hrun := run_subscriptions (s :: subscriptions) hclosing
      refine isPart_joined ?_ (by simp) (by decide)
      rw [List.append_assoc, List.singleton_append, String.join_cons, String.join_append,
        String.join_cons, String.join_nil, String.append_empty]
      exact hrun.fixedLine rfl (by simp)

theorem isPart_eventType {m : Model}
    (h : ∀ text ∈ shownTypes m, Contained ((Scope.ofModel m).meaning text))
    {entry : String × Event} (hentry : entry ∈ m.events.sorted) :
    IsPart (eventType (Scope.ofModel m) entry.1 entry.2).part := by
  have hkept : ∀ p ∈ keptPayload entry.2, Contained ((Scope.ofModel m).meaning p.typeText) :=
    fun p hp => h _ (List.mem_flatMap.2 ⟨entry, hentry, List.mem_map_of_mem hp⟩)
  refine EventType.isPart_part (Name.isPlain_pascal entry.1)
    (Docstring.inert_content ?_ (Commands.inert_aggregateLines _)) (isPart_fields hkept) ?_
  · unfold eventType
    dsimp only
    exact inert_described (by decide) _ entry.1
  · intro d hd
    rcases List.mem_append.1 hd with hd | hd
    · split at hd
      · rw [List.mem_singleton.1 hd]
        exact ⟨by decide, inline_ofList rfl, rfl⟩
      · cases hd
    · obtain ⟨p, hp, rfl⟩ := List.mem_map.1 hd
      have hname := isWord_member p.name
      have hhint := (Scope.contained_hint (hkept p hp)).inline
      unfold Scope.parameter Declaration.bare
      generalize Name.member p.name = name at hname ⊢
      exact ⟨hname, hhint, rfl⟩

theorem isPart_imports : IsPart (importPart imports) :=
  isPart_importPart (by decide) (by decide)

theorem inert_title (m : Model) : Inert (sourceModule m).title :=
  (Inert.append (inert_ofList rfl) (inert_docLine _)).append (inert_ofList rfl)

theorem map_partText_parts (m : Model) : (parts m).map partText = (sourceModule m).blocks := by
  have htypes : ((types m).map EventType.part).map partText = (types m).map EventType.block := by
    rw [List.map_map]
    exact List.map_congr_left fun t _ => t.partText_part
  have hnow : partText (Stretch.lines 0 utcNow) = joinLines utcNow := by
    rw [partText, Stretch.flatMap_source_lines, indentBy_zero]
  simp only [parts, List.map_append, htypes, map_partText_envelopeParts, List.map_cons,
    List.map_nil, hnow, partText_metadataPart, partText_subscriptionPart, partText_joined,
    joinLines_subscriptionListLines]
  rfl

/-- The events module is made of its parts if the types it shows are contained. -/
theorem madeOf_parts {m : Model}
    (h : ∀ text ∈ shownTypes m, Contained ((Scope.ofModel m).meaning text)) :
    (sourceModule m).MadeOf ((sourceModule m).allParts (parts m)) := by
  have hnames : ∀ name ∈ (types m).map EventType.name, Name.IsPlain name := by
    intro name hname
    obtain ⟨t, ht, rfl⟩ := List.mem_map.1 hname
    obtain ⟨entry, -, rfl⟩ := List.mem_map.1 ht
    exact Name.isPlain_pascal entry.1
  refine SourceModule.madeOf_allParts (inert_title m) isPart_imports (map_partText_parts m)
    (fun part hpart => ?_)
  simp only [parts, List.mem_append, List.mem_cons, List.not_mem_nil, or_false,
    List.mem_map] at hpart
  rcases hpart with ((rfl | ⟨t, ht, rfl⟩) | hpart) | rfl | rfl | rfl
  · exact isPart_utcNow
  · obtain ⟨entry, hentry, rfl⟩ := List.mem_map.1 ht
    exact isPart_eventType h hentry
  · exact isPart_of_mem_envelopeParts hnames part hpart
  · exact isPart_metadata
  · exact isPart_subscription
  · exact isPart_subscriptionList m.subscriptions

theorem flatMap_strings_parts (m : Model) :
    ((sourceModule m).allParts (parts m)).flatMap (fun part => part.flatMap Stretch.strings) =
      (docstrings m).map Docstring.content := by
  have htype (t : EventType) :
      t.part.flatMap Stretch.strings = t.docstrings.map Docstring.content := by
    simp [EventType.part, EventType.docstrings, Stretch.line, Stretch.doc,
      Declaration.flatMap_strings_stretches]
  have henvelope (names : List String) :
      (envelopeParts names).flatMap (fun part => part.flatMap Stretch.strings) =
        (envelopeDocstrings names).map Docstring.content := by
    cases names with
    | nil => simp [envelopeParts, envelopeDocstrings, emptyEnvelopePart, Stretch.doc]
    | cons name names =>
        simp [envelopeParts, envelopeDocstrings, envelopePart, Stretch.joined, Stretch.line,
          Stretch.doc]
  simp [SourceModule.allParts, parts, docstrings, htype, henvelope, metadataPart, subscriptionPart,
    SourceModule.flatMap_strings_importPart, Stretch.doc, Stretch.joined, List.flatMap_map,
    List.map_flatMap]

end Events

/-! ### Routes -/

namespace Routes

@[simp] theorem method_route (method : Method) (name : String) :
    (route method name).method = method := by
  simp only [route]

@[simp] theorem title_route (method : Method) (name : String) :
    (route method name).title = Name.pascal name := by
  simp only [route]

@[simp] theorem path_route (method : Method) (name : String) :
    (route method name).path = Name.routePath name := by
  simp only [route]

@[simp] theorem handler_route (method : Method) (name : String) :
    (route method name).handler = Name.routeHandler name := by
  simp only [route]

@[simp] theorem name_commandRoute (name : String) (c : Command) :
    (commandRoute name c).name = Name.routeHandler name := by
  simp only [commandRoute]

@[simp] theorem name_queryRoute (s : Scope) (name : String) (q : Query) :
    (queryRoute s name q).name = Name.routeHandler name := by
  simp only [queryRoute]

def errorBodyDocstring : Docstring :=
  ⟨1, "Error body returned by every failing route.", []⟩

def successDocstring : Docstring :=
  ⟨1, "Success envelope returned by every route.", []⟩

/-- The docstring of a function that serves a command. -/
def CommandRoute.docstring (r : CommandRoute) : Docstring :=
  ⟨1, r.summary, r.details⟩

/-- The docstring of a function that serves a query. -/
def QueryRoute.docstring (r : QueryRoute) : Docstring :=
  ⟨1, r.summary, r.details⟩

def routerDocstring : Docstring :=
  ⟨1, "Router with one POST route per command and one GET route per query.", []⟩

/-- The docstrings of the routes module. -/
def docstrings (m : Model) : List Docstring :=
  [(sourceModule m).docstring, errorBodyDocstring, successDocstring] ++
    (commandRoutes m).map CommandRoute.docstring ++ (queryRoutes m).map QueryRoute.docstring ++
    [routerDocstring]

def answerPart : List Stretch :=
  Stretch.lines 0 (answerTypes.take 1) ++ (.doc errorBodyDocstring ::
    (Stretch.lines 0 ((answerTypes.drop 2).take 6) ++ (.doc successDocstring ::
      Stretch.lines 0 (answerTypes.drop 9))))

/-- The answer to a command that is not valid. -/
def rejection : List String := [
  "        return JSONResponse(",
  "            status_code=status.HTTP_400_BAD_REQUEST,",
  "            content=ApiError(code=\"VALIDATION_ERROR\", message=exc.message).model_dump(),",
  "        )"]

/-- The comments on what is left to do for a command. -/
def commandRemarks : List String := [
  "# Load the aggregate from the repository",
  "# Execute the command through the CommandHandler",
  "# Append the produced events to the event store",
  "# Publish the produced events"]

def CommandRoute.part (r : CommandRoute) : List Stretch :=
  blockPart (.line ("async def " ++ r.name ++ "(payload: " ++ r.commandName ++ "):")) r.summary
    r.details
    (Stretch.lines 1 ["try:", "    payload.validate()", "except CommandError as exc:"] ++
      (.joined rejection :: (Stretch.lines 1 [""] ++ (Stretch.remarks 1 commandRemarks ++
        Stretch.lines 1
          ["return ApiResponse(data=\x7b\"message\": \"Command executed successfully\"\x7d)"]))))

def QueryRoute.part (r : QueryRoute) : List Stretch :=
  blockPart (.joined r.signature) r.summary r.details
    (Stretch.remarks 1 r.remarks ++
      Stretch.lines 1 ["return ApiResponse(data=\x7b\"message\": \"Query result\"\x7d)"])

def routerPart (routes : List Route) : List Stretch :=
  blockPart (.line "def create_router() -> APIRouter:") routerDocstring.summary []
    (Stretch.lines 1 ["router = APIRouter()"] ++
      (routes.map (fun r => Stretch.joined (indent r.registration)) ++
        Stretch.lines 1 ["return router"]))

/-- The parts of the routes module below its imports. -/
def parts (m : Model) : List (List Stretch) :=
  [answerPart] ++ (commandRoutes m).map CommandRoute.part ++ (queryRoutes m).map QueryRoute.part ++
    [routerPart (table m)]

/-! #### Source -/

theorem partText_answerPart : partText answerPart = joinLines answerTypes := by
  unfold partText answerPart
  simp [Stretch.doc, errorBodyDocstring, successDocstring, Docstring.lines, Source.docstring,
    indentBy, tripleQuote, padding, answerTypes]

theorem CommandRoute.partText_part (r : CommandRoute) : partText r.part = r.block := by
  have hrejection : (Stretch.joined rejection).source = indentBy 1 [
      "    return JSONResponse(",
      "        status_code=status.HTTP_400_BAD_REQUEST,",
      "        content=ApiError(code=\"VALIDATION_ERROR\", message=exc.message).model_dump(),",
      "    )"] := by
    simp [Stretch.joined, rejection, indentBy, padding]
  have hmarks : ∀ remark ∈ commandRemarks, remark.toList.head? = some '#' := by
    simp [commandRemarks]
  unfold part block
  refine partText_blockPart _ _ _ ?_
  simp only [List.flatMap_append, List.flatMap_cons, Stretch.flatMap_source_lines, hrejection,
    Stretch.flatMap_source_remarks hmarks, ← indentBy_append]
  rfl

theorem QueryRoute.partText_part {r : QueryRoute}
    (hremarks : ∀ remark ∈ r.remarks, remark.toList.head? = some '#') :
    partText r.part = r.block := by
  unfold part block
  rw [List.append_assoc]
  refine partText_blockPart _ _ _ ?_
  rw [List.flatMap_append, Stretch.flatMap_source_remarks hremarks, Stretch.flatMap_source_lines,
    ← indentBy_append]
  rfl

theorem partText_routerPart (routes : List Route) :
    partText (routerPart routes) = router routes := by
  have hroutes : (routes.map fun r => Stretch.joined (indent r.registration)).flatMap
      Stretch.source = indentBy 1 (routes.flatMap Route.registration) := by
    rw [List.flatMap_map, indentBy, List.map_flatMap]
    rfl
  unfold routerPart router
  rw [List.append_assoc, List.append_assoc]
  refine partText_blockPart _ _ _ ?_
  rw [List.flatMap_append, List.flatMap_append, hroutes, Stretch.flatMap_source_lines,
    Stretch.flatMap_source_lines, ← indentBy_append, ← indentBy_append]
  rfl

/-! #### Soundness -/

theorem isPart_answers : IsPart answerPart := by
  have hhead : ∀ text ∈ answerTypes.take 1, Run [] [text] text := runs_cons rfl runs_nil
  have herror : ∀ text ∈ (answerTypes.drop 2).take 6, Run [] [text] text := by
    repeat refine runs_cons rfl ?_
    exact runs_nil
  have hsuccess : ∀ text ∈ answerTypes.drop 9, Run [] [text] text :=
    runs_cons rfl (runs_cons rfl runs_nil)
  have hend := (isPart_lines hsuccess rfl (by simp) 0).documented successDocstring
    (inert_ofList rfl) herror 0
  exact hend.documented errorBodyDocstring (inert_ofList rfl) hhead 0

theorem sound_rejection : (Stretch.joined rejection).Sound := by
  unfold Stretch.joined rejection
  refine Stretch.sound_of_run ?_
  rw [String.join_cons, String.join_cons, String.join_cons, String.join_cons, String.join_nil,
    String.append_empty]
  refine @Run.fixedLine [] [')'] _ _ _ ?_ rfl (by simp)
  refine @Run.fixedLine [')'] [')'] _ _ _ ?_ rfl (by simp)
  refine @Run.fixedLine [')'] [')'] _ _ _ ?_ rfl (by simp)
  exact run_fixed rfl

theorem CommandRoute.isPart_part {r : CommandRoute} (hname : Name.IsPlain r.name)
    (hcommand : Name.IsPlain r.commandName) (hdoc : Inert r.docstring.content) :
    IsPart r.part := by
  have hhead : Run [] ["async def " ++ r.name ++ "(payload: " ++ r.commandName ++ "):"]
      ("async def " ++ r.name ++ "(payload: " ++ r.commandName ++ "):") := by
    simp only [String.append_assoc]
    exact .fixed (.text (.fixed (.text (run_fixed rfl) (inline_of_isPlain hcommand)
      (clear_cons rfl _)) rfl) (inline_of_isPlain hname) (clear_ofList rfl)) rfl
  have htry : ∀ text ∈ ["try:", "    payload.validate()", "except CommandError as exc:"],
      Run [] [text] text := by
    repeat refine runs_cons rfl ?_
    exact runs_nil
  have hremarks : ∀ remark ∈ commandRemarks,
      remark.toList.head? = some '#' ∧ Unbroken remark := by
    decide
  have hreturn : ∀ text ∈
      ["return ApiResponse(data=\x7b\"message\": \"Command executed successfully\"\x7d)"],
      Run [] [text] text := runs_cons rfl runs_nil
  refine isPart_blockPart (Stretch.sound_line hhead) hdoc (.inr ?_)
  have hspace : ∀ text ∈ [""], Run [] [text] text := runs_cons rfl runs_nil
  have hend := ((isPart_lines hreturn rfl (by simp) 1).prepend
    (Stretch.sound_remarks hremarks 1)).prepend (Stretch.sound_lines hspace 1)
  exact (hend.prepend (List.forall_mem_singleton.2 sound_rejection)).prepend
    (Stretch.sound_lines htry 1)

theorem QueryRoute.run_signature {r : QueryRoute} (hname : Name.IsPlain r.name)
    (hparameters : ∀ p ∈ r.parameters, Inline p.line) :
    Run [] r.signature (String.join r.signature) := by
  have hinline := inline_of_isPlain hname
  unfold signature
  cases hlist : r.parameters with
  | nil =>
      have hrun : Run [] ["async def " ++ (r.name ++ "():")] ("async def " ++ (r.name ++ "():")) :=
        .fixed (.text (run_fixed rfl) hinline (clear_cons rfl _)) rfl
      simpa [String.append_assoc] using hrun
  | cons p parameters =>
      have hlines : ∀ text ∈ (p :: parameters).map fun p => "    " ++ p.line ++ ",",
          Inline text := by
        intro text htext
        obtain ⟨parameter, hparameter, rfl⟩ := List.mem_map.1 htext
        rw [String.append_assoc]
        exact inline_append_of_free (Text.free_ofList rfl)
          ((hparameters parameter (hlist ▸ hparameter)).append (inline_ofList rfl)
            (.inr (clear_cons rfl _)))
      have hclosing : Run [')'] ["):"] "):" := run_fixed rfl
      have hopening : Run [] ("(" :: _) ("(" ++ _) :=
        (hclosing.inner (by simp) hlines).fixedLine rfl (by simp)
      have hrun : Run [] (("async def " ++ _) :: _) ("async def " ++ _) :=
        (hopening.text hinline (clear_cons rfl _)).fixed rfl
      simpa [String.append_assoc] using hrun

theorem QueryRoute.sound_or_doc {r : QueryRoute} (hname : Name.IsPlain r.name)
    (hparameters : ∀ p ∈ r.parameters, Inline p.line)
    (hremarks : ∀ remark ∈ r.remarks, remark.toList.head? = some '#' ∧ Unbroken remark) :
    Solid (r.part.flatMap Stretch.source) ∧
      ∀ s ∈ r.part, s.Sound ∨ s = .doc r.docstring := by
  have hreturn : ∀ text ∈ ["return ApiResponse(data=\x7b\"message\": \"Query result\"\x7d)"],
      Run [] [text] text := runs_cons rfl runs_nil
  have hbody := (isPart_lines hreturn rfl (by simp) 1).prepend (Stretch.sound_remarks hremarks 1)
  unfold part blockPart
  constructor
  · rw [List.flatMap_cons, List.flatMap_cons]
    exact (hbody.1.append _).append _
  · refine List.forall_mem_cons.2 ⟨.inl (Stretch.sound_of_run (run_signature hname hparameters)),
      List.forall_mem_cons.2 ⟨.inr rfl, fun s hs => .inl (hbody.2 s hs)⟩⟩

/-- The arguments of a registration, between its brackets. -/
theorem inline_arguments {r : Route} (hhandler : Name.IsPlain r.handler) :
    ∀ line ∈ r.registration.dropLast.tail, Inline line := by
  have hcomma {text : String} (htext : Inline text) : Inline (text ++ ",") :=
    htext.append (inline_ofList rfl) (.inr (clear_cons rfl _))
  have hpath : Inline ("    " ++ Text.literal r.path ++ ",") :=
    hcomma (inline_append_of_free (Text.free_ofList rfl) (inline_literal r.path))
  have hserved : Inline ("    " ++ r.handler ++ ",") :=
    hcomma (inline_append_of_free (Text.free_ofList rfl) (inline_of_isPlain hhandler))
  have hmethods : Inline ("    methods=[" ++ Text.literal r.method.name ++ "],") := by
    have hlist : Inline ("    methods=[" ++ Text.literal r.method.name ++ "]") :=
      (inline_literal r.method.name).enclose "    methods=" '[' (Text.free_ofList rfl) rfl rfl
        (by simp)
    have hall := hcomma hlist
    rwa [String.append_assoc] at hall
  have hmodel : Inline "    response_model=ApiResponse," := inline_ofList rfl
  have hresponses : Inline "    responses=\x7b400: \x7b\"model\": ApiError\x7d\x7d," :=
    inline_fixed rfl
  intro line hline
  unfold Route.registration at hline
  cases hmethod : r.method with
  | post =>
      -- A command can be refused, so that its registration has one argument more.
      rw [hmethod] at hline hmethods
      simp only [List.cons_append, List.nil_append, List.dropLast_cons_cons,
        List.dropLast_singleton, List.tail_cons, List.mem_cons, List.not_mem_nil,
        or_false] at hline
      rcases hline with rfl | rfl | rfl | rfl | rfl
      · exact hpath
      · exact hserved
      · exact hmethods
      · exact hmodel
      · exact hresponses
  | get =>
      rw [hmethod] at hline hmethods
      simp only [List.cons_append, List.nil_append, List.dropLast_cons_cons,
        List.dropLast_singleton, List.tail_cons, List.mem_cons, List.not_mem_nil,
        or_false] at hline
      rcases hline with rfl | rfl | rfl | rfl
      · exact hpath
      · exact hserved
      · exact hmethods
      · exact hmodel

theorem sound_registration {r : Route} (hhandler : Name.IsPlain r.handler) :
    (Stretch.joined (indent r.registration)).Sound := by
  have hsplit : indent r.registration = "    router.add_api_route(" ::
      (indent r.registration.dropLast.tail ++ ["    )"]) := by
    cases hmethod : r.method <;> simp [Route.registration, hmethod, indent, indentBy, padding]
  have hclosing : Run [')'] ["    )"] "    )" := run_fixed rfl
  have hrun := hclosing.inner (by simp) (inline_indent (inline_arguments hhandler))
  refine Stretch.sound_of_run ?_
  rw [hsplit, String.join_cons, String.join_append, String.join_cons, String.join_nil,
    String.append_empty]
  exact hrun.fixedLine rfl (by simp)

theorem isPart_router {routes : List Route} (h : ∀ r ∈ routes, Name.IsPlain r.handler) :
    IsPart (routerPart routes) := by
  have hcreate : ∀ text ∈ ["router = APIRouter()"], Run [] [text] text := runs_cons rfl runs_nil
  have hreturn : ∀ text ∈ ["return router"], Run [] [text] text := runs_cons rfl runs_nil
  have hsummary : Inert routerDocstring.content := inert_ofList rfl
  refine isPart_blockPart (Stretch.sound_fixed rfl) hsummary (.inr ?_)
  refine ((isPart_lines hreturn rfl (by simp) 1).prepend fun s hs => ?_).prepend
    (Stretch.sound_lines hcreate 1)
  obtain ⟨r, hr, rfl⟩ := List.mem_map.1 hs
  exact sound_registration (h r hr)

theorem CommandRoute.inert_docstring {m : Model} {r : CommandRoute} (h : r ∈ commandRoutes m) :
    Inert r.docstring.content := by
  obtain ⟨⟨name, c⟩, -, rfl⟩ := List.mem_map.1 h
  refine Docstring.inert_content ?_ (Commands.inert_producesLines c.produces)
  unfold CommandRoute.docstring commandRoute
  dsimp only
  exact inert_performed (by decide) (by decide) _ name

/-- The line of a parameter is inline, because only primitive types are bound. -/
theorem inline_parameter {s : Scope} {p : Property} (h : isBound p = true) :
    Inline (parameter s p).line := by
  have hname := isWord_field p.name
  have hhint : Contained (s.hint p) := by
    have htarget : Contained (s.target p.typeText) :=
      (TypeExpr.fromPrimitive_targetWith h _).contained
    unfold Scope.hint
    split
    · exact htarget
    · exact contained_optional htarget
  have hlabels : ∀ a ∈ Scope.labels (Name.field p.name) p, a.All Expr.Worded := fun a ha =>
    Scope.all_of_mem_labels (fun t type name hmember => by cases hmember) ha
  unfold parameter
  generalize Name.field p.name = name at hname hlabels ⊢
  refine Declaration.inline_line hname hhint.inline
    ⟨by decide, List.forall_mem_cons.2 ⟨?_, hlabels⟩⟩
  exact Argument.all_positional fun type name hmember => by cases hmember

theorem of_mem_queryRemarks {parameters : List Property} :
    ∀ remark ∈ parameters.map unboundRemark,
      remark.toList.head? = some '#' ∧ Unbroken remark := by
  intro remark hremark
  obtain ⟨p, -, rfl⟩ := List.mem_map.1 hremark
  unfold unboundRemark
  refine ⟨by simp, ?_⟩
  exact (Text.Free.append (Text.free_ofList rfl) (unbroken_flatten _)).append (Text.free_ofList rfl)

theorem isPart_imports : IsPart (importPart imports) :=
  isPart_importPart (by decide) (by decide)

theorem isPart_commandRoute {m : Model} {r : CommandRoute} (h : r ∈ commandRoutes m) :
    IsPart r.part := by
  have hdoc := CommandRoute.inert_docstring h
  obtain ⟨entry, -, rfl⟩ := List.mem_map.1 h
  refine CommandRoute.isPart_part ?_ ?_ hdoc
  · rw [name_commandRoute]
    exact Name.isPlain_routeHandler entry.1
  · unfold commandRoute
    exact Name.isPlain_pascal entry.1

theorem sound_or_doc_queryRoute {m : Model} {r : QueryRoute} (h : r ∈ queryRoutes m) :
    Solid (r.part.flatMap Stretch.source) ∧ ∀ s ∈ r.part, s.Sound ∨ s = .doc r.docstring := by
  obtain ⟨entry, -, rfl⟩ := List.mem_map.1 h
  refine QueryRoute.sound_or_doc ?_ (fun p hp => ?_) of_mem_queryRemarks
  · rw [name_queryRoute]
    exact Name.isPlain_routeHandler entry.1
  · obtain ⟨property, hproperty, rfl⟩ := List.mem_map.1 hp
    exact inline_parameter (List.mem_filter.1 hproperty).2

theorem isPart_routerPart (m : Model) : IsPart (routerPart (table m)) := by
  refine isPart_router fun r hr => ?_
  rcases List.mem_append.1 hr with hr | hr
  · obtain ⟨name, -, rfl⟩ := List.mem_map.1 hr
    rw [handler_route]
    exact Name.isPlain_routeHandler name
  · obtain ⟨name, -, rfl⟩ := List.mem_map.1 hr
    rw [handler_route]
    exact Name.isPlain_routeHandler name

theorem map_partText_parts (m : Model) : (parts m).map partText = (sourceModule m).blocks := by
  have hcommands : ((commandRoutes m).map CommandRoute.part).map partText =
      (commandRoutes m).map CommandRoute.block := by
    rw [List.map_map]
    exact List.map_congr_left fun r _ => r.partText_part
  have hqueries : ((queryRoutes m).map QueryRoute.part).map partText =
      (queryRoutes m).map QueryRoute.block := by
    rw [List.map_map]
    refine List.map_congr_left fun r hr => QueryRoute.partText_part fun remark hremark => ?_
    obtain ⟨entry, -, rfl⟩ := List.mem_map.1 hr
    exact (of_mem_queryRemarks remark hremark).1
  simp only [parts, List.map_append, List.map_singleton, hcommands, hqueries, partText_answerPart,
    partText_routerPart]
  rfl

theorem flatMap_strings_parts (m : Model) :
    ((sourceModule m).allParts (parts m)).flatMap (fun part => part.flatMap Stretch.strings) =
      (docstrings m).map Docstring.content := by
  have hcommand (r : CommandRoute) :
      r.part.flatMap Stretch.strings = [r.docstring.content] := by
    simp [CommandRoute.part, CommandRoute.docstring, Stretch.line, Stretch.joined]
  have hquery (r : QueryRoute) : r.part.flatMap Stretch.strings = [r.docstring.content] := by
    simp [QueryRoute.part, QueryRoute.docstring, Stretch.joined]
  have hrouter (routes : List Route) :
      (routerPart routes).flatMap Stretch.strings = [routerDocstring.content] := by
    simp [routerPart, routerDocstring, Stretch.line, Stretch.joined, List.flatMap_map]
  simp [SourceModule.allParts, parts, docstrings, answerPart, hcommand, hquery, hrouter,
    SourceModule.flatMap_strings_importPart, Stretch.doc, List.flatMap_map, ← List.map_eq_flatMap,
    Function.comp_def]

theorem inert_title (m : Model) : Inert (sourceModule m).title :=
  (Inert.append (inert_ofList rfl) (inert_docLine _)).append (inert_ofList rfl)

/-- Every stretch of the routes module is sound but, perhaps, for the docstrings of queries. -/
theorem sound_or_doc_parts (m : Model) :
    ∀ part ∈ (sourceModule m).allParts (parts m), Solid (part.flatMap Stretch.source) ∧
      ∀ s ∈ part, s.Sound ∨ ∃ r ∈ queryRoutes m, s = .doc r.docstring := by
  have hpart {part : List Stretch} (h : IsPart part) : Solid (part.flatMap Stretch.source) ∧
      ∀ s ∈ part, s.Sound ∨ ∃ r ∈ queryRoutes m, s = .doc r.docstring :=
    ⟨h.1, fun s hs => .inl (h.2 s hs)⟩
  refine List.forall_mem_cons.2 ⟨hpart (isPart_doc (SourceModule.inert_docstring (inert_title m))),
    List.forall_mem_cons.2 ⟨hpart isPart_imports, fun part hmem => ?_⟩⟩
  simp only [parts, List.mem_append, List.mem_singleton, List.mem_map] at hmem
  rcases hmem with ((rfl | ⟨r, hr, rfl⟩) | ⟨r, hr, rfl⟩) | rfl
  · exact hpart isPart_answers
  · exact hpart (isPart_commandRoute hr)
  · obtain ⟨hsolid, hsound⟩ := sound_or_doc_queryRoute hr
    exact ⟨hsolid, fun s hs => (hsound s hs).imp_right fun heq => ⟨r, hr, heq⟩⟩
  · exact hpart (isPart_routerPart m)

/-- The routes module is made of its parts if the docstrings of queries are inert. -/
theorem madeOf_parts {m : Model} (h : ∀ r ∈ queryRoutes m, Inert r.docstring.content) :
    (sourceModule m).MadeOf ((sourceModule m).allParts (parts m)) := by
  refine ⟨(SourceModule.map_partText_allParts (map_partText_parts m)).symm, fun part hpart => ?_⟩
  obtain ⟨hsolid, hsound⟩ := sound_or_doc_parts m part hpart
  refine ⟨hsolid, fun s hs => ?_⟩
  rcases hsound s hs with hs | ⟨r, hr, rfl⟩
  · exact hs
  · exact Stretch.sound_doc (h r hr)

/-- The long strings of the routes module are its docstrings exactly if those of queries are
inert. -/
theorem longStrings?_text_iff (m : Model) :
    longStrings? (sourceModule m).text = some ((docstrings m).map Docstring.content) ↔
      ∀ r ∈ queryRoutes m, Inert r.docstring.content := by
  rw [← flatMap_strings_parts, SourceModule.longStrings?_text_iff
    (SourceModule.map_partText_allParts (map_partText_parts m)).symm
    (fun part hpart => (sound_or_doc_parts m part hpart).1)
    (fun part hpart s hs => ((sound_or_doc_parts m part hpart).2 s hs).imp_right
      fun ⟨r, _, heq⟩ => ⟨r.docstring, heq⟩)]
  constructor
  · intro h r hr
    have hpart : r.part ∈ (sourceModule m).allParts (parts m) := by
      refine List.mem_cons_of_mem _ (List.mem_cons_of_mem _ ?_)
      simp only [parts, List.mem_append, List.mem_map]
      exact .inl (.inr ⟨r, hr, rfl⟩)
    exact h r.part hpart r.docstring (.tail _ (.head _))
  · intro h part hpart d hd
    rcases (sound_or_doc_parts m part hpart).2 _ hd with hsound | ⟨r, hr, heq⟩
    · exact (Stretch.sound_doc_iff d).1 hsound
    · exact (Stretch.sound_doc_iff d).1 (heq ▸ Stretch.sound_doc (h r hr))

end Routes

end Groundplan
