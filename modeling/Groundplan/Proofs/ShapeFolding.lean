import Groundplan.Model.Decode
import Groundplan.Proofs.SettingsOverride

/-!
# Folding flat value objects

A flat value object gives its kind and the keys of its shape side by side. Folding it takes the keys
of one kind and leaves the others behind, so it must refuse a definition that says something under
one of the others. Two tests decide this, and they are not the same: a key is left behind if its
value is null, an empty list or an empty mapping, and a key is taken unless its value is null. What
matters is that no value fails both, so that nothing that is said gets lost.
-/

namespace Groundplan

/-! ### Values that say nothing -/

/-- The scalars that count as absent. -/
inductive Scalar.Falsy : Scalar → Prop
  | null : Falsy .null
  | no : Falsy (.bool false)
  | zero : Falsy (.int 0)
  | floatZero (negative : Bool) (exponent : Int) : Falsy (.float (.finite negative 0 exponent))
  | emptyText : Falsy (.str "")
  | emptyBytes : Falsy (.bytes [])

theorem Scalar.truthy_eq_false_iff (x : Scalar) : x.truthy = false ↔ x.Falsy := by
  constructor
  · intro h
    cases x with
    | null => exact .null
    | bool b =>
        cases h
        exact .no
    | int n =>
        obtain rfl : n = 0 := by simpa [truthy] using h
        exact .zero
    | float x =>
        cases x with
        | finite negative mantissa exponent =>
            obtain rfl : mantissa = 0 := by simpa [truthy, Double.isZero] using h
            exact .floatZero negative exponent
        | nan | infinite => cases h
    | str s =>
        obtain rfl : s = "" := by simpa [truthy] using h
        exact .emptyText
    | bytes bs =>
        obtain rfl : bs = [] := by simpa [truthy] using h
        exact .emptyBytes
    | date d => cases h
    | moment m => cases h
  · rintro (_ | _) <;> rfl

/-- Whether a value is null, an empty list or an empty mapping. -/
def Value.SaysNothing (value : Value) : Prop :=
  value.unfold = .scalar .null ∨ value.unfold = .list [] ∨ value.unfold = .map []

theorem Value.saysNothing_of_isNull {value : Value} (h : value.isNull = true) :
    value.SaysNothing := by
  unfold isNull at h
  split at h
  · exact .inl rfl
  · cases h

namespace FoldedShape

theorem isVoid_iff (value : Value) : isVoid value = true ↔ value.SaysNothing := by
  unfold isVoid Value.SaysNothing
  split <;> simp_all

/-! ### The kind of a definition -/

/-- The kind that a definition names: its type is the name of the kind, or it is absent or falsy and
the kind is that of records. -/
inductive NamesKind (e : Entries) : ShapeKind → Prop
  | absent (h : e.get? "type" = none) : NamesKind e .record
  | falsy {x : Scalar} (h : e.get? "type" = some (.scalar x)) (hx : x.Falsy) : NamesKind e .record
  | named {kind : ShapeKind} (h : e.get? "type" = some (.str kind.name)) : NamesKind e kind

/-- A flat definition: a mapping without a shape, whose type is a scalar if it has one. -/
structure IsFlat (value : Value) (e : Entries) : Prop where
  entries : value.entries? = some e
  shapeless : e.has "shape" = false
  scalarType : ∀ type, e.get? "type" = some type → ∃ x, type = .scalar x

theorem ofName?_eq_some_iff {name : String} {kind : ShapeKind} :
    ShapeKind.ofName? name = some kind ↔ name = kind.name := by
  constructor
  · intro h
    exact (by simpa using List.find?_some h : kind.name = name).symm
  · rintro rfl
    cases kind <;> decide

theorem kindOf_of_not_truthy {e : Entries} (h : ((e.get? "type").getD .null).truthy = false) :
    kindOf e = .ok .record := by
  simp [kindOf, h]

theorem kindOf_of_truthy {e : Entries} {x : Scalar} (htype : e.get? "type" = some (.scalar x))
    (hx : x.truthy = true) (kind : ShapeKind) : kindOf e = .ok kind ↔ x = .str kind.name := by
  have hvalue : (Value.scalar x).truthy = true := hx
  simp only [kindOf, htype, Option.getD_some, hvalue, if_true]
  cases hfound : (Value.scalar x).str?.bind ShapeKind.ofName? with
  | none =>
      simp only [reduceCtorEq, false_iff]
      rintro rfl
      have hnone := Option.bind_eq_none_iff.1 hfound kind.name rfl
      rw [ofName?_eq_some_iff.2 rfl] at hnone
      cases hnone
  | some found =>
      obtain ⟨name, hname, hkind⟩ := Option.bind_eq_some_iff.1 hfound
      obtain rfl := ofName?_eq_some_iff.1 hkind
      obtain rfl : x = .str found.name := by
        unfold Value.str? at hname
        split at hname
        next heq =>
          cases heq
          exact congrArg Scalar.str (Option.some.inj hname)
        next => cases hname
      simp only [Except.ok.injEq, Scalar.str.injEq]
      cases found <;> cases kind <;> decide

theorem kindOf_eq_ok_iff {value : Value} {e : Entries} (h : IsFlat value e) (kind : ShapeKind) :
    kindOf e = .ok kind ↔ NamesKind e kind := by
  cases htype : e.get? "type" with
  | none =>
      rw [kindOf_of_not_truthy (by rw [htype]; rfl)]
      constructor
      · intro heq
        cases heq
        exact .absent htype
      · rintro (_ | ⟨hfalsy, -⟩ | hname)
        · rfl
        · rfl
        · rw [htype] at hname
          cases hname
  | some type =>
      obtain ⟨x, rfl⟩ := h.scalarType type htype
      by_cases hx : x.truthy = true
      · rw [kindOf_of_truthy htype hx]
        constructor
        · rintro rfl
          exact .named htype
        · rintro (habsent | ⟨hfalsy, hscalar⟩ | hname)
          · rw [htype] at habsent
            cases habsent
          · rw [htype] at hfalsy
            cases hfalsy
            rw [(Scalar.truthy_eq_false_iff x).2 hscalar] at hx
            cases hx
          · rw [htype] at hname
            cases hname
            rfl
      · have hfalse : x.truthy = false := by simpa using hx
        rw [kindOf_of_not_truthy (by rw [htype]; exact hfalse)]
        constructor
        · intro heq
          cases heq
          exact .falsy htype ((Scalar.truthy_eq_false_iff x).1 hfalse)
        · rintro (_ | _ | hname)
          · rfl
          · rfl
          · -- The name of a kind is no empty text.
            rw [htype] at hname
            cases hname
            cases kind <;> cases hfalse

/-! ### Keys of other kinds -/

/-- Whether a definition says nothing under the keys of other kinds. -/
def KeepsTo (e : Entries) (kind : ShapeKind) : Prop :=
  ∀ other, other ≠ kind → ∀ key ∈ other.keys, ∀ value, e.get? key = some value → value.SaysNothing

theorem givenKeys_eq_nil_iff (e : Entries) (kind : ShapeKind) :
    givenKeys e kind = [] ↔
      ∀ key ∈ kind.keys, ∀ value, e.get? key = some value → value.SaysNothing := by
  simp only [givenKeys, List.filter_eq_nil_iff, Bool.not_eq_true', Bool.not_eq_false,
    Option.all_eq_true_iff_get, isVoid_iff]
  constructor
  · intro h key hkey value hvalue
    simpa [hvalue] using h key hkey (by simp [hvalue])
  · intro h key hkey hsome
    exact h key hkey _ (Option.some_get hsome).symm

theorem strayKeys?_eq_none_iff (e : Entries) (kind : ShapeKind) :
    strayKeys? e kind = none ↔ KeepsTo e kind := by
  have hall : ∀ other : ShapeKind, other ∈ ShapeKind.all := by
    intro other
    cases other <;> decide
  simp only [strayKeys?, List.findSome?_eq_none_iff, List.mem_filter, hall, true_and,
    decide_eq_true_eq]
  refine forall₂_congr fun other _ => ?_
  rw [← givenKeys_eq_nil_iff]
  split
  next hnil => simp [hnil]
  next hne => simpa using hne

/-! ### What is taken -/

/-- Whether folding takes all that is said under the keys of some kind, and only the keys of the
kind it folds into, each with its own value. -/
structure Carries (e : Entries) (folded : FoldedShape) : Prop where
  all : ∀ (kind : ShapeKind), ∀ key ∈ kind.keys, ∀ value, e.get? key = some value →
    ¬ value.SaysNothing → kind = folded.kind ∧ folded.parts.get? key = some value
  only : ∀ key value, folded.parts.get? key = some value →
    key ∈ folded.kind.keys ∧ e.get? key = some value

/-- A key of a kind with its value, unless that is null. -/
def partOf (e : Entries) (key : String) : Option (Scalar × Value) :=
  (e.get? key).bind fun value => if value.isNull then none else some (.str key, value)

theorem partOf_eq_some_iff {e : Entries} {key : String} {entry : Scalar × Value} :
    partOf e key = some entry ↔
      entry.1 = .str key ∧ e.get? key = some entry.2 ∧ entry.2.isNull = false := by
  obtain ⟨key', value⟩ := entry
  simp only [partOf, Option.bind_eq_some_iff]
  constructor
  · rintro ⟨found, hfound, hentry⟩
    split at hentry
    · cases hentry
    next hnull =>
      cases hentry
      exact ⟨rfl, hfound, by simpa using hnull⟩
  · rintro ⟨rfl, hvalue, hnull⟩
    exact ⟨value, hvalue, by simp [hnull]⟩

theorem get?_cons (key' : Scalar) (value : Value) (e : Entries) (key : String) :
    Entries.get? ((key', value) :: e) key = if key' = .str key then some value else e.get? key := by
  by_cases hkey : key' = .str key <;> simp [Entries.get?, hkey]

theorem get?_filterMap_partOf (e : Entries) (keys : List String) (key : String) (value : Value) :
    Entries.get? (keys.filterMap (partOf e)) key = some value ↔
      key ∈ keys ∧ e.get? key = some value ∧ value.isNull = false := by
  induction keys with
  | nil => simp [Entries.get?]
  | cons first keys ih =>
      rw [List.mem_cons]
      cases hpart : partOf e first with
      | none =>
          -- Nothing stands under the first key, so what is found is found further on.
          rw [List.filterMap_cons_none hpart, ih]
          refine ⟨fun h => ⟨.inr h.1, h.2⟩, fun h => ⟨h.1.resolve_left ?_, h.2⟩⟩
          rintro rfl
          have hfound : partOf e key = some (.str key, value) := partOf_eq_some_iff.2 ⟨rfl, h.2⟩
          rw [hfound] at hpart
          cases hpart
      | some entry =>
          obtain ⟨key', value'⟩ := entry
          obtain ⟨rfl, hvalue', hnull'⟩ := partOf_eq_some_iff.1 hpart
          rw [List.filterMap_cons_some hpart, get?_cons]
          by_cases hkey : first = key
          · subst hkey
            simp only [if_true, Option.some.injEq, true_or, true_and, hvalue']
            refine ⟨fun h => h ▸ ⟨rfl, hnull'⟩, fun h => h.1⟩
          · rw [if_neg (by simpa using hkey), ih]
            simp [Ne.symm hkey]

theorem get?_partsOf (e : Entries) (kind : ShapeKind) (key : String) (value : Value) :
    (partsOf e kind).get? key = some value ↔
      key ∈ kind.keys ∧ e.get? key = some value ∧ value.isNull = false :=
  get?_filterMap_partOf e kind.keys key value

/-- Folding gives the kind that is named with what is said under its keys, unless something is said
under the keys of another kind. -/
theorem fold_eq_ok_iff {value : Value} {e : Entries} (h : IsFlat value e) (folded : FoldedShape) :
    fold e = .ok folded ↔
      NamesKind e folded.kind ∧ KeepsTo e folded.kind ∧ folded.parts = partsOf e folded.kind := by
  rw [← kindOf_eq_ok_iff h, ← strayKeys?_eq_none_iff]
  obtain ⟨kind, parts⟩ := folded
  unfold fold
  cases hkind : kindOf e with
  | error fault => simp
  | ok found =>
      cases hstray : strayKeys? e found with
      | some stray =>
          simp only [hstray, reduceCtorEq, Except.ok.injEq, false_iff]
          rintro ⟨rfl, hnone, -⟩
          rw [hstray] at hnone
          cases hnone
      | none =>
          simp only [hstray, Except.ok.injEq, FoldedShape.mk.injEq]
          constructor
          · rintro ⟨rfl, rfl⟩
            exact ⟨rfl, hstray, rfl⟩
          · rintro ⟨rfl, -, rfl⟩
            exact ⟨rfl, rfl⟩

theorem carries_of_keepsTo {e : Entries} {kind : ShapeKind} (h : KeepsTo e kind) :
    Carries e ⟨kind, partsOf e kind⟩ where
  all := fun other key hkey value hvalue hsays => by
    have hkind : other = kind := by
      by_contra hne
      exact hsays (h other hne key hkey value hvalue)
    subst hkind
    refine ⟨rfl, (get?_partsOf e other key value).2 ⟨hkey, hvalue, ?_⟩⟩
    -- What is null says nothing: this is where the two tests meet.
    rw [← Bool.not_eq_true]
    exact fun hnull => hsays (Value.saysNothing_of_isNull hnull)
  only := fun key value hpart => by
    obtain ⟨hkey, hvalue, -⟩ := (get?_partsOf e kind key value).1 hpart
    exact ⟨hkey, hvalue⟩

/-! ### Decoding -/

/-- The kind of a shape. -/
def kindOfShape : Shape → ShapeKind
  | .record _ => .record
  | .enumeration _ => .enumeration
  | .identifier _ _ _ => .identifier

theorem kindOfShape_of_decode {kind : ShapeKind} {e : Entries} {shape : Shape}
    (h : kind.decode e = .good shape) : kindOfShape shape = kind := by
  cases kind with
  | record =>
      obtain ⟨properties, -, rfl⟩ := Checked.of_map_eq_good h
      rfl
  | enumeration =>
      obtain ⟨values, -, rfl⟩ := Checked.of_map_eq_good h
      rfl
  | identifier =>
      obtain ⟨withStart, start, hfirst, -, rfl⟩ := Checked.of_seq_eq_good h
      obtain ⟨withFormat, format, hsecond, -, rfl⟩ := Checked.of_seq_eq_good hfirst
      obtain ⟨underlying, -, rfl⟩ := Checked.of_map_eq_good hsecond
      rfl

theorem decode_of_fold_eq_error {value : Value} {e : Entries} (h : IsFlat value e)
    {fault : ShapeFault} (hfold : fold e = .error fault) :
    ValueObject.decode value = Checked.fault value (.refused fault.message) := by
  simp [ValueObject.decode, Lenient.record, h.entries, h.shapeless, hfold]

/-- The shape of a flat value object is decoded from what folding it gave. -/
theorem exists_fold_of_decode {value : Value} {e : Entries} (h : IsFlat value e)
    {object : ValueObject} (hdecode : ValueObject.decode value = .good object) :
    ∃ folded, fold e = .ok folded ∧ folded.kind.decode folded.parts = .good object.shape := by
  cases hfold : fold e with
  | error fault =>
      rw [decode_of_fold_eq_error h hfold] at hdecode
      cases hdecode
  | ok folded =>
      refine ⟨folded, rfl, ?_⟩
      simp only [ValueObject.decode, Lenient.record, h.entries, h.shapeless, hfold,
        Bool.false_eq_true, if_false] at hdecode
      obtain ⟨described, shape, hdescribed, hshape, rfl⟩ := Checked.of_seq_eq_good hdecode
      obtain ⟨named, description, hnamed, -, rfl⟩ := Checked.of_seq_eq_good hdescribed
      obtain ⟨name, -, rfl⟩ := Checked.of_map_eq_good hnamed
      exact Checked.of_within_eq_good (Checked.of_within_eq_good hshape)

/-- A flat definition is accepted exactly if its type is falsy or names a kind, and it says nothing
under the keys of other kinds. Folding it gives that kind, and carries all that it says under the
keys of any kind. What is not accepted is refused, and the shape of what is decoded comes from
nothing but the folded parts. -/
theorem fold_accepts_and_carries {value : Value} {e : Entries} (h : IsFlat value e) :
    ((∃ folded, fold e = .ok folded) ↔ ∃ kind, NamesKind e kind ∧ KeepsTo e kind) ∧
      (∀ folded, fold e = .ok folded → NamesKind e folded.kind ∧ Carries e folded) ∧
      (∀ fault, fold e = .error fault →
        ValueObject.decode value = Checked.fault value (.refused fault.message)) ∧
      ∀ object, ValueObject.decode value = .good object → ∃ folded, fold e = .ok folded ∧
        kindOfShape object.shape = folded.kind ∧
        folded.kind.decode folded.parts = .good object.shape := by
  refine ⟨⟨?_, ?_⟩, ?_, fun fault => decode_of_fold_eq_error h, ?_⟩
  · rintro ⟨folded, hfold⟩
    obtain ⟨hkind, hkeeps, -⟩ := (fold_eq_ok_iff h folded).1 hfold
    exact ⟨folded.kind, hkind, hkeeps⟩
  · rintro ⟨kind, hkind, hkeeps⟩
    exact ⟨⟨kind, partsOf e kind⟩, (fold_eq_ok_iff h _).2 ⟨hkind, hkeeps, rfl⟩⟩
  · rintro ⟨kind, parts⟩ hfold
    obtain ⟨hkind, hkeeps, hparts⟩ := (fold_eq_ok_iff h _).1 hfold
    simp only at hkind hkeeps hparts
    exact ⟨hkind, hparts ▸ carries_of_keepsTo hkeeps⟩
  · intro object hdecode
    obtain ⟨folded, hfold, hshape⟩ := exists_fold_of_decode h hdecode
    exact ⟨folded, hfold, kindOfShape_of_decode hshape, hshape⟩

/-- A flat enumeration with a value, and with a key of records that says nothing. -/
def flatStatus : Entries := [
  (.str "name", .str "Status"), (.str "type", .str "enum"),
  (.str "values", .list [.map [(.str "name", .str "open")]]), (.str "properties", .list [])]

/-- A status is folded into an enumeration, and carries its values. -/
theorem flatStatus_carries_values :
    IsFlat (.map flatStatus) flatStatus ∧ ∃ folded, fold flatStatus = .ok folded ∧
      folded.kind = .enumeration ∧ Carries flatStatus folded := by
  have hflat : IsFlat (.map flatStatus) flatStatus := by
    refine ⟨rfl, rfl, fun type htype => ⟨.str "enum", ?_⟩⟩
    exact (Option.some.inj htype).symm
  have hfold : fold flatStatus = .ok ⟨.enumeration, partsOf flatStatus .enumeration⟩ := rfl
  exact ⟨hflat, _, hfold, rfl, ((fold_accepts_and_carries hflat).2.1 _ hfold).2⟩

end FoldedShape

end Groundplan
