import InferenceGraph.Descriptor
import InferenceGraph.Proofs.Text.Utf8
import Mathlib.Data.List.TakeWhile

/-!
# Canonical descriptors

Some descriptors say the same: bytes after the end of a text, entries after the size of an array,
the array of an empty list and the value of a true word do not count. `canonical` drops what does
not count and nothing else. A descriptor of a builtin kind is read as the one primitive that is
written as its canonical form; there is one such law for each sort of field, and one for the whole.
-/

set_option autoImplicit false

namespace InferenceGraph

namespace PrimitiveId

theorem takeWhile_bytes (id : PrimitiveId) : id.bytes.takeWhile (· ≠ 0) = id.bytes := by
  rw [List.takeWhile_eq_self_iff]
  intro b hb
  have h0 := Text.Utf8.zero_notMem_encode id.no_zero
  simpa using fun hz : b = 0 => h0 (hz ▸ hb)

theorem ofBytes_eq_ok_iff {memory : List UInt8} {id : PrimitiveId} :
    ofBytes memory = .ok id ↔ id.bytes = memory.takeWhile (· ≠ 0) := by
  dsimp only [ofBytes]
  constructor
  · intro h
    split at h
    · next s hs =>
      rw [bytes, text_of_ofString h]
      exact Text.Utf8.decode?_eq_some_iff.1 hs
    · cases h
  · intro h
    have hs := Text.Utf8.decode?_eq_some_iff.2 h
    simp only [hs, ofString_text]

end PrimitiveId

def ForeignText.cut (text : ForeignText) : ForeignText := text.map (List.takeWhile (· ≠ 0))

def PrimitiveId.foreign (id : PrimitiveId) : ForeignText := some id.bytes

@[simp] theorem PrimitiveId.cut_foreign (id : PrimitiveId) : id.foreign.cut = id.foreign :=
  congrArg some id.takeWhile_bytes

@[simp] theorem ForeignText.cut_cut (text : ForeignText) : text.cut.cut = text.cut := by
  cases text with
  | none => rfl
  | some memory => exact congrArg some (List.takeWhile_idem ..)

theorem readId_eq_ok_iff {field : String} {text : ForeignText} {id : PrimitiveId} :
    readId field text = .ok id ↔ id.foreign = text.cut := by
  cases text with
  | none => simp [readId, PrimitiveId.foreign, ForeignText.cut]
  | some memory =>
    have hi : id.foreign = ForeignText.cut (some memory) ↔ PrimitiveId.ofBytes memory = .ok id := by
      rw [PrimitiveId.ofBytes_eq_ok_iff]
      exact Option.some_inj
    rw [hi, readId]
    cases PrimitiveId.ofBytes memory <;> simp

theorem readIdsFrom_eq_ok_iff {field : String} {place : Nat} {texts : List ForeignText}
    {ids : List PrimitiveId} : readIdsFrom field place texts = .ok ids ↔
      ids.map PrimitiveId.foreign = texts.map ForeignText.cut := by
  induction texts generalizing place ids with
  | nil => cases ids <;> simp [readIdsFrom]
  | cons text texts ih =>
    cases ids with
    | nil => simp [readIdsFrom, bind_eq_ok_iff]
    | cons id ids => simp [readIdsFrom, bind_eq_ok_iff, readId_eq_ok_iff, ih]

def canonicalTexts (texts : Option (List ForeignText)) (size : Nat) : Option (List ForeignText) :=
  if size = 0 then none else texts.map fun texts => (texts.take size).map ForeignText.cut

def foreignIds (ids : List PrimitiveId) : Option (List ForeignText) :=
  if ids = [] then none else some (ids.map PrimitiveId.foreign)

theorem readIds_eq_ok_iff {field : String} {texts : Option (List ForeignText)} {size : Nat}
    {ids : List PrimitiveId} : readIds field texts size = .ok ids ↔
      ids.length = size ∧ foreignIds ids = canonicalTexts texts size := by
  unfold readIds foreignIds canonicalTexts
  by_cases hs : size = 0
  · subst hs
    cases ids <;> simp
  rw [if_neg hs, if_neg hs]
  cases texts with
  | none =>
    cases ids with
    | nil => simp [Ne.symm hs]
    | cons id ids => simp
  | some texts =>
    dsimp only [Option.map_some]
    constructor
    · intro h
      split at h
      · obtain ⟨_, -, hb⟩ := bind_eq_ok_iff.1 h
        cases hb
      · have hm := readIdsFrom_eq_ok_iff.1 (Outcome.ofExcept_eq_ok_iff.1 h)
        have hl := congrArg List.length hm
        simp only [List.length_map, List.length_take] at hl
        have hne : ids ≠ [] := List.ne_nil_of_length_pos (by omega)
        exact ⟨by omega, by rw [if_neg hne, hm]⟩
    · rintro ⟨hsize, h⟩
      have hne : ids ≠ [] := List.ne_nil_of_length_pos (by omega)
      rw [if_neg hne] at h
      have hm := Option.some.inj h
      have hl := congrArg List.length hm
      simp only [List.length_map, List.length_take] at hl
      rw [if_neg (by omega)]
      exact Outcome.ofExcept_eq_ok_iff.2 (readIdsFrom_eq_ok_iff.2 hm)

theorem canonicalTexts_foreignIds (ids : List PrimitiveId) :
    canonicalTexts (foreignIds ids) ids.length = foreignIds ids := by
  unfold canonicalTexts foreignIds
  cases ids with
  | nil => rfl
  | cons id ids => simp [List.take_of_length_le]

theorem readCode_eq_ok_iff {α : Type} {ofCode? : Int32 → Option α} {code : α → Int32}
    (hr : ∀ a, ofCode? (code a) = some a) (hw : ∀ {c a}, ofCode? c = some a → code a = c)
    {vocabulary : Vocabulary} {c : Int32} {a : α} :
    readCode vocabulary ofCode? c = .ok a ↔ code a = c := by
  rw [readCode]
  constructor
  · intro h
    split at h
    · next ha => exact hw (Except.ok.inj h ▸ ha)
    · cases h
  · rintro rfl
    rw [hr]

theorem truthWord_inj {a b : Bool} : truthWord a = truthWord b ↔ a = b :=
  (Function.LeftInverse.injective ofTruthWord_truthWord).eq_iff

namespace LayoutFields

theorem read_eq_ok_iff {f : LayoutFields} {l : Layout} : f.read = .ok l ↔ ofLayout l = f := by
  cases f
  cases l
  simp [read, ofLayout, bind_eq_ok_iff,
    readCode_eq_ok_iff ElementType.ofCode?_code ElementType.code_of_ofCode?,
    readCode_eq_ok_iff Format.ofCode?_code Format.code_of_ofCode?]
  grind

end LayoutFields

namespace ActivationFields

theorem read_eq_ok_iff {f : ActivationFields} {p : Activation} :
    f.read = .ok p ↔ ofParams p = f := by
  cases f
  cases p
  simp [read, ofParams, bind_eq_ok_iff,
    readCode_eq_ok_iff ActivationFunction.ofCode?_code ActivationFunction.code_of_ofCode?]
  grind

end ActivationFields

namespace EltwiseFields

def canonical (f : EltwiseFields) : EltwiseFields :=
  { f with input2 := f.input2.cut, withActivation := if f.withActivation = 0 then 0 else 1 }

theorem read_eq_ok_iff {f : EltwiseFields} {p : Eltwise} :
    f.read = .ok p ↔ ofParams p = f.canonical := by
  cases f
  cases p
  simp [read, ofParams, canonical, bind_eq_ok_iff, readId_eq_ok_iff,
    readCode_eq_ok_iff EltwiseMode.ofCode?_code EltwiseMode.code_of_ofCode?, PrimitiveId.foreign,
    ← truthWord_ofTruthWord, truthWord_inj]
  grind

end EltwiseFields

namespace DetectionFields

def canonical (f : DetectionFields) : DetectionFields :=
  { f with
    sharedLocation := if f.sharedLocation = 0 then 0 else 1
    varianceInTarget := if f.varianceInTarget = 0 then 0 else 1 }

theorem read_eq_ok_iff {f : DetectionFields} {p : DetectionParameters} :
    f.read = .ok p ↔ ofParams p = f.canonical := by
  cases f
  cases p
  simp [read, ofParams, canonical, bind_eq_ok_iff,
    readCode_eq_ok_iff BoxCode.ofCode?_code BoxCode.code_of_ofCode?, ← truthWord_ofTruthWord,
    truthWord_inj]
  grind

end DetectionFields

namespace ReorderFields

theorem read_eq_ok_iff {f : ReorderFields} {p : Reorder} : f.read = .ok p ↔ ofParams p = f := by
  cases f
  cases p
  simp [read, ofParams, bind_eq_ok_iff,
    readCode_eq_ok_iff ElementType.ofCode?_code ElementType.code_of_ofCode?,
    readCode_eq_ok_iff Format.ofCode?_code Format.code_of_ofCode?]

end ReorderFields

variable {ε : Type} [Extension ε]

def Fields.canonical : Fields ε → Fields ε
  | .eltwise f => .eltwise f.canonical
  | .detectionOutput f => .detectionOutput f.canonical
  | f => f

/-- The descriptor without what does not count, true words being one. -/
def Descriptor.canonical (d : Descriptor ε) : Descriptor ε where
  tag := d.tag
  id := d.id.cut
  inputs := canonicalTexts d.inputs d.inputSize
  inputSize := d.inputSize
  padding := d.padding
  fields := d.fields.canonical

theorem canonicalTexts_canonicalTexts (texts : Option (List ForeignText)) (size : Nat) :
    canonicalTexts (canonicalTexts texts size) size = canonicalTexts texts size := by
  unfold canonicalTexts
  by_cases hs : size = 0
  · simp [hs]
  · cases texts with
    | none => simp
    | some texts => simp [hs, ← List.map_take, List.take_take]

theorem Fields.canonical_canonical (f : Fields ε) : f.canonical.canonical = f.canonical := by
  cases f <;> simp [canonical, EltwiseFields.canonical, DetectionFields.canonical]

theorem Descriptor.canonical_canonical (d : Descriptor ε) : d.canonical.canonical = d.canonical := by
  simp only [canonical, ForeignText.cut_cut, canonicalTexts_canonicalTexts,
    Fields.canonical_canonical]

namespace Kind

theorem readFields_eq_ok_iff {k : Kind ε} (hk : k.isBuiltin = true) {f : Fields ε}
    {params : k.Params} : k.readFields f = .ok params ↔ k.writeFields params = f.canonical := by
  cases k with
  | inputLayout =>
    cases f with
    | inputLayout f =>
      have hr (l : InputLayout) : f.read.map InputLayout.mk = .ok l ↔ f.read = .ok l.layout := by
        cases l
        cases f.read <;> simp [Except.map]
      exact (Outcome.ofExcept_eq_ok_iff.trans ((hr params).trans LayoutFields.read_eq_ok_iff)).trans
        ⟨congrArg Fields.inputLayout, Fields.inputLayout.inj⟩
    | _ => simp [readFields, writeFields, Fields.canonical]
  | activation =>
    cases f with
    | activation f =>
      exact (Outcome.ofExcept_eq_ok_iff.trans ActivationFields.read_eq_ok_iff).trans
        ⟨congrArg Fields.activation, Fields.activation.inj⟩
    | _ => simp [readFields, writeFields, Fields.canonical]
  | eltwise =>
    cases f with
    | eltwise f =>
      exact (Outcome.ofExcept_eq_ok_iff.trans EltwiseFields.read_eq_ok_iff).trans
        ⟨congrArg Fields.eltwise, Fields.eltwise.inj⟩
    | _ => simp [readFields, writeFields, Fields.canonical]
  | detectionOutput =>
    cases f with
    | detectionOutput f =>
      exact (Outcome.ofExcept_eq_ok_iff.trans DetectionFields.read_eq_ok_iff).trans
        ⟨congrArg Fields.detectionOutput, Fields.detectionOutput.inj⟩
    | _ => simp [readFields, writeFields, Fields.canonical]
  | reorder =>
    cases f with
    | reorder f =>
      exact (Outcome.ofExcept_eq_ok_iff.trans ReorderFields.read_eq_ok_iff).trans
        ⟨congrArg Fields.reorder, Fields.reorder.inj⟩
    | _ => simp [readFields, writeFields, Fields.canonical]
  | custom e => cases hk

theorem canonical_writeFields {k : Kind ε} (hk : k.isBuiltin = true) (params : k.Params) :
    (k.writeFields params).canonical = k.writeFields params := by
  have hb (b : Bool) : (if truthWord b = 0 then 0 else 1) = truthWord b := by cases b <;> rfl
  cases k with
  | inputLayout | activation | reorder => rfl
  | eltwise =>
    have hi := (Eltwise.input2 params).cut_foreign
    simp only [writeFields, Fields.canonical, EltwiseFields.canonical, EltwiseFields.ofParams, hb]
    exact congrArg (fun text => Fields.eltwise ⟨text, _, _, _⟩) hi
  | detectionOutput =>
    simp only [writeFields, Fields.canonical, DetectionFields.canonical, DetectionFields.ofParams,
      hb]
  | custom e => cases hk

theorem kind_of_readPrimitive {k : Kind ε} {d : Descriptor ε} {p : Primitive ε}
    (h : k.readPrimitive d = .ok p) : p.kind = k := by
  obtain ⟨id, -, h⟩ := bind_eq_ok_iff.1 h
  obtain ⟨inputs, -, h⟩ := bind_eq_ok_iff.1 h
  obtain ⟨params, -, h⟩ := bind_eq_ok_iff.1 h
  obtain rfl := Except.ok.inj h
  rfl

theorem readPrimitive_kind_eq_ok_iff {d : Descriptor ε} {p : Primitive ε} :
    p.kind.readPrimitive d = .ok p ↔
      readId "id" d.id = .ok p.id ∧ readIds "input" d.inputs d.inputSize = .ok p.inputs ∧
        d.padding = p.padding ∧ p.kind.readFields d.fields = .ok p.params := by
  obtain ⟨id, inputs, padding, k, params⟩ := p
  simp only [readPrimitive, bind_eq_ok_iff, Outcome.ofExcept_eq_ok_iff, pure_eq_ok,
    Except.ok.injEq, Primitive.mk.injEq, heq_eq_eq, true_and]
  constructor
  · rintro ⟨_, hid, _, hi, _, hp, rfl, rfl, rfl, rfl⟩
    exact ⟨hid, hi, rfl, hp⟩
  · rintro ⟨hid, hi, rfl, hp⟩
    exact ⟨_, hid, _, hi, _, hp, rfl, rfl, rfl, rfl⟩

variable [DecidableEq ε]

theorem writePrimitive_kind (p : Primitive ε) (tag : TypeTag) :
    p.kind.writePrimitive p tag = .ok {
      tag := tag
      id := p.id.foreign
      inputs := foreignIds p.inputs
      inputSize := p.inputs.length
      padding := p.padding
      fields := p.kind.writeFields p.params } := by
  rw [writePrimitive, Primitive.paramsAs?_kind]
  rfl

/-- A descriptor is read as the primitive that is written as its canonical form. -/
theorem readPrimitive_eq_ok_iff {d : Descriptor ε} {p : Primitive ε}
    (hk : p.kind.isBuiltin = true) :
    p.kind.readPrimitive d = .ok p ↔ p.kind.writePrimitive p d.tag = .ok d.canonical := by
  rw [readPrimitive_kind_eq_ok_iff, readId_eq_ok_iff, readIds_eq_ok_iff, readFields_eq_ok_iff hk,
    writePrimitive_kind, Except.ok.injEq]
  simp only [Descriptor.canonical, Descriptor.mk.injEq, true_and]
  constructor
  · rintro ⟨hid, ⟨hl, hi⟩, hpad, hf⟩
    exact ⟨hid, hi, hl, hpad.symm, hf⟩
  · rintro ⟨hid, hi, hl, hpad, hf⟩
    exact ⟨hid, ⟨hl, hi⟩, hpad.symm, hf⟩

theorem canonical_of_writePrimitive {d : Descriptor ε} {p : Primitive ε} {tag : TypeTag}
    (hk : p.kind.isBuiltin = true) (h : p.kind.writePrimitive p tag = .ok d) :
    d.canonical = d := by
  rw [writePrimitive_kind] at h
  obtain rfl := Except.ok.inj h
  simp only [Descriptor.canonical, PrimitiveId.cut_foreign, canonicalTexts_foreignIds,
    canonical_writeFields hk]

end Kind

end InferenceGraph
