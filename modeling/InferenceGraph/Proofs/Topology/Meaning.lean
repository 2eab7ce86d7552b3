import InferenceGraph.Proofs.Detection.Tabulation
import InferenceGraph.Proofs.Program.Layouts

set_option autoImplicit false

namespace InferenceGraph

/-- A tensor by its elements in logical order. -/
structure Tensor where
  size : TensorSize
  values : List Float32
  deriving DecidableEq

abbrev InputData := PrimitiveId → Option (List Float32)

/-- The elements of a tensor with the layout they have in memory. -/
abbrev Placed := Layout × List Float32

def Placed.tensor (placed : Placed) : Tensor := ⟨placed.1.size, placed.2⟩

variable {ε : Type} [Extension ε]

namespace Primitive

/-- What a primitive of a builtin kind makes of the tensors of its dependencies. -/
def meaning (data : InputData) (p : Primitive ε) (inputs : List Tensor) : Option Tensor :=
  match p with
  | ⟨id, _, _, .inputLayout, q⟩ =>
    match inputs with
    | [] => (data id).map fun values => ⟨(show InputLayout from q).layout.size, values⟩
    | _ => none
  | ⟨_, _, _, .activation, q⟩ =>
    match inputs with
    | [x] => some ⟨x.size, x.values.map (show Activation from q).apply⟩
    | _ => none
  | ⟨_, _, _, .eltwise, q⟩ =>
    match inputs with
    | [x, y] => some ⟨x.size, List.zipWith (show Eltwise from q).apply x.values y.values⟩
    | _ => none
  | ⟨_, _, _, .reorder, _⟩ =>
    match inputs with
    | [x] => some x
    | _ => none
  | ⟨_, _, _, .detectionOutput, q⟩ =>
    match inputs with
    | [location, confidence, prior] =>
      let q : DetectionParameters := q
      let images := location.size.batch
      (q.tabulation images location.values confidence.values prior.values).map fun rows =>
        ⟨⟨1, 1, q.keep.toNat * images, 7⟩, rows⟩
    | _ => none
  | ⟨_, _, _, .custom _, _⟩ => none

/-- What a host computes: the meaning, if it has the shape of the inferred layout and the layout is
of single precision. -/
def result (data : InputData) (p : Primitive ε) (inputs : List Placed) : Option Placed := do
  let layout ← (p.layoutFrom (inputs.map Prod.fst)).toOption
  let tensor ← p.meaning data (inputs.map Placed.tensor)
  if layout.type = .float32 ∧ tensor.values.length = layout.count then
    return (layout, tensor.values)
  else none

variable {data : InputData} {p : Primitive ε} {inputs : List Placed} {layout : Layout}
variable {tensor : Tensor}

theorem length_of_meaning {inputs : List Tensor} (h : p.meaning data inputs = some tensor) :
    inputs.length = arity p.kind := by
  obtain ⟨id, ids, padding, kind, params⟩ := p
  cases kind with
  | custom e => cases h
  | _ =>
    simp only [meaning] at h
    split at h
    · rfl
    · cases h

theorem meaning_of_input (data : InputData) (hk : p.kind = .inputLayout) :
    ∃ size, p.meaning data [] = (data p.id).map fun values => ⟨size, values⟩ := by
  obtain ⟨id, ids, padding, kind, q⟩ := p
  cases hk
  exact ⟨(show InputLayout from q).layout.size, rfl⟩

theorem result_congr {other : InputData}
    (h : p.kind = .inputLayout → data p.id = other p.id) :
    p.result data inputs = p.result other inputs := by
  suffices p.meaning data (inputs.map Placed.tensor) = p.meaning other (inputs.map Placed.tensor) by
    rw [result, result, this]
  obtain ⟨id, ids, padding, kind, params⟩ := p
  cases kind with
  | inputLayout =>
    have hd : data id = other id := h rfl
    cases inputs with
    | nil => simp only [List.map_nil, meaning, hd]
    | cons x rest => rfl
  | _ => rfl

theorem size_of_meaning (hl : inputs.length = p.dependencies.length)
    (hf : p.layoutFrom (inputs.map Prod.fst) = .ok layout)
    (hm : p.meaning data (inputs.map Placed.tensor) = some tensor) :
    tensor.size = layout.size := by
  have hl : (inputs.map Prod.fst).length = p.dependencies.length := by simpa using hl
  have hn := length_of_meaning hm
  rw [List.length_map] at hn
  obtain ⟨id, ids, padding, kind, params⟩ := p
  cases kind with
  | custom e => cases hm
  | inputLayout =>
    obtain rfl := List.length_eq_zero_iff.1 hn
    obtain ⟨values, -, rfl⟩ := Option.map_eq_some_iff.1 hm
    obtain rfl := Except.ok.inj hf
    rfl
  | activation =>
    obtain ⟨x, rfl⟩ := List.length_eq_one_iff.1 hn
    obtain rfl := Option.some.inj hm
    rw [layout_of_firstInputLayout hl rfl hf]
    rfl
  | reorder =>
    obtain ⟨x, rfl⟩ := List.length_eq_one_iff.1 hn
    obtain rfl := Option.some.inj hm
    obtain ⟨input, hi, hf⟩ := bind_eq_ok_iff.1 hf
    obtain rfl := Except.ok.inj (hi.symm.trans (inputLayout_viewOf hl rfl))
    rw [(Reorder.outputLayout_eq_ok_iff.1 (ofFault_eq_ok hf)).2]
    rfl
  | eltwise =>
    obtain ⟨x, y, rfl⟩ := List.length_eq_two.1 hn
    obtain rfl := Option.some.inj hm
    obtain ⟨_, -, hf⟩ := bind_eq_ok_iff.1 hf
    obtain ⟨_, -, hf⟩ := bind_eq_ok_iff.1 hf
    rw [layout_of_firstInputLayout hl rfl hf]
    rfl
  | detectionOutput =>
    obtain ⟨location, confidence, prior, rfl⟩ := List.length_eq_three.1 hn
    obtain ⟨rows, -, rfl⟩ := Option.map_eq_some_iff.1 hm
    obtain ⟨a, ha, hf⟩ := bind_eq_ok_iff.1 hf
    obtain ⟨b, hb, hf⟩ := bind_eq_ok_iff.1 hf
    obtain ⟨c, hc, hf⟩ := bind_eq_ok_iff.1 hf
    obtain rfl := Except.ok.inj (ha.symm.trans (inputLayout_viewOf hl rfl))
    rw [DetectionParameters.layout_of_outputLayout (ofFault_eq_ok hf)]
    rfl

theorem result_eq_some_iff {placed : Placed} : p.result data inputs = some placed ↔
    ∃ tensor, p.layoutFrom (inputs.map Prod.fst) = .ok placed.1 ∧
      p.meaning data (inputs.map Placed.tensor) = some tensor ∧ placed.1.type = .float32 ∧
      placed.2.length = placed.1.count ∧ tensor.values = placed.2 := by
  obtain ⟨layout, values⟩ := placed
  unfold result
  cases hl : p.layoutFrom (inputs.map Prod.fst) with
  | error e => simp [Except.toOption]
  | ok l =>
    cases hm : p.meaning data (inputs.map Placed.tensor) with
    | none => simp [Except.toOption]
    | some tensor =>
      by_cases h : l.type = .float32 ∧ tensor.values.length = l.count
      · simp only [Except.toOption, Option.bind_eq_bind, Option.bind_some, if_pos h]
        grind
      · simp only [Except.toOption, Option.bind_eq_bind, Option.bind_some, if_neg h]
        grind

end Primitive

namespace Topology

/-- The value of a primitive for the given data. -/
def eval (t : Topology ε) (data : InputData) : PrimitiveId → Option Tensor :=
  t.fold fun p inputs => p.meaning data inputs

def resultOf (t : Topology ε) (data : InputData) : PrimitiveId → Option Placed :=
  t.fold fun p inputs => p.result data inputs

variable {t : Topology ε} {data : InputData} {id : PrimitiveId} {placed : Placed}

theorem resultOf_eq_some_iff (ha : t.Acyclic) {p : Primitive ε} (hp : p ∈ t.primitives) :
    t.resultOf data p.id = some placed ↔ ∃ inputs,
      p.dependencies.map (t.resultOf data) = inputs.map some ∧
        p.result data inputs = some placed :=
  fold_eq_some_iff ha hp

theorem resultOf_congr {K : PrimitiveId → Prop} {other : InputData}
    (hK : ∀ a b, K a → t.DependsOn a b → K b)
    (h : ∀ p ∈ t.primitives, p.kind = .inputLayout → K p.id → data p.id = other p.id)
    (hid : K id) : t.resultOf data id = t.resultOf other id :=
  fold_congr_of_rule hK (fun p hp hk _ => Primitive.result_congr fun hkind => h p hp hkind hk) hid

theorem eval_of_resultOf (h : t.resultOf data id = some placed) :
    t.eval data id = some placed.tensor := by
  refine fold_map (fun p _ inputs placed hl hr => ?_) h
  obtain ⟨tensor, hf, hm, -, -, hv⟩ := Primitive.result_eq_some_iff.1 hr
  rw [hm, Placed.tensor, ← Primitive.size_of_meaning hl hf hm, ← hv]

theorem layoutOf_of_resultOf (h : t.resultOf data id = some placed) :
    t.layoutOf id = some placed.1 := by
  refine fold_map (fun p _ inputs placed _ hr => ?_) h
  obtain ⟨tensor, hf, -⟩ := Primitive.result_eq_some_iff.1 hr
  rw [hf]
  rfl

theorem fits_of_resultOf (h : t.resultOf data id = some placed) :
    placed.1.type = .float32 ∧ placed.2.length = placed.1.count := by
  rw [resultOf, fold, foldIn_eq, Option.bind_eq_some_iff] at h
  obtain ⟨p, -, h⟩ := h
  obtain ⟨inputs, -, h⟩ := Option.bind_eq_some_iff.1 h
  obtain ⟨-, -, -, ht, hl, -⟩ := Primitive.result_eq_some_iff.1 h
  exact ⟨ht, hl⟩

end Topology

end InferenceGraph
