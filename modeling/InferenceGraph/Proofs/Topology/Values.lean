import InferenceGraph.Proofs.Detection
import InferenceGraph.Proofs.Topology.Meaning

set_option autoImplicit false

namespace InferenceGraph

theorem Layout.count_eq_batch_mul (l : Layout) : l.count = l.size.batch * l.size.perImage := by
  simp only [count, TensorSize.count, TensorSize.perImage, Nat.mul_assoc]

namespace DetectionParameters

variable {q : DetectionParameters} {location confidence prior layout : Layout} {padding : Padding}

theorem counts_of_outputLayout (h : q.outputLayout location confidence prior padding = .ok layout) :
    location.size.batch ≠ 0 ∧
      location.count = location.size.batch * (prior.size.x / 4 * q.locationClasses * 4) ∧
      confidence.count = location.size.batch * (prior.size.x / 4 * q.classes.toNat) ∧
      prior.count = prior.size.x / 4 * 8 := by
  simp only [outputLayout] at h
  split at h
  · cases h
  · next hprior =>
    split at h
    · cases h
    · next himages =>
      split at h
      · cases h
      · next hbatch =>
        split at h
        · cases h
        · next hlocation =>
          split at h
          · cases h
          · next hconfidence =>
            simp only [not_or, not_not] at hprior hbatch hlocation hconfidence
            obtain ⟨h1, h2, h3, h4⟩ := hprior
            refine ⟨himages, ?_, ?_, ?_⟩
            · rw [Layout.count_eq_batch_mul, hlocation]
            · rw [Layout.count_eq_batch_mul, hconfidence, hbatch]
            · rw [Layout.count, TensorSize.count, h1, h2, h3]
              omega

end DetectionParameters

namespace Primitive

variable {ε : Type} [Extension ε] {data : InputData} {p : Primitive ε} {inputs : List Placed}
variable {layouts : List Layout} {layout : Layout}

/-- Filled layouts that go together are mapped to a tensor that fills the inferred layout. -/
theorem exists_meaning (hb : p.kind.isBuiltin = true) (hv : p.validate = .ok ())
    (hk : p.kind ≠ .inputLayout) (hl : inputs.length = p.dependencies.length)
    (hf : p.layoutFrom (inputs.map Prod.fst) = .ok layout)
    (hc : ∀ x ∈ inputs, x.2.length = x.1.count) :
    ∃ tensor, p.meaning data (inputs.map Placed.tensor) = some tensor ∧
      tensor.values.length = layout.count := by
  -- A meaning always has the inferred size, so what is left is that it fills its own.
  suffices ∃ tensor, p.meaning data (inputs.map Placed.tensor) = some tensor ∧
      tensor.values.length = tensor.size.count by
    obtain ⟨tensor, hm, hn⟩ := this
    exact ⟨tensor, hm, by rw [hn, size_of_meaning hl hf hm, Layout.count]⟩
  have hn := hl.trans (length_dependencies hb hv)
  have hl' : (inputs.map Prod.fst).length = p.dependencies.length := by simpa using hl
  obtain ⟨id, ids, padding, kind, q⟩ := p
  cases kind with
  | custom e => simp [Kind.isBuiltin] at hb
  | inputLayout => exact absurd rfl hk
  | activation =>
    obtain ⟨x, rfl⟩ := List.length_eq_one_iff.1 hn
    exact ⟨_, rfl, (List.length_map ..).trans (hc x (by simp))⟩
  | reorder =>
    obtain ⟨x, rfl⟩ := List.length_eq_one_iff.1 hn
    exact ⟨_, rfl, hc x (by simp)⟩
  | eltwise =>
    obtain ⟨x, y, rfl⟩ := List.length_eq_two.1 hn
    obtain ⟨_, hs, -⟩ := bind_eq_ok_iff.1 hf
    have hsize := (shape_of_checkSameShape hl' hs).1
    have hx := hc x (by simp)
    have hy := hc y (by simp)
    refine ⟨_, rfl, ?_⟩
    change (List.zipWith _ x.2 y.2).length = x.1.count
    rw [List.length_zipWith, hx, hy, Layout.count, Layout.count, hsize, Nat.min_self]
  | detectionOutput =>
    obtain ⟨x, y, z, rfl⟩ := List.length_eq_three.1 hn
    obtain ⟨-, hlocation, hconfidence, hprior⟩ :=
      DetectionParameters.counts_of_outputLayout (outputLayout_of_detection hl' hf)
    obtain ⟨rows, hrows, htable⟩ := DetectionParameters.exists_tabulation
      ((hc x (by simp)).trans hlocation) ((hc y (by simp)).trans hconfidence)
      ((hc z (by simp)).trans hprior)
    refine ⟨⟨⟨1, 1, _, 7⟩, rows⟩, Option.map_eq_some_iff.2 ⟨rows, hrows, rfl⟩, ?_⟩
    rw [htable.length, TensorSize.count, Nat.one_mul, Nat.one_mul, Nat.mul_comm x.1.size.batch]
    rfl

theorem exists_type_of_layoutFrom (hb : p.kind.isBuiltin = true) (hv : p.validate = .ok ())
    (hi : p.kind ≠ .inputLayout) (hr : p.kind ≠ .reorder)
    (hl : layouts.length = p.dependencies.length) (hf : p.layoutFrom layouts = .ok layout) :
    ∃ first ∈ layouts, layout.type = first.type := by
  have hn := hl.trans (length_dependencies hb hv)
  obtain ⟨id, ids, padding, kind, q⟩ := p
  cases kind with
  | custom e => simp [Kind.isBuiltin] at hb
  | inputLayout => exact absurd rfl hi
  | reorder => exact absurd rfl hr
  | activation =>
    obtain ⟨x, rfl⟩ := List.length_eq_one_iff.1 hn
    exact ⟨x, by simp, by rw [layout_of_firstInputLayout hl rfl hf]; rfl⟩
  | eltwise =>
    obtain ⟨x, y, rfl⟩ := List.length_eq_two.1 hn
    obtain ⟨_, -, hf⟩ := bind_eq_ok_iff.1 hf
    obtain ⟨_, -, hf⟩ := bind_eq_ok_iff.1 hf
    exact ⟨x, by simp, by rw [layout_of_firstInputLayout hl rfl hf]; rfl⟩
  | detectionOutput =>
    obtain ⟨x, y, z, rfl⟩ := List.length_eq_three.1 hn
    have he := DetectionParameters.layout_of_outputLayout (outputLayout_of_detection hl hf)
    exact ⟨x, by simp, by rw [he]⟩

end Primitive

namespace Topology

variable {ε : Type} [Extension ε] {t : Topology ε} {data : InputData}

theorem exists_tabulates (ha : t.Acyclic) {id a b c : PrimitiveId} {padding : Padding}
    {q : DetectionParameters}
    (hp : ⟨id, [a, b, c], padding, .detectionOutput, q⟩ ∈ t.primitives) {placed : Placed}
    (hr : t.resultOf data id = some placed) :
    ∃ x y z, t.resultOf data a = some x ∧ t.resultOf data b = some y ∧
      t.resultOf data c = some z ∧
      x.2.length = x.1.size.batch * (z.1.size.x / 4 * q.locationClasses * 4) ∧
      y.2.length = x.1.size.batch * (z.1.size.x / 4 * q.classes.toNat) ∧
      z.2.length = z.1.size.x / 4 * 8 ∧
      q.Tabulates x.1.size.batch x.2 y.2 z.2 placed.2 := by
  obtain ⟨inputs, hinputs, hres⟩ := (resultOf_eq_some_iff ha hp).1 hr
  change [a, b, c].map (t.resultOf data) = _ at hinputs
  obtain ⟨x, y, z, rfl⟩ : ∃ x y z, inputs = [x, y, z] :=
    List.length_eq_three.1 (by simpa using (congrArg List.length hinputs).symm)
  obtain ⟨hx, hy, hz⟩ : t.resultOf data a = some x ∧ t.resultOf data b = some y ∧
      t.resultOf data c = some z := by simpa using hinputs
  obtain ⟨tensor, hf, hm, -, -, hv⟩ := Primitive.result_eq_some_iff.1 hres
  obtain ⟨rows, hrows, rfl⟩ := Option.map_eq_some_iff.1 hm
  obtain ⟨-, hlocation, hconfidence, hprior⟩ :=
    DetectionParameters.counts_of_outputLayout (Primitive.outputLayout_of_detection rfl hf)
  have hlocation := (fits_of_resultOf hx).2.trans hlocation
  have hconfidence := (fits_of_resultOf hy).2.trans hconfidence
  have hprior := (fits_of_resultOf hz).2.trans hprior
  obtain ⟨values, hvalues, htab⟩ :=
    DetectionParameters.exists_tabulation hlocation hconfidence hprior
  obtain rfl := Option.some.inj (hrows.symm.trans hvalues)
  exact ⟨x, y, z, hx, hy, hz, hlocation, hconfidence, hprior, hv ▸ htab⟩

end Topology

end InferenceGraph
