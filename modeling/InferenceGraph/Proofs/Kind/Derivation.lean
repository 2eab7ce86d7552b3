import InferenceGraph.Proofs.Kind.Layouts

set_option autoImplicit false

namespace InferenceGraph

variable {ε : Type} [Extension ε]

/-- The layout of a node of a builtin kind, by its parameters, its padding and the layouts of its
dependencies. -/
inductive Kind.Derives : (k : Kind ε) → k.Params → Padding → List Layout → Layout → Prop
  | input (q : InputLayout) (padding : Padding) (flat : q.layout.Flat) :
      Derives .inputLayout q padding [] q.layout
  | activation (q : Activation) (padding : Padding) (x : Layout) :
      Derives .activation q padding [x] ⟨x.type, x.format, x.size, padding⟩
  | eltwise (q : Eltwise) (padding : Padding) (x y : Layout) (type : y.type = x.type)
      (format : y.format = x.format) (size : y.size = x.size) :
      Derives .eltwise q padding [x, y] ⟨x.type, x.format, x.size, padding⟩
  | detection (q : DetectionParameters) (padding : Padding) (location confidence prior : Layout) :
      Derives .detectionOutput q padding [location, confidence, prior]
        ⟨location.type, .bfyx, ⟨1, 1, q.keep.toNat * location.size.batch, 7⟩, padding⟩
  | reorder (q : Reorder) (padding : Padding) (x : Layout)
      (flat : Layout.Flat ⟨q.type, q.format, x.size, padding⟩) :
      Derives .reorder q padding [x] ⟨q.type, q.format, x.size, padding⟩

/-- The kinds that leave the size of their input as it is. -/
def Kind.keepsSize : Kind ε → Bool
  | .activation | .eltwise | .reorder => true
  | _ => false

namespace Kind.Derives

variable {k : Kind ε} {q : k.Params} {padding : Padding} {inputs : List Layout} {layout : Layout}
variable (h : k.Derives q padding inputs layout)
include h

theorem padding_eq (hk : k ≠ .inputLayout) : layout.padding = padding := by
  cases h with
  | input => exact absurd rfl hk
  | _ => rfl

theorem flat (hi : ∀ x ∈ inputs, x.Flat) : layout.Flat := by
  cases h with
  | input _ _ hflat => exact hflat
  | activation _ _ x => exact hi x (by simp)
  | eltwise _ _ x y => exact hi x (by simp)
  | detection => exact fun hf => nomatch hf
  | reorder _ _ _ hflat => exact hflat

theorem size_eq (hk : k.keepsSize = true) : ∀ x ∈ inputs, x.size = layout.size := by
  intro z hz
  cases h with
  | input => cases hk
  | detection => cases hk
  | activation _ _ x => rw [List.mem_singleton.1 hz]
  | reorder _ _ x => rw [List.mem_singleton.1 hz]
  | eltwise _ _ x y _ _ hsize =>
    rcases List.mem_cons.1 hz with rfl | hz
    · rfl
    · rw [List.mem_singleton.1 hz, hsize]

end Kind.Derives

namespace Primitive

variable {p : Primitive ε} {layouts : List Layout} {layout : Layout}

theorem derives_of_layoutFrom (hb : p.kind.isBuiltin = true) (hv : p.validate = .ok ())
    (hl : layouts.length = p.dependencies.length) (hf : p.layoutFrom layouts = .ok layout) :
    p.kind.Derives p.params p.padding layouts layout := by
  have hn := hl.trans (length_dependencies hb hv)
  obtain ⟨id, ids, padding, kind, q⟩ := p
  cases kind with
  | custom e => simp [Kind.isBuiltin] at hb
  | inputLayout =>
    obtain rfl := List.length_eq_zero_iff.1 hn
    obtain ⟨_, -, hv⟩ := bind_eq_ok_iff.1 hv
    obtain rfl := Except.ok.inj hf
    refine .input q padding (InputLayout.flat_of_check ?_)
    cases hc : InputLayout.check q with
    | ok u => rfl
    | error fault => simp [hc] at hv
  | activation =>
    obtain ⟨x, rfl⟩ := List.length_eq_one_iff.1 hn
    obtain rfl := layout_of_firstInputLayout hl rfl hf
    exact .activation q padding x
  | eltwise =>
    obtain ⟨x, y, rfl⟩ := List.length_eq_two.1 hn
    obtain ⟨_, hs, hf⟩ := bind_eq_ok_iff.1 hf
    obtain ⟨_, ht, hf⟩ := bind_eq_ok_iff.1 hf
    obtain ⟨hsize, hformat⟩ := shape_of_checkSameShape hl hs
    obtain rfl := layout_of_firstInputLayout hl rfl hf
    exact .eltwise q padding x y (type_of_checkSameType hl ht) hformat hsize
  | detectionOutput =>
    obtain ⟨x, y, z, rfl⟩ := List.length_eq_three.1 hn
    obtain rfl := DetectionParameters.layout_of_outputLayout (outputLayout_of_detection hl hf)
    exact .detection q padding x y z
  | reorder =>
    obtain ⟨x, rfl⟩ := List.length_eq_one_iff.1 hn
    obtain ⟨x', hx, hf⟩ := bind_eq_ok_iff.1 hf
    obtain rfl := Except.ok.inj (hx.symm.trans (inputLayout_viewOf hl rfl))
    obtain ⟨hflat, rfl⟩ := Reorder.outputLayout_eq_ok_iff.1 (ofFault_eq_ok hf)
    exact .reorder q padding x' hflat

end Primitive

end InferenceGraph
