import InferenceGraph.Proofs.Program.Linking

set_option autoImplicit false

namespace InferenceGraph

/-- Data in the flat format has neither rows nor columns. -/
def Layout.Flat (l : Layout) : Prop := l.format = .bf → l.size.y = 1 ∧ l.size.x = 1

theorem TensorSize.spatialAxes_eq_nil_iff {s : TensorSize} :
    s.spatialAxes = [] ↔ s.y = 1 ∧ s.x = 1 := by
  rw [spatialAxes, List.filter_eq_nil_iff]
  simp only [List.forall_mem_cons, decide_eq_true_eq, not_not]
  exact ⟨fun h => ⟨h.1, h.2.1⟩, fun h => ⟨h.1, h.2, nofun⟩⟩

theorem InputLayout.flat_of_check {q : InputLayout} (h : q.check = .ok ()) : q.layout.Flat := by
  intro hf
  unfold check at h
  split at h
  · cases h
  · next hs => exact TensorSize.spatialAxes_eq_nil_iff.1 (not_not.1 (not_and.1 hs hf))

theorem Reorder.outputLayout_eq_ok_iff {q : Reorder} {input layout : Layout} {padding : Padding} :
    q.outputLayout input padding = .ok layout ↔
      layout.Flat ∧ layout = ⟨q.type, q.format, input.size, padding⟩ := by
  unfold outputLayout
  split
  · next hs =>
    simp only [reduceCtorEq, false_iff, not_and]
    rintro hflat rfl
    exact hs.2 (TensorSize.spatialAxes_eq_nil_iff.2 (hflat hs.1))
  · next hs =>
    rw [Except.ok.injEq, eq_comm, iff_and_self]
    rintro rfl hf
    exact TensorSize.spatialAxes_eq_nil_iff.1 (not_not.1 (not_and.1 hs hf))

theorem DetectionParameters.layout_of_outputLayout {q : DetectionParameters}
    {location confidence prior layout : Layout} {padding : Padding}
    (h : q.outputLayout location confidence prior padding = .ok layout) :
    layout = ⟨location.type, .bfyx, ⟨1, 1, q.keep.toNat * location.size.batch, 7⟩, padding⟩ := by
  simp only [outputLayout] at h
  repeat' split at h
  all_goals cases h
  rfl

namespace NodeView

variable {v : NodeView} {layout : Layout}

theorem checkSameShape_self (hi : v.inputLayout 0 = .ok layout)
    (hj : v.inputLayout 1 = .ok layout) : v.checkSameShape [0, 1] = .ok () := by
  rw [checkSameShape, hi, ok_bind, List.forM, checkAgainst, hj, ok_bind,
    if_neg (not_not_intro rfl), if_neg (not_not_intro rfl)]
  rfl

theorem checkSameType_self (hi : v.inputLayout 0 = .ok layout)
    (hj : v.inputLayout 1 = .ok layout) : v.checkSameType [0, 1] = .ok () := by
  simp [checkSameType, hi, hj, ok_bind, pure_eq_ok]

end NodeView

namespace Primitive

variable {ε : Type} [Extension ε] {p : Primitive ε} {layouts : List Layout}

/-- What the rules see of a primitive, given the layouts of its dependencies. -/
def viewOf (p : Primitive ε) (layouts : List Layout) : NodeView where
  id := p.id
  index := 0
  padding := p.padding
  inputs := (p.dependencies.zip layouts).map fun (id, layout) => ⟨id, some layout⟩
  layout? := none

def layoutFrom (p : Primitive ε) (layouts : List Layout) : Outcome Layout :=
  p.outputLayout (p.viewOf layouts)

theorem outputLayout_congr (hb : p.kind.isBuiltin = true) {v w : NodeView} (hid : v.id = w.id)
    (hp : v.padding = w.padding) (hi : v.inputs = w.inputs) :
    p.outputLayout v = p.outputLayout w := by
  obtain ⟨id, inputs, padding, kind, params⟩ := p
  obtain ⟨vid, vindex, vpadding, vinputs, vlayout?⟩ := v
  obtain ⟨wid, windex, wpadding, winputs, wlayout?⟩ := w
  simp only at hid hp hi
  subst hid hp hi
  cases kind with
  | custom e => simp [Kind.isBuiltin] at hb
  | _ => rfl

theorem expectDependencies_eq_ok {kind : String} {expected actual : Nat} {id : PrimitiveId}
    (h : expectDependencies kind expected id actual = .ok ()) : actual = expected := by
  unfold expectDependencies at h
  split at h
  · assumption
  · cases h

def arity : Kind ε → Nat
  | .inputLayout => 0
  | .activation => 1
  | .eltwise => 2
  | .detectionOutput => 3
  | .reorder => 1
  | .custom _ => 0

theorem length_dependencies (hb : p.kind.isBuiltin = true) (hv : p.validate = .ok ()) :
    p.dependencies.length = arity p.kind := by
  obtain ⟨id, inputs, padding, kind, params⟩ := p
  unfold validate at hv
  simp only at hb hv ⊢
  cases kind with
  | custom e => simp [Kind.isBuiltin] at hb
  | eltwise => exact expectDependencies_eq_ok hv
  | reorder => exact expectDependencies_eq_ok hv
  | inputLayout =>
    obtain ⟨_, h, -⟩ := bind_eq_ok_iff.1 hv
    exact expectDependencies_eq_ok h
  | activation =>
    obtain ⟨_, h, -⟩ := bind_eq_ok_iff.1 hv
    exact expectDependencies_eq_ok h
  | detectionOutput =>
    obtain ⟨_, h, -⟩ := bind_eq_ok_iff.1 hv
    exact expectDependencies_eq_ok h

theorem expectDependencies_error {e : GraphError} {kind : String} {n m : Nat} {id : PrimitiveId}
    (h : expectDependencies kind n id m = .error e) : ∃ fault, e = .invalidParameter id fault := by
  unfold expectDependencies at h
  split at h
  · cases h
  · exact ⟨_, (Except.error.inj h).symm⟩

theorem invalidUnless_error {e : GraphError} {id : PrimitiveId}
    {check : Except ParameterFault Unit} (h : invalidUnless id check = .error e) :
    ∃ fault, e = .invalidParameter id fault := by
  cases check with
  | ok u => cases h
  | error fault => exact ⟨fault, (Except.error.inj h).symm⟩

theorem validate_error {e : GraphError} (hb : p.kind.isBuiltin = true)
    (he : p.validate = .error e) :
    (∃ fault, e = .invalidParameter p.id fault) ∨ ∃ fault, e = .layoutIncompatible p.id fault := by
  obtain ⟨id, inputs, padding, kind, params⟩ := p
  unfold validate at he
  simp only at hb he ⊢
  cases kind with
  | custom e => simp [Kind.isBuiltin] at hb
  | eltwise => exact .inl (expectDependencies_error he)
  | reorder => exact .inl (expectDependencies_error he)
  | activation =>
    obtain h | ⟨_, -, h⟩ := bind_eq_error_iff.1 he
    · exact .inl (expectDependencies_error h)
    · exact .inl (invalidUnless_error h)
  | detectionOutput =>
    obtain h | ⟨_, -, h⟩ := bind_eq_error_iff.1 he
    · exact .inl (expectDependencies_error h)
    · exact .inl (invalidUnless_error h)
  | inputLayout =>
    obtain h | ⟨_, -, h⟩ := bind_eq_error_iff.1 he
    · exact .inl (expectDependencies_error h)
    · split at h
      · cases h
      · exact .inr ⟨_, (Except.error.inj h).symm⟩

theorem getElem?_inputs_viewOf (hl : layouts.length = p.dependencies.length) {i : Nat}
    {layout : Layout} (hi : layouts[i]? = some layout) :
    ∃ id, (p.viewOf layouts).inputs[i]? = some ⟨id, some layout⟩ := by
  have hd : i < p.dependencies.length := hl ▸ (List.getElem?_eq_some_iff.1 hi).1
  refine ⟨p.dependencies[i], ?_⟩
  simp [viewOf, List.getElem?_zip_eq_some, hi, List.getElem?_eq_getElem hd]

theorem inputLayout_viewOf (hl : layouts.length = p.dependencies.length) {i : Nat}
    {layout : Layout} (hi : layouts[i]? = some layout) :
    (p.viewOf layouts).inputLayout i = .ok layout := by
  obtain ⟨id, h⟩ := getElem?_inputs_viewOf hl hi
  rw [NodeView.inputLayout, h, Outcome.get_some, ok_bind, Outcome.get_some]

theorem dependency_viewOf (hl : layouts.length = p.dependencies.length) {i : Nat}
    {layout : Layout} (hi : layouts[i]? = some layout) :
    ∃ id, (p.viewOf layouts).dependency i = .ok id := by
  obtain ⟨id, h⟩ := getElem?_inputs_viewOf hl hi
  exact ⟨id, by rw [NodeView.dependency, h]⟩

/-- What a rule may come to: a result, or layouts that do not go together. -/
def Answers {α : Type} (id : PrimitiveId) (x : Outcome α) : Prop :=
  (∃ a, x = .ok a) ∨ ∃ fault, x = .error (.error (.layoutIncompatible id fault))

section Answers

variable {α β : Type} {id : PrimitiveId}

theorem answers_ok (a : α) : Answers id (.ok a) := .inl ⟨a, rfl⟩

theorem answers_incompatible (v : NodeView) (fault : LayoutFault) :
    Answers v.id (v.incompatible fault : Outcome α) := .inr ⟨fault, rfl⟩

theorem answers_ofFault (v : NodeView) (x : Except LayoutFault α) : Answers v.id (v.ofFault x) := by
  cases x with
  | ok a => exact answers_ok a
  | error fault => exact answers_incompatible v fault

theorem Answers.bind {x : Outcome α} {f : α → Outcome β} (hx : Answers id x)
    (hf : ∀ a, x = .ok a → Answers id (f a)) : Answers id (x >>= f) := by
  obtain ⟨a, rfl⟩ | ⟨fault, rfl⟩ := hx
  · exact hf a rfl
  · exact .inr ⟨fault, rfl⟩

end Answers

theorem answers_firstInputLayout (hl : layouts.length = p.dependencies.length) (kind : String) :
    Answers p.id ((p.viewOf layouts).firstInputLayout kind) := by
  unfold NodeView.firstInputLayout
  split
  · exact answers_incompatible (p.viewOf layouts) _
  · next hne =>
    cases layouts with
    | nil => simp [viewOf] at hne
    | cons layout rest =>
      rw [inputLayout_viewOf hl (i := 0) rfl]
      exact answers_ok _

theorem answers_checkAgainst (hl : layouts.length = p.dependencies.length) {first i : Nat}
    {a b : Layout} (ha : layouts[first]? = some a) (hb : layouts[i]? = some b) :
    Answers p.id ((p.viewOf layouts).checkAgainst first a i) := by
  obtain ⟨firstId, hfirst⟩ := dependency_viewOf hl ha
  obtain ⟨id, hid⟩ := dependency_viewOf hl hb
  rw [NodeView.checkAgainst, inputLayout_viewOf hl hb, ok_bind]
  split
  · rw [hid, hfirst]
    exact answers_incompatible (p.viewOf layouts) _
  · split
    · exact answers_incompatible (p.viewOf layouts) _
    · exact answers_ok ()

theorem answers_checkSameShape {a b : Layout} (hl : [a, b].length = p.dependencies.length) :
    Answers p.id ((p.viewOf [a, b]).checkSameShape [0, 1]) := by
  rw [NodeView.checkSameShape, inputLayout_viewOf hl (i := 0) rfl, ok_bind,
    List.forM_eq_forM, List.forM_cons]
  exact Answers.bind (answers_checkAgainst hl rfl rfl) fun _ _ => answers_ok _

theorem answers_checkSameType {a b : Layout} (hl : [a, b].length = p.dependencies.length) :
    Answers p.id ((p.viewOf [a, b]).checkSameType [0, 1]) := by
  rw [NodeView.checkSameType]
  simp only [List.mapM_cons, List.mapM_nil, inputLayout_viewOf hl (i := 0) rfl,
    inputLayout_viewOf hl (i := 1) rfl, ok_bind, pure_eq_ok]
  split
  · exact answers_ok ()
  · exact answers_incompatible (p.viewOf [a, b]) _

theorem answers_layoutFrom (hb : p.kind.isBuiltin = true) (hv : p.validate = .ok ())
    (hl : layouts.length = p.dependencies.length) : Answers p.id (p.layoutFrom layouts) := by
  have hn := hl.trans (length_dependencies hb hv)
  obtain ⟨id, inputs, padding, kind, params⟩ := p
  unfold layoutFrom outputLayout
  simp only at hb ⊢
  cases kind with
  | custom e => simp [Kind.isBuiltin] at hb
  | inputLayout => exact answers_ok _
  | activation => exact answers_firstInputLayout hl _
  | reorder =>
    obtain ⟨a, rfl⟩ := List.length_eq_one_iff.1 hn
    refine Answers.bind ?_ fun _ _ => answers_ofFault _ _
    rw [inputLayout_viewOf hl (i := 0) rfl]
    exact answers_ok a
  | eltwise =>
    obtain ⟨a, b, rfl⟩ := List.length_eq_two.1 hn
    refine Answers.bind (answers_checkSameShape hl) fun _ _ => ?_
    exact Answers.bind (answers_checkSameType hl) fun _ _ => answers_firstInputLayout hl _
  | detectionOutput =>
    obtain ⟨a, b, c, rfl⟩ := List.length_eq_three.1 hn
    have hi : ∀ (i : Nat) (layout : Layout), [a, b, c][i]? = some layout →
        Answers id ((viewOf _ [a, b, c]).inputLayout i) := fun i layout h => by
      rw [inputLayout_viewOf hl h]
      exact answers_ok layout
    refine Answers.bind (hi 0 a rfl) fun _ _ => ?_
    refine Answers.bind (hi 1 b rfl) fun _ _ => ?_
    exact Answers.bind (hi 2 c rfl) fun _ _ => answers_ofFault _ _

theorem layout_of_firstInputLayout (hl : layouts.length = p.dependencies.length)
    {first layout : Layout}
    (hf : layouts[0]? = some first) {kind : String}
    (h : (p.viewOf layouts).firstInputLayout kind = .ok layout) :
    layout = first.withPadding p.padding := by
  unfold NodeView.firstInputLayout at h
  split at h
  · cases h
  · rw [inputLayout_viewOf hl hf] at h
    cases h
    rfl

theorem shape_of_checkSameShape {a b : Layout} (hl : [a, b].length = p.dependencies.length)
    (h : (p.viewOf [a, b]).checkSameShape [0, 1] = .ok ()) :
    b.size = a.size ∧ b.format = a.format := by
  rw [NodeView.checkSameShape, inputLayout_viewOf hl (i := 0) rfl, ok_bind, List.forM_eq_forM,
    List.forM_cons] at h
  obtain ⟨u, h, -⟩ := bind_eq_ok_iff.1 h
  rw [NodeView.checkAgainst, inputLayout_viewOf hl (i := 1) rfl, ok_bind] at h
  split at h
  · obtain ⟨_, -, h⟩ := bind_eq_ok_iff.1 h
    obtain ⟨_, -, h⟩ := bind_eq_ok_iff.1 h
    cases h
  · next hs =>
    split at h
    · cases h
    · next hf => exact ⟨not_not.1 hs, not_not.1 hf⟩

theorem type_of_checkSameType {a b : Layout} (hl : [a, b].length = p.dependencies.length)
    (h : (p.viewOf [a, b]).checkSameType [0, 1] = .ok ()) : b.type = a.type := by
  rw [NodeView.checkSameType] at h
  simp only [List.mapM_cons, List.mapM_nil, inputLayout_viewOf hl (i := 0) rfl,
    inputLayout_viewOf hl (i := 1) rfl, ok_bind, pure_eq_ok] at h
  split at h
  · next hs => simpa using hs
  · cases h

theorem layoutFrom_eltwise {id first : PrimitiveId} {padding : Padding} {q : Eltwise}
    (layout : Layout) :
    (⟨id, [first], padding, .eltwise, q⟩ : Primitive ε).layoutFrom [layout, layout] =
      .ok (layout.withPadding padding) := by
  have hl : [layout, layout].length =
      (⟨id, [first], padding, .eltwise, q⟩ : Primitive ε).dependencies.length := rfl
  have hi := inputLayout_viewOf hl (i := 0) rfl
  have hj := inputLayout_viewOf hl (i := 1) rfl
  change (NodeView.checkSameShape _ [0, 1] >>= fun _ => NodeView.checkSameType _ [0, 1] >>= fun _ =>
    NodeView.firstInputLayout _ "eltwise") = _
  rw [NodeView.checkSameShape_self hi hj, ok_bind, NodeView.checkSameType_self hi hj, ok_bind]
  rfl

theorem ofFault_eq_ok {α : Type} {v : NodeView} {x : Except LayoutFault α} {a : α}
    (h : v.ofFault x = .ok a) : x = .ok a := by
  cases x with
  | ok b => exact congrArg Except.ok (Except.ok.inj h)
  | error fault => cases h

theorem outputLayout_of_detection {id : PrimitiveId} {ids : List PrimitiveId} {padding : Padding}
    {q : DetectionParameters} {location confidence prior layout : Layout}
    (hl : [location, confidence, prior].length = (⟨id, ids, padding, .detectionOutput, q⟩ :
      Primitive ε).dependencies.length)
    (hf : (⟨id, ids, padding, .detectionOutput, q⟩ : Primitive ε).layoutFrom
      [location, confidence, prior] = .ok layout) :
    q.outputLayout location confidence prior padding = .ok layout := by
  obtain ⟨a, ha, hf⟩ := bind_eq_ok_iff.1 hf
  obtain ⟨b, hb, hf⟩ := bind_eq_ok_iff.1 hf
  obtain ⟨c, hc, hf⟩ := bind_eq_ok_iff.1 hf
  obtain rfl := Except.ok.inj (ha.symm.trans (inputLayout_viewOf hl rfl))
  obtain rfl := Except.ok.inj (hb.symm.trans (inputLayout_viewOf hl rfl))
  obtain rfl := Except.ok.inj (hc.symm.trans (inputLayout_viewOf hl rfl))
  exact ofFault_eq_ok hf

end Primitive

end InferenceGraph
