import InferenceGraph.Host.Kernel
import InferenceGraph.Proofs.Buffer
import InferenceGraph.Proofs.Topology.Values

set_option autoImplicit false

namespace InferenceGraph

namespace Store

/-- What is behind a handle, with the layout of the handle. -/
def placed? (s : Store) (m : Memory) : Option Placed :=
  (s.values? m).map fun values => (m.layout, values)

/-- The values are written through a handle, and everything else is as before. -/
def Written (s : Store) (m : Memory) (values : List Float32) (s' : Store) : Prop :=
  ∃ b c, s.hostBuffer? m = some b ∧ b.write values = .ok c ∧ s' = s.setCells m c.cells

variable {s s' : Store} {m m' : Memory} {values : List Float32}

theorem length_of_values? (h : s.values? m = some values) : values.length = m.layout.count := by
  obtain ⟨b, hb, hv⟩ := Option.bind_eq_some_iff.1 h
  rw [toOption_eq_some_iff] at hv
  rw [← layout_of_hostBuffer? hb]
  exact HostBuffer.length_of_read hv

theorem type_of_values? (h : s.values? m = some values) : m.layout.type = .float32 := by
  obtain ⟨b, hb, hv⟩ := Option.bind_eq_some_iff.1 h
  rw [toOption_eq_some_iff] at hv
  rw [← layout_of_hostBuffer? hb]
  exact (HostBuffer.read_eq_ok_iff.1 hv).1

theorem exists_values? {b : HostBuffer} (hb : s.hostBuffer? m = some b) (hs : b.Sized)
    (ht : m.layout.type = .float32) : ∃ values, s.values? m = some values := by
  obtain ⟨values, hv⟩ := hs.exists_read (layout_of_hostBuffer? hb ▸ ht)
  exact ⟨values, by rw [Store.values?, hb, Option.bind_some, hv]; rfl⟩

theorem Written.hostBuffer?_of_ne (h : s.Written m values s') (hne : m.place ≠ m'.place) :
    s'.hostBuffer? m' = s.hostBuffer? m' := by
  obtain ⟨b, c, -, -, rfl⟩ := h
  exact hostBuffer?_setCells_of_ne hne c.cells

theorem Written.values?_of_ne (h : s.Written m values s') (hne : m.place ≠ m'.place) :
    s'.values? m' = s.values? m' := by
  rw [Store.values?, Store.values?, h.hostBuffer?_of_ne hne]

theorem Written.exists_buffer (h : s.Written m values s') :
    ∃ b c, s.hostBuffer? m = some b ∧ b.write values = .ok c ∧ s'.hostBuffer? m = some c := by
  obtain ⟨b, c, hb, hw, rfl⟩ := h
  refine ⟨b, c, hb, hw, ?_⟩
  rw [hostBuffer?_setCells_self hb, ← layout_of_hostBuffer? hb, ← HostBuffer.layout_of_write hw]

theorem Written.values? (h : s.Written m values s')
    (hs : ∀ b, s.hostBuffer? m = some b → b.Sized) : s'.values? m = some values := by
  obtain ⟨b, c, hb, hw, hc⟩ := h.exists_buffer
  rw [Store.values?, hc, Option.bind_some, (hs b hb).read_of_write hw]
  rfl

theorem Written.eq_of_values? {read : List Float32} (h : s.Written m values s')
    (hr : s'.values? m = some read) : read = values := by
  obtain ⟨b, c, -, hw, hc⟩ := h.exists_buffer
  rw [Store.values?, hc, Option.bind_some, toOption_eq_some_iff] at hr
  exact HostBuffer.eq_of_read_of_write hw hr

theorem exists_written {b : HostBuffer} (hb : s.hostBuffer? m = some b)
    (ht : m.layout.type = .float32) (hl : values.length = m.layout.count) :
    ∃ s', s.Written m values s' := by
  rw [← layout_of_hostBuffer? hb] at ht hl
  exact ⟨_, b, _, hb, HostBuffer.write_eq_ok_iff.2 ⟨hl, ht, rfl⟩, rfl⟩

theorem Written.fits (h : s.Written m values s') :
    m.layout.type = .float32 ∧ values.length = m.layout.count := by
  obtain ⟨b, c, hb, hw, -⟩ := h
  obtain ⟨hl, ht, -⟩ := HostBuffer.write_eq_ok_iff.1 hw
  rw [layout_of_hostBuffer? hb] at ht hl
  exact ⟨ht, hl⟩

end Store

variable {ε : Type} [Extension ε] {b : BoundNode ε} {s s' : Store}

namespace BoundNode

theorem readValues_eq_ok_iff {m : Memory} {values : List Float32} :
    b.readValues s m = .ok values ↔ s.values? m = some values := by
  unfold readValues hostBuffer Store.values?
  cases hb : s.hostBuffer? m with
  | none => simp [Outcome.fail]
  | some buffer =>
    have hl := Store.layout_of_hostBuffer? hb
    rw [Option.bind_some, toOption_eq_some_iff]
    by_cases ht : m.layout.type = .float32
    · simp [ht]
    · simp [ht, Outcome.fail, HostBuffer.read_eq_ok_iff, hl]

theorem writeOutput_eq_ok_iff {values : List Float32} :
    b.writeOutput s values = .ok s' ↔ s.Written b.output values s' := by
  unfold writeOutput hostBuffer Store.Written
  cases hb : s.hostBuffer? b.output with
  | none => simp [Outcome.fail]
  | some buffer =>
    have hl := Store.layout_of_hostBuffer? hb
    by_cases ht : b.output.layout.type = .float32
    · simp only [ht, if_true, ok_bind, bind_eq_ok_iff, pure_eq_ok, Except.ok.injEq]
      constructor
      · rintro ⟨c, hw, rfl⟩
        exact ⟨buffer, c, rfl, hw, rfl⟩
      · rintro ⟨_, c, he, hw, rfl⟩
        cases he
        exact ⟨c, hw, rfl⟩
    · simp only [ht, if_false, Outcome.fail, error_bind, reduceCtorEq, false_iff]
      rintro ⟨_, c, he, hw, -⟩
      cases he
      exact ht (hl ▸ (HostBuffer.write_eq_ok_iff.1 hw).2.1)

def Reads (b : BoundNode ε) (s : Store) (inputs : List Placed) : Prop :=
  b.inputs.map s.placed? = inputs.map some

theorem Reads.getElem? {inputs : List Placed} (h : b.Reads s inputs) {i : Nat} {x : Placed}
    (hi : inputs[i]? = some x) :
    ∃ m, b.inputs[i]? = some m ∧ m.layout = x.1 ∧ s.values? m = some x.2 := by
  have hm := congrArg (·[i]?) h
  simp only [List.getElem?_map, hi, Option.map_some, Option.map_eq_some_iff] at hm
  obtain ⟨m, hm, hp⟩ := hm
  obtain ⟨values, hv, rfl⟩ := Option.map_eq_some_iff.1 hp
  exact ⟨m, hm, rfl, hv⟩

theorem Reads.readInput {inputs : List Placed} (h : b.Reads s inputs) {i : Nat} {x : Placed}
    (hi : inputs[i]? = some x) : b.readInput s i = .ok x.2 := by
  obtain ⟨m, hm, -, hv⟩ := h.getElem? hi
  rw [BoundNode.readInput, hm, Outcome.get_some, ok_bind]
  exact readValues_eq_ok_iff.2 hv

theorem Reads.length_values {inputs : List Placed} (h : b.Reads s inputs) {i : Nat} {x : Placed}
    (hi : inputs[i]? = some x) : x.2.length = x.1.count := by
  obtain ⟨m, -, hl, hv⟩ := h.getElem? hi
  rw [← hl]
  exact Store.length_of_values? hv

end BoundNode

namespace Kernel

variable [DecidableEq ε]

def ofKind : Kind ε → Kernel ε
  | .inputLayout => inputLayout
  | .activation => activation
  | .eltwise => eltwise
  | .detectionOutput => detectionOutput
  | .reorder => reorder
  | .custom _ => fun b _ => .fail (.missingKernel b.kindName)

theorem lookup_builtins {k : Kind ε} (h : k.isBuiltin = true) :
    (builtins : List (String × Kernel ε)).lookup k.name = some (ofKind k) := by
  cases k with
  | custom e => simp [Kind.isBuiltin] at h
  | _ => rfl

variable {data : InputData} {inputs : List Placed} {layout : Layout}

theorem params_eq_ok (k : Kind ε) (q : k.Params) {id : PrimitiveId} {ids : List PrimitiveId}
    {padding : Padding} (h : b.node.primitive = ⟨id, ids, padding, k, q⟩) : b.params k = .ok q := by
  rw [BoundNode.params, h]
  simp [Primitive.paramsAs?]

section Equations

variable {id : PrimitiveId} {ids : List PrimitiveId} {padding : Padding} {x y z : Placed}

theorem activation_eq {q : Activation}
    (h : b.node.primitive = ⟨id, ids, padding, .activation, q⟩) (hr : b.Reads s [x]) :
    activation b s = b.writeOutput s (x.2.map q.apply) := by
  unfold activation
  rw [params_eq_ok .activation q h]
  change (b.readInput s 0 >>= fun values => b.writeOutput s (values.map q.apply)) = _
  rw [hr.readInput rfl, ok_bind]

theorem reorder_eq {q : Reorder} (h : b.node.primitive = ⟨id, ids, padding, .reorder, q⟩)
    (hr : b.Reads s [x]) : reorder b s = b.writeOutput s x.2 := by
  unfold reorder
  rw [params_eq_ok .reorder q h]
  change (b.readInput s 0 >>= fun values => b.writeOutput s values) = _
  rw [hr.readInput rfl, ok_bind]

theorem eltwise_eq {q : Eltwise} (h : b.node.primitive = ⟨id, ids, padding, .eltwise, q⟩)
    (hr : b.Reads s [x, y]) (hl : x.2.length = y.2.length) :
    eltwise b s = b.writeOutput s (List.zipWith q.apply x.2 y.2) := by
  unfold eltwise
  rw [params_eq_ok .eltwise q h]
  change (b.readInput s 0 >>= fun left => b.readInput s 1 >>= fun right =>
    if left.length = right.length then b.writeOutput s (List.zipWith q.apply left right)
    else .breach .unequalLengths) = _
  rw [hr.readInput (i := 0) rfl, ok_bind, hr.readInput (i := 1) rfl, ok_bind, if_pos hl]

theorem detectionOutput_eq {q : DetectionParameters}
    (h : b.node.primitive = ⟨id, ids, padding, .detectionOutput, q⟩) (hr : b.Reads s [x, y, z]) :
    detectionOutput b s =
      q.table x.1.size.batch x.2 y.2 z.2 >>= fun rows => b.writeOutput s rows := by
  obtain ⟨m, hm, hl, -⟩ := hr.getElem? (i := 0) rfl
  unfold detectionOutput
  rw [params_eq_ok .detectionOutput q h]
  change (b.readInput s 0 >>= fun location => b.readInput s 1 >>= fun confidence =>
    b.readInput s 2 >>= fun prior => Outcome.get .outOfRange b.inputs[0]? >>= fun m =>
      q.table m.layout.size.batch location confidence prior >>= fun rows =>
        b.writeOutput s rows) = _
  rw [hr.readInput (i := 0) rfl, ok_bind, hr.readInput (i := 1) rfl, ok_bind,
    hr.readInput (i := 2) rfl, ok_bind, hm, Outcome.get_some, ok_bind, hl]

end Equations

/-- A kernel whose inputs can be read writes what its primitive means. -/
theorem ofKind_eq_ok_iff (hb : b.node.primitive.kind.isBuiltin = true)
    (hi : b.node.primitive.kind ≠ .inputLayout) (hv : b.node.primitive.validate = .ok ())
    (hl : inputs.length = b.node.primitive.dependencies.length)
    (hf : b.node.primitive.layoutFrom (inputs.map Prod.fst) = .ok layout)
    (hr : b.Reads s inputs) : ofKind b.node.primitive.kind b s = .ok s' ↔
      ∃ tensor, b.node.primitive.meaning data (inputs.map Placed.tensor) = some tensor ∧
        s.Written b.output tensor.values s' := by
  have hn := hl.trans (Primitive.length_dependencies hb hv)
  rcases hp : b.node.primitive with ⟨id, ids, padding, kind, q⟩
  rw [hp] at hb hi hf hn
  cases kind with
  | custom e => simp [Kind.isBuiltin] at hb
  | inputLayout => exact absurd rfl hi
  | activation =>
    obtain ⟨x, rfl⟩ := List.length_eq_one_iff.1 hn
    rw [ofKind, activation_eq hp hr, BoundNode.writeOutput_eq_ok_iff]
    simp [Primitive.meaning, Placed.tensor]
  | reorder =>
    obtain ⟨x, rfl⟩ := List.length_eq_one_iff.1 hn
    rw [ofKind, reorder_eq hp hr, BoundNode.writeOutput_eq_ok_iff]
    simp [Primitive.meaning, Placed.tensor]
  | eltwise =>
    obtain ⟨x, y, rfl⟩ := List.length_eq_two.1 hn
    obtain ⟨_, hs, -⟩ := bind_eq_ok_iff.1 hf
    have hsize := (Primitive.shape_of_checkSameShape (by simpa [hp] using hl) hs).1
    have hxy : x.2.length = y.2.length := by
      rw [hr.length_values (i := 0) rfl, hr.length_values (i := 1) rfl, Layout.count, Layout.count,
        hsize]
    rw [ofKind, eltwise_eq hp hr hxy, BoundNode.writeOutput_eq_ok_iff]
    simp [Primitive.meaning, Placed.tensor]
  | detectionOutput =>
    obtain ⟨x, y, z, rfl⟩ := List.length_eq_three.1 hn
    obtain ⟨hi, -⟩ := DetectionParameters.counts_of_outputLayout
      (Primitive.outputLayout_of_detection (by simpa [hp] using hl) hf)
    rw [ofKind, detectionOutput_eq hp hr]
    simp only [bind_eq_ok_iff, BoundNode.writeOutput_eq_ok_iff, Primitive.meaning, Placed.tensor,
      List.map_cons, List.map_nil, Option.map_eq_some_iff, exists_exists_and_eq_and]
    exact exists_congr fun rows => and_congr_left fun _ => DetectionParameters.table_eq_ok_iff hi

end Kernel

namespace BoundNode

/-- Whatever else an outcome depends on, it writes to the output or fails. -/
def Writes (b : BoundNode ε) (s : Store) (x : Outcome Store) : Prop :=
  ∀ s', x = .ok s' → ∃ values, s.Written b.output values s'

theorem Writes.bind {α : Type} {x : Outcome α} {f : α → Outcome Store}
    (h : ∀ a, b.Writes s (f a)) : b.Writes s (x >>= f) := by
  intro s' hs
  obtain ⟨a, -, ha⟩ := bind_eq_ok_iff.1 hs
  exact h a s' ha

theorem writes_writeOutput (values : List Float32) : b.Writes s (b.writeOutput s values) :=
  fun _ h => ⟨values, writeOutput_eq_ok_iff.1 h⟩

theorem writes_ofKind [DecidableEq ε] {k : Kind ε} (hk : k ≠ .inputLayout) :
    b.Writes s (Kernel.ofKind k b s) := by
  cases k with
  | inputLayout => exact absurd rfl hk
  | custom e => exact fun _ h => by cases h
  | activation => exact .bind fun _ => .bind fun _ => writes_writeOutput _
  | reorder => exact .bind fun _ => .bind fun _ => writes_writeOutput _
  | eltwise =>
    refine .bind fun _ => .bind fun left => .bind fun right => ?_
    by_cases hl : left.length = right.length
    · rw [if_pos hl]
      exact writes_writeOutput _
    · rw [if_neg hl]
      exact fun _ h => by cases h
  | detectionOutput =>
    exact .bind fun _ => .bind fun _ => .bind fun _ => .bind fun _ => .bind fun _ =>
      .bind fun _ => writes_writeOutput _

end BoundNode

end InferenceGraph
