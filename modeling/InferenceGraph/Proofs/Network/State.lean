import InferenceGraph.Network.Execution
import InferenceGraph.Proofs.Layout
import InferenceGraph.Proofs.Program.Compiled

set_option autoImplicit false

namespace InferenceGraph

variable {ε : Type} [Extension ε]

/-- The instance has the number, the id and the edges of this node. -/
structure Instance.Mirrors (i : Instance) (number : Nat) (n : Node ε) : Prop where
  index : i.index = number
  id : i.id = n.id
  dependencies : i.dependencies = n.dependencies

/-- The instance of this node after some inputs were set. -/
structure Instance.Serves (fed : List PrimitiveId) (i : Instance) (number : Nat) (n : Node ε) : Prop
    extends i.Mirrors number n where
  layout : ∃ layout, n.layout? = some layout ∧ layout.same i.output.layout = true
  hasData_iff : i.hasData = true ↔ n.primitive.kind ≠ .inputLayout ∨ n.id ∈ fed

namespace Network

variable {t : Topology ε} {p : Program ε} {fed : List PrimitiveId} {n : Network ε}
variable {allocator : Allocator} {instances instances' : List Instance} {store store' : Store}
variable {k : Nat} {i : Instance} {m : Node ε}

theorem instanceAt_eq (hi : n.instances[k]? = some i) : n.instanceAt k = .ok i := by
  rw [instanceAt, hi, Outcome.get_some]

theorem find?_unset_eq_none (hf : ∀ i ∈ instances, i.hasData = true) :
    (instances.find? fun i => !i.hasData) = none :=
  List.find?_eq_none.2 fun i hi => by simp [hf i hi]

structure Mirrored (p : Program ε) (n : Network ε) : Prop where
  program : n.program = p
  length : n.instances.length = p.size
  mirrors : ∀ (k : Nat) (i : Instance), n.instances[k]? = some i →
    ∃ m : Node ε, p.nodes[k]? = some m ∧ i.Mirrors k m

namespace Mirrored

variable (h : n.Mirrored p)
include h

theorem ids_eq : n.ids = p.ids := by
  refine List.ext_getElem? fun k => ?_
  rw [p.getElem?_ids, ids, List.getElem?_map]
  cases hi : n.instances[k]? with
  | some i =>
    obtain ⟨m, hm, hs⟩ := h.mirrors k i hi
    simp [hm, hs.id]
  | none =>
    rw [List.getElem?_eq_none_iff, h.length] at hi
    simp [List.getElem?_eq_none hi]

variable (hr : p.Ready t) (hi : n.instances[k]? = some i)
include hr hi

theorem dependencies_lt : ∀ dep ∈ i.dependencies, dep < k := by
  obtain ⟨m, hm, hs⟩ := h.mirrors k i hi
  rw [hs.dependencies]
  exact hr.ordered k m hm

theorem exists_bound :
    ∃ b : BoundNode ε, n.bound k = .ok b ∧ b.index = k ∧ p.nodes[k]? = some b.node ∧
      b.output = i.output ∧
        b.inputs.map some =
          i.dependencies.map fun dep => n.instances[dep]?.map Instance.output := by
  obtain ⟨m, hm, hs⟩ := h.mirrors k i hi
  obtain ⟨inputs, hinputs⟩ : ∃ inputs : List Memory,
      i.dependencies.map (fun dep => n.instances[dep]?.map Instance.output) = inputs.map some := by
    refine exists_map_some fun dep hd => ?_
    have hlt := h.dependencies_lt hr hi dep hd
    have hk := (List.getElem?_eq_some_iff.1 hi).1
    exact ⟨_, by rw [List.getElem?_eq_getElem (by omega), Option.map_some]⟩
  have hmap : i.dependencies.mapM (fun dep => return (← n.instanceAt dep).output) = .ok inputs := by
    refine (mapM_eq_ok_iff_of_option fun dep memory => ?_).2 hinputs
    cases hdep : n.instances[dep]? <;> simp [instanceAt, hdep, Outcome.get, Outcome.breach]
  refine ⟨⟨k, m, inputs, i.output⟩, ?_, rfl, hm, rfl, hinputs.symm⟩
  rw [bound, instanceAt_eq hi, ok_bind, h.program, Program.node, hm, Outcome.get_some, ok_bind,
    hmap]
  rfl

end Mirrored

def Serving (p : Program ε) (fed : List PrimitiveId) (instances : List Instance) : Prop :=
  ∀ (k : Nat) (i : Instance), instances[k]? = some i →
    ∃ m : Node ε, p.nodes[k]? = some m ∧ i.Serves fed k m

theorem Serving.snoc (h : Serving p fed instances) (hm : p.nodes[instances.length]? = some m)
    (hi : i.Serves fed instances.length m) : Serving p fed (instances ++ [i]) := by
  intro k j hj
  rcases getElem?_concat_eq_some_iff.1 hj with hj | ⟨rfl, rfl⟩
  · exact h k j hj
  · exact ⟨m, hm, hi⟩

theorem Serving.set (hr : p.Ready t) (h : Serving p fed instances) (hm : p.nodes[k]? = some m)
    (hi : instances[k]? = some i) {layout : Layout} (hl : m.layout? = some layout) {memory : Memory}
    (hs : layout.same memory.layout = true) :
    Serving p (m.id :: fed) (instances.set k { i with output := memory, hasData := true }) := by
  have hlt := (List.getElem?_eq_some_iff.1 hi).1
  intro j x hx
  by_cases he : k = j
  · subst he
    rw [List.getElem?_set_self hlt, Option.some.injEq] at hx
    obtain ⟨m', hm', hserves⟩ := h k i hi
    rw [hm, Option.some.injEq] at hm'
    subst hx hm'
    exact ⟨m, hm, ⟨hserves.index, hserves.id, hserves.dependencies⟩, ⟨layout, hl, hs⟩, by simp⟩
  · rw [List.getElem?_set_ne he] at hx
    obtain ⟨m', hm', hserves⟩ := h j x hx
    have hne : m'.id ≠ m.id := fun hid => he <| hr.linked.getElem?_injective
      (Program.getElem?_ids_eq_some_iff.2 ⟨m, hm, rfl⟩)
      (Program.getElem?_ids_eq_some_iff.2 ⟨m', hm', hid⟩)
    exact ⟨m', hm', hserves.toMirrors, hserves.layout, by simp [hserves.hasData_iff, hne]⟩

variable [DecidableEq ε]

theorem bindNode_ok (hr : p.Ready t)
    (h : bindNode p allocator instances store k = .ok (i, store')) :
    ∃ m, p.nodes[k]? = some m ∧ i.Serves [] k m := by
  obtain ⟨m, hm, h⟩ := bind_eq_ok_iff.1 h
  rw [Program.node, Outcome.get_eq_ok_iff] at hm
  split at h
  · obtain ⟨dep, -, h⟩ := bind_eq_ok_iff.1 h
    cases h
  · obtain ⟨params, -, h⟩ := bind_eq_ok_iff.1 h
    obtain ⟨buffer, -, h⟩ := bind_eq_ok_iff.1 h
    obtain ⟨layout, hl, h⟩ := bind_eq_ok_iff.1 h
    have hlayout : m.layout? = some layout := by
      simpa [Program.outputLayout, Program.node, hm] using hl
    split at h
    · next hs =>
      have hins := Store.layout_insert store buffer
      generalize store.insert buffer = placed at h hins
      cases h
      refine ⟨m, hm, ⟨rfl, rfl, rfl⟩, ⟨layout, hlayout, ?_⟩, ?_⟩
      · rw [Layout.same_comm, hins, hs]
      · simp [← hr.isKind_iff (List.mem_of_getElem? hm)]
    · cases h

theorem serving_of_bindNodes (hr : p.Ready t) {count : Nat} (h : Serving p [] instances)
    (hb : bindNodes p allocator instances store (List.range' instances.length count) =
      .ok (instances', store')) :
    Serving p [] instances' ∧ instances'.length = instances.length + count := by
  induction count generalizing instances store with
  | zero =>
    cases hb
    exact ⟨h, rfl⟩
  | succ count ih =>
    rw [List.range'_succ, bindNodes] at hb
    split at hb
    · next i store hi =>
      obtain ⟨m, hm, hs⟩ := bindNode_ok hr hi
      have hlen : (instances ++ [i]).length = instances.length + 1 := by simp
      rw [← hlen] at hb
      obtain ⟨hserving, hl⟩ := ih (h.snoc hm hs) hb
      exact ⟨hserving, by omega⟩
    · cases hb
    · cases hb

/-- The network is one of this program, and these inputs were set. -/
structure Intact (p : Program ε) (fed : List PrimitiveId) (n : Network ε) : Prop where
  program : n.program = p
  length : n.instances.length = p.size
  serving : Serving p fed n.instances

theorem intact_of_ofProgram (hr : p.Ready t) (h : ofProgram p allocator = .ok n) :
    n.Intact p [] := by
  obtain ⟨⟨instances, store⟩, hb, h⟩ := bind_eq_ok_iff.1 h
  cases h
  have hstart : Serving p [] ([] : List Instance) := by simp [Serving]
  rw [List.range_eq_range'] at hb
  obtain ⟨hs, hl⟩ := serving_of_bindNodes hr hstart hb
  exact ⟨rfl, by simpa using hl, hs⟩

section Run

omit [DecidableEq ε]

variable {σ τ : Type} (n : Network ε) (d : Dispatcher ε σ τ) (s : σ)

@[simp] theorem program_run : (n.run d s).2.1.program = n.program := by
  unfold run
  repeat' split
  all_goals rfl

@[simp] theorem instances_run : (n.run d s).2.1.instances = n.instances := by
  unfold run
  repeat' split
  all_goals rfl

end Run

namespace Intact

variable (h : n.Intact p fed)
include h

omit [DecidableEq ε] in
theorem exists_instance (hm : p.nodes[k]? = some m) :
    ∃ i, n.instances[k]? = some i ∧ i.Serves fed k m := by
  have hlt : k < n.instances.length := by
    rw [h.length]
    exact (List.getElem?_eq_some_iff.1 hm).1
  obtain ⟨m', hm', hs⟩ := h.serving k _ (List.getElem?_eq_getElem hlt)
  rw [hm, Option.some.injEq] at hm'
  exact ⟨_, List.getElem?_eq_getElem hlt, hm' ▸ hs⟩

omit [DecidableEq ε] in
theorem mirrored : n.Mirrored p where
  program := h.program
  length := h.length
  mirrors k i hi := by
    obtain ⟨m, hm, hs⟩ := h.serving k i hi
    exact ⟨m, hm, hs.toMirrors⟩

omit [DecidableEq ε] in
theorem run {σ τ : Type} (d : Dispatcher ε σ τ) (s : σ) : (n.run d s).2.1.Intact p fed :=
  ⟨by simp [h.program], by simp [h.length], by simpa using h.serving⟩

variable (hr : p.Ready t)
include hr

theorem bindInput_eq (hm : p.nodes[k]? = some m) {layout : Layout} (hl : m.layout? = some layout)
    (hi : n.instances[k]? = some i) (source : Source) :
    n.bindInput m.id source =
      if m.primitive.kind = .inputLayout then
        if layout.same source.layout then
          .ok { n with
            instances :=
              n.instances.set k { i with output := (place n.store source).1, hasData := true }
            store := (place n.store source).2 }
        else .fail (.inputLayoutMismatch m.id layout source.layout)
      else .fail (.notAnInput m.id) := by
  simp only [bindInput, h.program, hr.nodeIndex_of_node hm, Outcome.ofExcept, ok_bind, Program.node,
    hm, Outcome.get_some, hr.isKind_iff (List.mem_of_getElem? hm), Program.outputLayout, hl,
    instanceAt_eq hi, pure_eq_ok]

theorem bindInput_unknown {id : PrimitiveId} (hid : id ∉ p.ids) (source : Source) :
    n.bindInput id source = .fail (.unknownPrimitive id) := by
  cases hi : p.nodeIndex id with
  | error e =>
    obtain ⟨-, rfl⟩ := hr.linked.nodeIndex_eq_error hi
    simp only [bindInput, h.program, hi, Outcome.ofExcept, Outcome.fail, error_bind]
  | ok k =>
    obtain ⟨m, hm, rfl⟩ := hr.exists_node_of_nodeIndex hi
    exact absurd (List.mem_map_of_mem (List.mem_of_getElem? hm)) hid

theorem exists_node_of_bindInput {id : PrimitiveId} {source : Source} {n' : Network ε}
    (hb : n.bindInput id source = .ok n') :
    ∃ (k : Nat) (m : Node ε) (layout : Layout), p.nodes[k]? = some m ∧ m.id = id ∧
      m.primitive.kind = .inputLayout ∧ m.layout? = some layout ∧
        layout.same source.layout = true := by
  by_cases hid : id ∈ p.ids
  · obtain ⟨k, m, hm, rfl⟩ := Program.exists_node hid
    obtain ⟨layout, hl⟩ := hr.hasLayout m (List.mem_of_getElem? hm)
    obtain ⟨i, hi, -⟩ := h.exists_instance hm
    rw [h.bindInput_eq hr hm hl hi] at hb
    split at hb
    · next hk =>
      split at hb
      · next hs => exact ⟨k, m, layout, hm, rfl, hk, hl, hs⟩
      · cases hb
    · cases hb
  · rw [h.bindInput_unknown hr hid] at hb
    cases hb

theorem bindInput {id : PrimitiveId} {source : Source} {n' : Network ε}
    (hb : n.bindInput id source = .ok n') : n'.Intact p (id :: fed) := by
  obtain ⟨k, m, layout, hm, rfl, hk, hl, hs⟩ := h.exists_node_of_bindInput hr hb
  obtain ⟨i, hi, -⟩ := h.exists_instance hm
  rw [h.bindInput_eq hr hm hl hi, if_pos hk, if_pos hs] at hb
  cases hb
  refine ⟨h.program, by simpa using h.length, h.serving.set hr hm hi hl ?_⟩
  cases source <;> simpa [place, Source.layout] using hs

end Intact

end Network

end InferenceGraph
