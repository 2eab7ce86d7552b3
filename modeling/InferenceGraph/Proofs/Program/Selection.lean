import InferenceGraph.Proofs.Order.Needed
import InferenceGraph.Proofs.Program.Arrangement
import InferenceGraph.Proofs.Topology.Graph

set_option autoImplicit false

namespace InferenceGraph

variable {ε : Type} [Extension ε]

namespace Topology

/-- What a compilation with these options gives out: everything, or the requested primitives, or
those that nothing depends on. -/
def Exposed (t : Topology ε) (o : CompileOptions) (id : PrimitiveId) : Prop :=
  match o.outputs, o.exposeAll with
  | _, true => id ∈ t.ids
  | some targets, false => id ∈ targets
  | none, false => id ∈ t.ids ∧ ∀ user, ¬ t.DependsOn user id

def Requestable (t : Topology ε) (o : CompileOptions) : Prop :=
  ∀ targets, o.outputs = some targets → ∀ id ∈ targets, id ∈ t.ids

theorem Exposed.kept {t : Topology ε} {o : CompileOptions} {id : PrimitiveId}
    (h : t.Exposed o id) : t.Kept o id := by
  obtain ⟨outputs, exposeAll⟩ := o
  cases outputs with
  | none => cases exposeAll with
    | false => exact h.1
    | true => exact h
  | some targets => cases exposeAll with
    | false => exact ⟨id, h, .refl⟩
    | true => exact h

theorem Closed.mem_ids {t : Topology ε} (hc : t.Closed) {a b : PrimitiveId} (ha : a ∈ t.ids)
    (h : Relation.ReflTransGen t.DependsOn a b) : b ∈ t.ids := by
  induction h with
  | refl => exact ha
  | tail _ hd _ =>
    obtain ⟨p, hp, -, hd⟩ := hd
    exact hc p hp _ hd

theorem Kept.mem_ids {t : Topology ε} {o : CompileOptions} {id : PrimitiveId} (hc : t.Closed)
    (hr : t.Requestable o) (h : t.Kept o id) : id ∈ t.ids := by
  obtain ⟨outputs, exposeAll⟩ := o
  cases outputs with
  | none => exact h
  | some targets => cases exposeAll with
    | false =>
      obtain ⟨target, ht, hw⟩ := h
      exact hc.mem_ids (hr targets rfl target ht) hw
    | true => exact h

theorem Kept.dependency {t : Topology ε} {o : CompileOptions} {a b : PrimitiveId} (hc : t.Closed)
    (h : t.Kept o a) (hd : t.DependsOn a b) : t.Kept o b := by
  have hb : b ∈ t.ids := by
    obtain ⟨p, hp, -, hd⟩ := hd
    exact hc p hp b hd
  obtain ⟨outputs, exposeAll⟩ := o
  cases outputs with
  | none => exact hb
  | some targets => cases exposeAll with
    | false =>
      obtain ⟨target, ht, hw⟩ := h
      exact ⟨target, ht, hw.tail hd⟩
    | true => exact hb

end Topology

namespace Program

variable {t : Topology ε} {p : Program ε} {o : CompileOptions}

theorem Linked.nodeIndex_eq_ok_iff (h : p.Linked t) {id : PrimitiveId} {i : Nat} :
    p.nodeIndex id = .ok i ↔ p.ids[i]? = some id := by
  rw [← h.index_iff, nodeIndex]
  cases p.nodeIndex? id <;> simp

theorem Linked.nodeIndex_eq_error (h : p.Linked t) {id : PrimitiveId} {e : GraphError}
    (he : p.nodeIndex id = .error e) : id ∉ p.ids ∧ e = .unknownPrimitive id := by
  constructor
  · intro hm
    obtain ⟨i, hi⟩ := List.mem_iff_getElem?.1 hm
    rw [h.nodeIndex_eq_ok_iff.2 hi] at he
    cases he
  · rw [nodeIndex] at he
    cases hi : p.nodeIndex? id with
    | some i => simp [hi] at he
    | none =>
      rw [hi] at he
      exact (Except.error.inj he).symm

theorem requested_ok (h : p.Linked t) {ids : List PrimitiveId} {outputs : List Nat}
    (hr : p.requested ids = .ok outputs) :
    outputs.Nodup ∧ (∀ i, i ∈ outputs ↔ ∃ id ∈ ids, p.ids[i]? = some id) ∧
      ∀ id ∈ ids, id ∈ p.ids := by
  rw [requested] at hr
  cases hm : ids.mapM p.nodeIndex with
  | error e => simp [hm] at hr
  | ok numbers =>
    rw [hm, ok_bind, pure_eq_ok, Except.ok.injEq] at hr
    subst hr
    refine ⟨nodup_eraseDups numbers, fun i => ?_, fun id hid => ?_⟩
    · rw [List.mem_eraseDups]
      constructor
      · intro hi
        obtain ⟨id, hid, hf⟩ := exists_source_of_mapM hm hi
        exact ⟨id, hid, h.nodeIndex_eq_ok_iff.1 hf⟩
      · rintro ⟨id, hid, hi⟩
        obtain ⟨j, hj, hf⟩ := exists_of_mapM hm hid
        rw [h.nodeIndex_eq_ok_iff.2 hi] at hf
        cases hf
        exact hj
    · obtain ⟨i, -, hf⟩ := exists_of_mapM hm hid
      exact List.mem_of_getElem? (h.nodeIndex_eq_ok_iff.1 hf)

theorem map_requested (h : p.Linked t) {ids : List PrimitiveId} {outputs : List Nat}
    (hr : p.requested ids = .ok outputs) :
    outputs.map (p.ids[·]?) = ids.eraseDups.map some := by
  obtain ⟨numbers, hm, hr⟩ := bind_eq_ok_iff.1 hr
  obtain rfl := Except.ok.inj hr
  have hn : ids.map p.nodeIndex? = numbers.map some :=
    (mapM_eq_ok_iff_of_option fun id i => by
      rw [h.nodeIndex_eq_ok_iff, h.index_iff]).1 hm
  exact eraseDups_map_some (fun i j id hi hj => h.getElem?_injective hi hj)
    (map_inverse (fun id i => (h.index_iff id i).1) hn)

theorem requested_error (h : p.Linked t) {ids : List PrimitiveId} {e : GraphError}
    (hr : p.requested ids = .error e) : ∃ id ∈ ids, id ∉ p.ids ∧ e = .unknownPrimitive id := by
  rw [requested] at hr
  cases hm : ids.mapM p.nodeIndex with
  | ok numbers => simp [hm] at hr
  | error e' =>
    rw [hm, error_bind, Except.error.injEq] at hr
    subst hr
    obtain ⟨before, id, after, rfl, -, hid⟩ := mapM_eq_error hm
    exact ⟨id, by simp, h.nodeIndex_eq_error hid⟩

/-- What is selected from a program that has a node for every primitive. -/
structure Selected (t : Topology ε) (o : CompileOptions) (p : Program ε)
    (outputs keep : List Nat) : Prop where
  nodup : outputs.Nodup
  mem_outputs_iff : ∀ i, i ∈ outputs ↔ ∃ id, p.ids[i]? = some id ∧ t.Exposed o id
  mem_keep_iff : ∀ i, i ∈ keep ↔ ∃ id, p.ids[i]? = some id ∧ t.Kept o id

variable {outputs keep : List Nat}

theorem Linked.users_isEmpty_iff (h : p.Linked t) (hids : p.ids = t.ids) {i : Nat} {n : Node ε}
    (hn : p.nodes[i]? = some n) :
    n.users.isEmpty = true ↔ ∀ user, ¬ t.DependsOn user n.id := by
  have hi : p.ids[i]? = some n.id := by simp [getElem?_ids, hn]
  rw [List.isEmpty_iff, List.eq_nil_iff_forall_not_mem]
  constructor
  · intro hu user hd
    obtain ⟨k, hk⟩ := List.mem_iff_getElem?.1 (hids ▸ hd.mem_ids)
    obtain ⟨d, hd, hkd⟩ := h.edge_of_dependsOn hk hd
    obtain rfl := h.getElem?_injective hi hd
    exact hu k (((h.users i n hn).2 k).2 (mem_dependenciesOf_edges_iff.1 hkd))
  · intro hu k hk
    obtain ⟨m, hm, hd⟩ := ((h.users i n hn).2 k).1 hk
    have hk : p.ids[k]? = some m.id := by simp [getElem?_ids, hm]
    obtain ⟨b, hb, hd⟩ := h.dependsOn_of_edge hk (mem_dependenciesOf_edges_iff.2 ⟨m, hm, hd⟩)
    rw [hi] at hb
    cases hb
    exact hu m.id hd

theorem mem_range_size_iff (hids : p.ids = t.ids) {i : Nat} :
    i ∈ List.range p.size ↔ ∃ id, p.ids[i]? = some id ∧ id ∈ t.ids := by
  rw [List.mem_range, ← p.length_ids]
  constructor
  · intro hi
    exact ⟨_, List.getElem?_eq_getElem hi, hids ▸ List.getElem_mem hi⟩
  · rintro ⟨id, hi, -⟩
    exact (List.getElem?_eq_some_iff.1 hi).1

theorem mem_unused_iff (h : p.Linked t) (hids : p.ids = t.ids) {i : Nat} :
    (i ∈ (List.range p.size).filter fun i => p.nodes[i]?.any fun n => n.users.isEmpty) ↔
      ∃ id, p.ids[i]? = some id ∧ id ∈ t.ids ∧ ∀ user, ¬ t.DependsOn user id := by
  rw [List.mem_filter, mem_range_size_iff hids]
  constructor
  · rintro ⟨⟨id, hi, hm⟩, hu⟩
    obtain ⟨n, hn, rfl⟩ := getElem?_ids_eq_some_iff.1 hi
    rw [hn, Option.any_some] at hu
    exact ⟨n.id, by simp [getElem?_ids, hn], hm, (h.users_isEmpty_iff hids hn).1 hu⟩
  · rintro ⟨id, hi, hm, hu⟩
    refine ⟨⟨id, hi, hm⟩, ?_⟩
    obtain ⟨n, hn, rfl⟩ := getElem?_ids_eq_some_iff.1 hi
    rw [hn, Option.any_some]
    exact (h.users_isEmpty_iff hids hn).2 hu

theorem mem_needed_edges_iff (h : p.Linked t) {targets : List PrimitiveId}
    (ho : ∀ i, i ∈ outputs ↔ ∃ id ∈ targets, p.ids[i]? = some id)
    (ht : ∀ id ∈ targets, id ∈ p.ids) {i : Nat} : i ∈ Order.needed p.edges outputs ↔
      ∃ id, p.ids[i]? = some id ∧
        ∃ target ∈ targets, Relation.ReflTransGen t.DependsOn target id := by
  have hl : ∀ j ∈ outputs, j < p.edges.length := by
    intro j hj
    obtain ⟨id, -, hid⟩ := (ho j).1 hj
    simpa [edges, ids] using (List.getElem?_eq_some_iff.1 hid).1
  rw [Order.mem_needed_iff ⟨h.resolved, hl⟩]
  constructor
  · rintro ⟨j, hj, hw⟩
    obtain ⟨target, ht, hj⟩ := (ho j).1 hj
    obtain ⟨id, hi, hw⟩ := h.reflTransGen_of_edges hj hw
    exact ⟨id, hi, target, ht, hw⟩
  · rintro ⟨id, hi, target, hm, hw⟩
    obtain ⟨j, hj⟩ := List.mem_iff_getElem?.1 (ht target hm)
    obtain ⟨k, hk, hw⟩ := h.edges_of_reflTransGen hj hw
    obtain rfl := h.getElem?_injective hi hk
    exact ⟨j, (ho j).2 ⟨target, hm, hj⟩, hw⟩

theorem mem_requested_first_iff (ho : ∀ i ∈ outputs, i < p.size) {i : Nat} :
    (i ∈ outputs ++ (List.range p.size).filter fun i => !outputs.contains i) ↔
      i ∈ List.range p.size := by
  rw [List.mem_append, List.mem_filter]
  by_cases hm : i ∈ outputs
  · simp [hm, ho i hm]
  · simp [hm]

theorem nodup_requested_first (hn : outputs.Nodup) :
    (outputs ++ (List.range p.size).filter fun i => !outputs.contains i).Nodup := by
  refine hn.append (List.nodup_range.filter _) fun i hi hj => ?_
  simp [hi] at hj

theorem selection_ok (h : p.Linked t) (hids : p.ids = t.ids)
    (hs : p.selection o = .ok (outputs, keep)) :
    p.Selected t o outputs keep ∧ t.Requestable o := by
  obtain ⟨wanted, exposeAll⟩ := o
  cases wanted with
  | none =>
    refine ⟨?_, fun _ h => by cases h⟩
    cases exposeAll with
    | true =>
      cases hs
      exact ⟨List.nodup_range, fun i => mem_range_size_iff hids, fun i => mem_range_size_iff hids⟩
    | false =>
      cases hs
      exact ⟨List.nodup_range.filter _, fun i => mem_unused_iff h hids,
        fun i => mem_range_size_iff hids⟩
  | some targets =>
    simp only [selection] at hs
    cases hr : p.requested targets with
    | error e => simp [hr] at hs
    | ok requested =>
      obtain ⟨hn, ho, ht⟩ := requested_ok h hr
      refine ⟨?_, fun _ he => by cases he; exact hids ▸ ht⟩
      rw [hr, ok_bind] at hs
      cases exposeAll with
      | true =>
        -- Everything is an output, what was requested first.
        cases hs
        have hlt : ∀ i ∈ requested, i < p.size := fun i hi => by
          obtain ⟨id, -, hi⟩ := (ho i).1 hi
          rw [← p.length_ids]
          exact (List.getElem?_eq_some_iff.1 hi).1
        exact ⟨nodup_requested_first hn,
          fun i => (mem_requested_first_iff hlt).trans (mem_range_size_iff hids),
          fun i => mem_range_size_iff hids⟩
      | false =>
        cases hs
        refine ⟨hn, fun i => ?_, fun i => mem_needed_edges_iff h ho ht⟩
        rw [ho]
        simp [Topology.Exposed, and_comm]

theorem selection_error (h : p.Linked t) (hids : p.ids = t.ids) {e : GraphError}
    (hs : p.selection o = .error e) :
    ∃ targets id, o.outputs = some targets ∧ id ∈ targets ∧ id ∉ t.ids ∧
      e = .unknownPrimitive id := by
  obtain ⟨wanted, exposeAll⟩ := o
  cases wanted with
  | none => cases exposeAll <;> simp [selection] at hs
  | some targets =>
    simp only [selection] at hs
    cases hr : p.requested targets with
    | ok requested => cases exposeAll <;> simp [hr] at hs
    | error e' =>
      obtain ⟨id, hid, hu, rfl⟩ := requested_error h hr
      rw [hr, error_bind, Except.error.injEq] at hs
      exact ⟨targets, id, rfl, hid, hids ▸ hu, hs.symm⟩

/-- Nothing that is kept depends on a node that is not, so the kept nodes can be arranged. -/
theorem Selected.keepable (hs : p.Selected t o outputs keep) (h : p.Linked t) (hc : t.Closed)
    {order : List Nat} (ho : order.Perm (List.range p.size)) :
    p.Keepable (order.filter keep.contains) := by
  have hd : ∀ i ∈ keep, ∀ d ∈ Order.dependenciesOf p.edges i, d ∈ keep := by
    intro i hi d hd
    obtain ⟨a, ha, hk⟩ := (hs.mem_keep_iff i).1 hi
    obtain ⟨b, hb, hab⟩ := h.dependsOn_of_edge ha hd
    exact (hs.mem_keep_iff d).2 ⟨b, hb, hk.dependency hc hab⟩
  have hm : ∀ i, i ∈ order.filter keep.contains ↔ i < p.size ∧ i ∈ keep := by
    intro i
    simp [ho.mem_iff]
  refine ⟨(ho.nodup_iff.2 List.nodup_range).filter _, fun i hi => ?_, fun i hi n hn d hdn => ?_⟩
  · exact ⟨_, List.getElem?_eq_getElem ((hm i).1 hi).1⟩
  · obtain ⟨k, hk, -⟩ := h.exists_dependency (List.mem_of_getElem? hn) hdn
    refine (hm d).2 ⟨(List.getElem?_eq_some_iff.1 hk).1, ?_⟩
    exact hd i ((hm i).1 hi).2 d (mem_dependenciesOf_edges_iff.2 ⟨n, hn, hdn⟩)

end Program

end InferenceGraph
