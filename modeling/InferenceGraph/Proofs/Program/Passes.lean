import InferenceGraph.Proofs.Program.Inference
import InferenceGraph.Proofs.Program.Ordering
import InferenceGraph.Proofs.Program.Selection

set_option autoImplicit false

namespace InferenceGraph.Program

variable {ε : Type} [Extension ε] {r : Registry ε} {t : Topology ε} {o : CompileOptions}
variable {p q : Program ε}

theorem Linked.closed (h : p.Linked t) (hp : p.nodes.map Node.primitive = t.primitives) :
    t.Closed := by
  intro a ha d hd
  rw [← hp] at ha
  obtain ⟨n, hn, rfl⟩ := List.mem_map.1 ha
  have hs := List.mem_map_of_mem (f := some) hd
  rw [← h.dependencies n hn] at hs
  obtain ⟨i, -, hi⟩ := List.mem_map.1 hs
  obtain ⟨m, hm, rfl⟩ := getElem?_ids_eq_some_iff.1 hi
  rw [Topology.ids, ← hp, List.map_map]
  exact List.mem_map_of_mem (List.mem_of_getElem? hm)

theorem ids_of_primitives (hp : p.nodes.map Node.primitive = t.primitives) : p.ids = t.ids := by
  rw [ids_eq_map_primitives, hp, Topology.ids]

theorem Linked.order_error (h : p.Linked t) {f : Failure} (ho : p.order = .error f) :
    ∃ names, f = .error (.graphCycle names) ∧ Order.IsCycle t.DependsOn names := by
  obtain ⟨names, rfl, cycle, hc, hm⟩ := Program.order_error h.resolved ho
  exact ⟨names, rfl, h.isCycle_names hc hm⟩

theorem acyclic_of_order (h : p.Linked t) (hids : p.ids = t.ids) {order : List Nat}
    (ho : p.order = .ok order) : t.Acyclic :=
  h.acyclic_of_edges ((exists_order_iff h.resolved).1 ⟨order, ho⟩) hids

/-- The second stage. The kept nodes stand in processing order. -/
structure SortedTo (t : Topology ε) (o : CompileOptions) (p : Program ε) (kept outputs : List Nat)
    (q : Program ε) : Prop where
  acyclic : t.Acyclic
  requestable : t.Requestable o
  order : ∃ order, p.order = .ok order ∧ kept.Sublist order
  sorted : Order.Sorted (Order.dependenciesOf p.edges) kept
  keepable : p.Keepable kept
  mem_kept_iff : ∀ i, i ∈ kept ↔ ∃ id, p.ids[i]? = some id ∧ t.Kept o id
  selection : ∃ keep, p.selection o = .ok (outputs, keep)
  nodup_outputs : outputs.Nodup
  mem_outputs_iff : ∀ i, i ∈ outputs ↔ ∃ id, p.ids[i]? = some id ∧ t.Exposed o id
  arranged : p.Arranged kept outputs q

theorem SortedTo.mem_ids_iff {kept outputs : List Nat} (h : p.SortedTo t o kept outputs q)
    (hids : p.ids = t.ids) (hc : t.Closed) {id : PrimitiveId} : id ∈ q.ids ↔ t.Kept o id := by
  constructor
  · intro hm
    obtain ⟨i, hi⟩ := List.mem_iff_getElem?.1 hm
    rw [h.arranged.getElem?_ids, Option.bind_eq_some_iff] at hi
    obtain ⟨old, ho, hi⟩ := hi
    obtain ⟨id', hid, hk⟩ := (h.mem_kept_iff old).1 (List.mem_of_getElem? ho)
    rw [hi] at hid
    exact Option.some.inj hid ▸ hk
  · intro hk
    obtain ⟨old, hold⟩ := List.mem_iff_getElem?.1 (hids ▸ hk.mem_ids hc h.requestable)
    obtain ⟨i, hi⟩ := List.mem_iff_getElem?.1 ((h.mem_kept_iff old).2 ⟨id, hold, hk⟩)
    have hq : q.ids[i]? = some id := by rw [h.arranged.getElem?_ids, hi, Option.bind_some, hold]
    exact List.mem_of_getElem? hq

section Sorted

variable (h : p.Linked t) (hp : p.nodes.map Node.primitive = t.primitives)
include h hp

theorem arrange_selected {order outputs keep : List Nat} (ho : p.order = .ok order)
    (hs : p.selection o = .ok (outputs, keep)) :
    ∃ q kept, p.arrange order keep outputs = .ok q ∧ p.SortedTo t o kept outputs q := by
  have hids := ids_of_primitives hp
  obtain ⟨hperm, hsorted⟩ := order_ok h.resolved ho
  have hselection : ∃ keep, p.selection o = .ok (outputs, keep) := ⟨keep, hs⟩
  obtain ⟨hs, hr⟩ := selection_ok h hids hs
  have hk := hs.keepable h (h.closed hp) hperm
  obtain ⟨q, hq, ha⟩ := arrange_ok order keep outputs hk
  refine ⟨q, _, hq, acyclic_of_order h hids ho, hr, ⟨order, ho, List.filter_sublist⟩,
    hsorted.filter fun i hm d hd => ?_, hk, fun i => ?_, hselection, hs.nodup, hs.mem_outputs_iff,
    ha⟩
  · obtain ⟨n, hn, hd⟩ := mem_dependenciesOf_edges_iff.1 hd
    exact (List.mem_filter.1 (hk.closed i hm n hn d hd)).2
  · rw [← hs.mem_keep_iff]
    simp only [List.mem_filter, hperm.mem_iff, List.mem_range, List.contains_iff_mem]
    refine ⟨And.right, fun hm => ⟨?_, hm⟩⟩
    obtain ⟨id, hid, -⟩ := (hs.mem_keep_iff i).1 hm
    simpa using (List.getElem?_eq_some_iff.1 hid).1

theorem sortedTo_of_sorted (hq : p.sorted o = .ok q) :
    ∃ kept outputs, p.SortedTo t o kept outputs q := by
  obtain ⟨order, ho, hq⟩ := Outcome.bind_eq_ok_iff.1 hq
  obtain ⟨⟨outputs, keep⟩, hs, hq⟩ := Outcome.bind_eq_ok_iff.1 hq
  rw [Outcome.ofExcept_eq_ok_iff] at hs
  obtain ⟨q', kept, hq', hto⟩ := arrange_selected h hp ho hs
  obtain rfl := Except.ok.inj (hq'.symm.trans hq)
  exact ⟨kept, outputs, hto⟩

theorem sorted_error {f : Failure} (hf : p.sorted o = .error f) :
    (∃ names, f = .error (.graphCycle names) ∧ Order.IsCycle t.DependsOn names) ∨
      t.Acyclic ∧ ∃ targets id, o.outputs = some targets ∧ id ∈ targets ∧ id ∉ t.ids ∧
        f = .error (.unknownPrimitive id) := by
  have hids := ids_of_primitives hp
  obtain hf | ⟨order, ho, hf⟩ := bind_eq_error_iff.1 hf
  · exact .inl (h.order_error hf)
  · obtain hf | ⟨⟨outputs, keep⟩, hs, hf⟩ := bind_eq_error_iff.1 hf
    · obtain ⟨e, hs, rfl⟩ := Outcome.ofExcept_eq_error_iff.1 hf
      obtain ⟨targets, id, hout, hid, hm, rfl⟩ := selection_error h hids hs
      exact .inr ⟨acyclic_of_order h hids ho, targets, id, hout, hid, hm, rfl⟩
    · rw [Outcome.ofExcept_eq_ok_iff] at hs
      obtain ⟨q, kept, hq, -⟩ := arrange_selected h hp ho hs
      cases hq.symm.trans hf

end Sorted

variable [DecidableEq ε]

/-- The programs after the three stages, with the nodes of the first that are kept and those that
are outputs. -/
structure Passes (r : Registry ε) (t : Topology ε) (o : CompileOptions)
    (first second last : Program ε) (kept outputs : List Nat) : Prop where
  initial : initial r t = .ok first
  sortedTo : first.SortedTo t o kept outputs second
  inferredTo : second.InferredTo second.size last

theorem SortedTo.created {kept outputs : List Nat} (hi : initial r t = .ok p)
    (h : p.SortedTo t o kept outputs q) : ∀ n ∈ q.nodes, n.Created r := by
  intro n hn
  obtain ⟨i, hn⟩ := List.mem_iff_getElem?.1 hn
  obtain ⟨old, m, -, hm, rfl⟩ := h.arranged.exists_old hn
  obtain ⟨htype, hkind, hvalid, hlayout⟩ := created_of_initial hi m (List.mem_of_getElem? hm)
  exact ⟨htype, hkind, hvalid, hlayout⟩

theorem SortedTo.kind_eq {kept outputs : List Nat} (hi : initial r t = .ok p)
    (h : p.SortedTo t o kept outputs q) : ∀ n ∈ q.nodes, n.type.kind = n.primitive.kind :=
  fun n hn => (h.created hi n hn).kind

theorem passes_of_ofTopology (h : ofTopology r t o = .ok q) :
    ∃ first second kept outputs, Passes r t o first second q kept outputs := by
  obtain ⟨first, hi, h⟩ := Outcome.bind_eq_ok_iff.1 h
  obtain ⟨second, hs, h⟩ := Outcome.bind_eq_ok_iff.1 h
  obtain ⟨kept, outputs, hto⟩ :=
    sortedTo_of_sorted (linked_of_initial hi) (primitives_of_initial hi) hs
  exact ⟨first, second, kept, outputs, hi, hto,
    inferredTo_of_infer (hto.arranged.ordered hto.sorted) (hto.kind_eq hi) h⟩

namespace Passes

variable {first second last : Program ε} {kept outputs : List Nat}
variable (h : Passes r t o first second last kept outputs)
include h

theorem ids_iff {id : PrimitiveId} : id ∈ last.ids ↔ t.Kept o id := by
  have hp := primitives_of_initial h.initial
  rw [h.inferredTo.ids_eq]
  exact h.sortedTo.mem_ids_iff (ids_of_primitives hp) ((linked_of_initial h.initial).closed hp)

theorem mem_outputs_iff {i : Nat} {id : PrimitiveId} (hi : last.ids[i]? = some id) :
    i ∈ last.outputs ↔ t.Exposed o id := by
  have hto := h.sortedTo
  rw [h.inferredTo.ids_eq, hto.arranged.getElem?_ids, Option.bind_eq_some_iff] at hi
  obtain ⟨old, ho, hid⟩ := hi
  rw [h.inferredTo.outputs, hto.arranged.mem_outputs_iff hto.keepable]
  constructor
  · rintro ⟨old', hm, ho'⟩
    obtain rfl := Option.some.inj (ho.symm.trans ho')
    obtain ⟨id', hid', he⟩ := (hto.mem_outputs_iff old).1 hm
    exact Option.some.inj (hid.symm.trans hid') ▸ he
  · intro he
    exact ⟨old, (hto.mem_outputs_iff old).2 ⟨id, hid, he⟩, ho⟩

theorem map_outputs : last.outputs.map (last.ids[·]?) = outputs.map (first.ids[·]?) := by
  have hto := h.sortedTo
  rw [h.inferredTo.outputs, h.inferredTo.ids_eq]
  refine hto.arranged.map_outputs hto.keepable fun output hm => ?_
  obtain ⟨id, hid, he⟩ := (hto.mem_outputs_iff output).1 hm
  exact (hto.mem_kept_iff output).2 ⟨id, hid, he.kept⟩

theorem linked : last.Linked t :=
  h.inferredTo.linked
    (h.sortedTo.arranged.linked h.sortedTo.keepable (linked_of_initial h.initial))

theorem ordered : last.Ordered :=
  h.inferredTo.ordered (h.sortedTo.arranged.ordered h.sortedTo.sorted)

theorem index_eq : last.index = last.ids.zipIdx := by
  rw [h.inferredTo.index, h.inferredTo.ids_eq, h.sortedTo.arranged.index_eq h.sortedTo.keepable]

theorem typeOfPrimitive_eq {n : Node ε} (hn : n ∈ last.nodes) :
    r.typeOfPrimitive n.primitive = .ok n.type := by
  obtain ⟨i, hi⟩ := List.mem_iff_getElem?.1 hn
  obtain ⟨m, layout, hm, rfl, -⟩ := h.inferredTo.exists_before hi
  exact (h.sortedTo.created h.initial m (List.mem_of_getElem? hm)).type

theorem isOutput_iff {i : Nat} {n : Node ε} (hn : last.nodes[i]? = some n) :
    n.isOutput = true ↔ i ∈ last.outputs := by
  obtain ⟨m, layout, hm, rfl, -⟩ := h.inferredTo.exists_before hn
  rw [h.inferredTo.outputs, ← h.sortedTo.arranged.isOutput_iff h.sortedTo.keepable hm]

theorem nodup_outputs : last.outputs.Nodup := by
  rw [h.inferredTo.outputs]
  exact h.sortedTo.arranged.nodup_outputs h.sortedTo.keepable h.sortedTo.nodup_outputs

theorem outputs_lt {i : Nat} (hi : i ∈ last.outputs) : i < last.size := by
  rw [h.inferredTo.outputs, h.sortedTo.arranged.mem_outputs_iff h.sortedTo.keepable] at hi
  obtain ⟨old, -, ho⟩ := hi
  have hl : last.size = kept.length := by
    rw [← last.length_ids, h.inferredTo.ids_eq, second.length_ids,
      h.sortedTo.arranged.size_eq h.sortedTo.keepable]
  rw [hl]
  exact (List.getElem?_eq_some_iff.1 ho).1

end Passes

end InferenceGraph.Program
