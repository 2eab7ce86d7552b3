import InferenceGraph.Proofs.Program.Compiled

set_option autoImplicit false

namespace InferenceGraph.Program

variable {ε : Type} [Extension ε] {r : Registry ε} {t : Topology ε} {o : CompileOptions}
variable {p : Program ε} {id : PrimitiveId}

namespace Linked

variable (h : p.Linked t)
include h

theorem mem_idsOf_users {i : Nat} {n : Node ε} (hn : p.nodes[i]? = some n) :
    id ∈ p.idsOf n.users ↔ id ∈ p.ids ∧ t.DependsOn id n.id := by
  have hu := (h.users i n hn).2
  rw [idsOf, List.mem_filterMap]
  constructor
  · rintro ⟨user, hm, hid⟩
    obtain ⟨m, hm, hi⟩ := (hu user).1 hm
    have hmem := List.mem_of_getElem? hm
    obtain ⟨m', hm', rfl⟩ := getElem?_ids_eq_some_iff.1 hid
    obtain rfl := Option.some.inj (hm.symm.trans hm')
    refine ⟨List.mem_map_of_mem hmem, m.primitive, h.primitive m hmem, rfl, ?_⟩
    exact (h.mem_dependencies_iff hmem hn).1 hi
  · rintro ⟨hid, q, hq, rfl, hd⟩
    obtain ⟨user, m, hm, he⟩ := exists_node hid
    have hmem := List.mem_of_getElem? hm
    obtain rfl := Topology.eq_of_id_eq (h.primitive m hmem) hq he
    exact ⟨user, (hu user).2 ⟨m, hm, (h.mem_dependencies_iff hmem hn).2 hd⟩,
      getElem?_ids_eq_some_iff.2 ⟨m, hm, rfl⟩⟩

theorem exists_nodeOf (hid : id ∈ p.ids) :
    ∃ i n, p.nodeOf id = .ok (i, n) ∧ p.nodes[i]? = some n ∧ n.id = id := by
  obtain ⟨i, n, hn, he⟩ := exists_node hid
  refine ⟨i, n, ?_, hn, he⟩
  have hi := h.nodeIndex_eq_ok_iff.2 (getElem?_ids_eq_some_iff.2 ⟨n, hn, he⟩)
  rw [nodeOf, hi, Outcome.ofExcept, ok_bind, node, hn, Outcome.get_some]
  rfl

end Linked

/-- The node that the topology has for an id. -/
structure Describes (t : Topology ε) (o : CompileOptions) (p : Program ε) (id : PrimitiveId)
    (n : Node ε) : Prop where
  primitive : t.get? id = some n.primitive
  dependencies : p.idsOf n.dependencies = n.primitive.dependencies
  mem_users_iff : ∀ user, user ∈ p.idsOf n.users ↔ t.Kept o user ∧ t.DependsOn user id
  layout : n.layout? = t.layoutOf id
  isOutput_iff : n.isOutput = true ↔ t.Exposed o id

variable [DecidableEq ε]

theorem exists_described (hb : t.Builtin) (h : ofTopology r t o = .ok p) (hk : t.Kept o id) :
    ∃ i n, p.nodeOf id = .ok (i, n) ∧ Describes t o p id n := by
  obtain ⟨first, second, kept, outputs, hp⟩ := passes_of_ofTopology h
  have hc := compiled_of_ofTopology hb h
  obtain ⟨i, n, hi, hn, rfl⟩ := hc.linked.exists_nodeOf (hp.ids_iff.2 hk)
  have hm := List.mem_of_getElem? hn
  refine ⟨i, n, hi, (t.get?_eq_some_iff n.id n.primitive).2 ⟨hc.linked.primitive n hm, rfl⟩,
    hc.linked.idsOf_dependencies hm, fun user => ?_, ?_, ?_⟩
  · rw [hc.linked.mem_idsOf_users hn, hp.ids_iff]
  · obtain ⟨layout, hl, ht⟩ := hc.layout n hm
    rw [hl, ht]
  · rw [hp.isOutput_iff hn, hp.mem_outputs_iff (getElem?_ids_eq_some_iff.2 ⟨n, hn, rfl⟩)]

end InferenceGraph.Program
