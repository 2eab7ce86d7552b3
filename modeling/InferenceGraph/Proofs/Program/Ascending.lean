import InferenceGraph.Proofs.Order.Ascending
import InferenceGraph.Proofs.Program.Compiled

set_option autoImplicit false

namespace InferenceGraph

variable {ε : Type} [Extension ε] {r : Registry ε} {t : Topology ε} {o : CompileOptions}

namespace Topology

/-- Every primitive was added after all that it depends on. -/
def Ascending (t : Topology ε) : Prop :=
  ∀ (i : Nat) (p : Primitive ε), t.primitives[i]? = some p →
    ∀ d ∈ p.dependencies, d ∈ t.ids.take i

theorem kept_of_mem_ids (ho : o.outputs = none ∨ o.exposeAll = true) {id : PrimitiveId}
    (hid : id ∈ t.ids) : t.Kept o id := by
  obtain ⟨outputs, exposeAll⟩ := o
  cases exposeAll with
  | true => cases outputs <;> exact hid
  | false =>
    obtain rfl : outputs = none := by simpa using ho
    exact hid

end Topology

namespace Program

variable {p q : Program ε} {kept outputs : List Nat}

theorem Linked.ordered_of_ascending (h : p.Linked t)
    (hp : p.nodes.map Node.primitive = t.primitives) (ha : t.Ascending) : p.Ordered := by
  intro i n hn d hd
  obtain ⟨m, hm, hid⟩ := h.exists_dependency (List.mem_of_getElem? hn) hd
  have hmem := ha i n.primitive (by simp [← hp, hn]) m.id hid
  rw [← ids_of_primitives hp] at hmem
  obtain ⟨j, hj⟩ := List.mem_iff_getElem?.1 hmem
  obtain ⟨hlt, hj⟩ : j < i ∧ p.ids[j]? = some m.id := by simpa [List.getElem?_take] using hj
  obtain rfl := h.getElem?_injective hj (getElem?_ids_eq_some_iff.2 ⟨m, hm, rfl⟩)
  exact hlt

theorem Linked.ascending_of_ordered (h : p.Linked t)
    (hp : p.nodes.map Node.primitive = t.primitives) (ho : p.Ordered) : t.Ascending := by
  intro i q hq id hid
  rw [← hp, List.getElem?_map, Option.map_eq_some_iff] at hq
  obtain ⟨n, hn, rfl⟩ := hq
  have hs := List.mem_map_of_mem (f := some) hid
  rw [← h.dependencies n (List.mem_of_getElem? hn)] at hs
  obtain ⟨d, hd, hs⟩ := List.mem_map.1 hs
  rw [← ids_of_primitives hp]
  refine List.mem_iff_getElem?.2 ⟨d, ?_⟩
  rw [List.getElem?_take_of_lt (ho i n hn d hd), hs]

theorem Ordered.order_eq (h : p.Ordered) : p.order = .ok (List.range p.size) := by
  have ha : Order.Ascending p.edges := by
    intro i es hes
    rw [edges, List.getElem?_map, Option.map_eq_some_iff] at hes
    obtain ⟨n, hn, rfl⟩ := hes
    exact h i n hn
  rw [Program.order, ha.ofEdges_eq, length_edges]

theorem SortedTo.primitives_sublist (h : p.SortedTo t o kept outputs q) (ho : p.Ordered) :
    (q.nodes.map Node.primitive).Sublist (p.nodes.map Node.primitive) := by
  obtain ⟨order, horder, hkept⟩ := h.order
  obtain rfl := Except.ok.inj (ho.order_eq.symm.trans horder)
  have hall : (List.range p.size).filterMap (fun old => p.nodes[old]?.map Node.primitive) =
      p.nodes.map Node.primitive := by
    refine filterMap_eq_of_map (List.ext_getElem? fun i => ?_)
    rcases Nat.lt_or_ge i p.size with hi | hi
    · simp [hi, List.getElem?_eq_getElem (show i < p.nodes.length from hi)]
    · simp [hi, List.getElem?_eq_none (show p.nodes.length ≤ i from hi)]
  rw [h.arranged.primitives_eq h.keepable, ← hall]
  exact hkept.filterMap _

variable [DecidableEq ε]

theorem primitives_sublist_of_ascending (ha : t.Ascending) (h : ofTopology r t o = .ok p) :
    (p.nodes.map Node.primitive).Sublist t.primitives := by
  obtain ⟨first, second, kept, outputs, hp⟩ := passes_of_ofTopology h
  have hprimitives := primitives_of_initial hp.initial
  have ho := (linked_of_initial hp.initial).ordered_of_ascending hprimitives ha
  rw [hp.inferredTo.primitives_eq, ← hprimitives]
  exact hp.sortedTo.primitives_sublist ho

theorem primitives_perm (h : ofTopology r t o = .ok p) (hall : ∀ id ∈ t.ids, t.Kept o id) :
    (p.nodes.map Node.primitive).Perm t.primitives := by
  have hl := (ready_of_ofTopology h).linked
  have hn : (p.nodes.map Node.primitive).Nodup :=
    .of_map Primitive.id (p.ids_eq_map_primitives ▸ hl.nodup_ids)
  refine (List.perm_ext_iff_of_nodup hn (.of_map Primitive.id t.ids_nodup)).2 fun q => ?_
  constructor
  · intro hq
    obtain ⟨n, hn, rfl⟩ := List.mem_map.1 hq
    exact hl.primitive n hn
  · intro hq
    have hid := (ids_iff_of_ofTopology h).2 (hall q.id (List.mem_map_of_mem hq))
    obtain ⟨n, hn, hid⟩ := List.mem_map.1 hid
    exact List.mem_map.2 ⟨n, hn, Topology.eq_of_id_eq (hl.primitive n hn) hq hid⟩

theorem primitives_eq_of_ascending (ha : t.Ascending) (h : ofTopology r t o = .ok p)
    (hall : ∀ id ∈ t.ids, t.Kept o id) : p.nodes.map Node.primitive = t.primitives :=
  (primitives_sublist_of_ascending ha h).eq_of_length (primitives_perm h hall).length_eq

end Program

end InferenceGraph
