import InferenceGraph.Proofs.Program.Acceptance

set_option autoImplicit false

namespace InferenceGraph.Program

variable {ε : Type} [Extension ε] {r : Registry ε} {t : Topology ε} {o : CompileOptions}
variable {p : Program ε}

structure Ready (t : Topology ε) (p : Program ε) : Prop where
  linked : p.Linked t
  ordered : p.Ordered
  kind : ∀ n ∈ p.nodes, n.type.kind = n.primitive.kind
  hasLayout : ∀ n ∈ p.nodes, ∃ layout, n.layout? = some layout
  outputs_lt : ∀ i ∈ p.outputs, i < p.size
  nodup_outputs : p.outputs.Nodup

structure Compiled (t : Topology ε) (p : Program ε) : Prop extends p.Ready t where
  builtin : t.Builtin
  valid : t.Valid
  acyclic : t.Acyclic
  layout : ∀ n ∈ p.nodes, ∃ layout, n.layout? = some layout ∧ t.layoutOf n.id = some layout

theorem ready_of_ofTopology [DecidableEq ε] (h : ofTopology r t o = .ok p) : p.Ready t := by
  obtain ⟨first, second, kept, outputs, hp⟩ := passes_of_ofTopology h
  have hbefore : ∀ n ∈ p.nodes, ∃ m ∈ second.nodes, ∃ layout,
      n = { m with layout? := some layout } := by
    intro n hn
    obtain ⟨i, hi⟩ := List.mem_iff_getElem?.1 hn
    obtain ⟨m, layout, hm, he, -⟩ := hp.inferredTo.exists_before hi
    exact ⟨m, List.mem_of_getElem? hm, layout, he⟩
  constructor
  case linked => exact hp.linked
  case ordered => exact hp.ordered
  case kind =>
    intro n hn
    obtain ⟨m, hm, layout, rfl⟩ := hbefore n hn
    exact hp.sortedTo.kind_eq hp.initial m hm
  case hasLayout =>
    intro n hn
    obtain ⟨m, -, layout, rfl⟩ := hbefore n hn
    exact ⟨layout, rfl⟩
  case outputs_lt => exact fun i hi => hp.outputs_lt hi
  case nodup_outputs => exact hp.nodup_outputs

theorem outputIds_eq_ok_iff {ids : List PrimitiveId} :
    p.outputIds = .ok ids ↔ p.outputs.map (p.ids[·]?) = ids.map some := by
  refine mapM_eq_ok_iff_of_option fun i name => ?_
  rw [p.getElem?_ids, Program.node]
  cases p.nodes[i]? <;> simp [Outcome.get, Outcome.breach]

namespace Ready

variable (h : p.Ready t) {k : Nat} {m : Node ε} {id : PrimitiveId}
include h

theorem exists_node_of_nodeIndex (hi : p.nodeIndex id = .ok k) :
    ∃ m, p.nodes[k]? = some m ∧ m.id = id := by
  rw [h.linked.nodeIndex_eq_ok_iff] at hi
  exact getElem?_ids_eq_some_iff.1 hi

theorem nodeIndex_of_node (hm : p.nodes[k]? = some m) : p.nodeIndex m.id = .ok k := by
  rw [h.linked.nodeIndex_eq_ok_iff]
  exact getElem?_ids_eq_some_iff.2 ⟨m, hm, rfl⟩

theorem exists_outputIds : ∃ ids, p.outputIds = .ok ids ∧ ids.Nodup := by
  have hid : ∀ i ∈ p.outputs, ∃ id, p.ids[i]? = some id := fun i hi =>
    ⟨_, List.getElem?_eq_getElem (p.length_ids.symm ▸ h.outputs_lt i hi)⟩
  obtain ⟨ids, hm⟩ := exists_map_some hid
  refine ⟨ids, outputIds_eq_ok_iff.2 hm, List.Nodup.of_map some ?_⟩
  rw [← hm]
  refine h.nodup_outputs.map_on fun i hi j _ he => ?_
  obtain ⟨id, hi⟩ := hid i hi
  exact h.linked.getElem?_injective hi (he ▸ hi)

theorem isKind_iff [DecidableEq ε] (hm : m ∈ p.nodes) {kind : Kind ε} :
    m.isKind kind = true ↔ m.primitive.kind = kind := by
  simp [Node.isKind, h.kind m hm]

end Ready

theorem compiled_of_ofTopology [DecidableEq ε] (hb : t.Builtin)
    (h : ofTopology r t o = .ok p) : p.Compiled t := by
  obtain ⟨first, second, kept, outputs, hp⟩ := passes_of_ofTopology h
  have hto := hp.sortedTo
  have hl2 := hto.arranged.linked hto.keepable (linked_of_initial hp.initial)
  have ho2 := hto.arranged.ordered hto.sorted
  refine ⟨ready_of_ofTopology h, hb, valid_of_initial hp.initial, hto.acyclic, ?_⟩
  intro n hn
  obtain ⟨i, hi⟩ := List.mem_iff_getElem?.1 hn
  obtain ⟨m, layout, hm, rfl, -⟩ := hp.inferredTo.exists_before hi
  obtain ⟨layout', hq, hlayout⟩ := hp.inferredTo.hasLayout hl2 ho2 hb hto.acyclic
    (List.getElem?_eq_some_iff.1 hm).1 m hm
  rw [hi] at hq
  cases hq
  exact ⟨layout, rfl, hlayout⟩

section Ids

variable [DecidableEq ε] {id : PrimitiveId}

theorem ids_iff_of_ofTopology (h : ofTopology r t o = .ok p) : id ∈ p.ids ↔ t.Kept o id := by
  obtain ⟨first, second, kept, outputs, hp⟩ := passes_of_ofTopology h
  exact hp.ids_iff

theorem exists_outputIds (h : ofTopology r t o = .ok p) :
    ∃ ids, p.outputIds = .ok ids ∧ ids.Nodup :=
  (ready_of_ofTopology h).exists_outputIds

theorem outputIds_of_requested {targets : List PrimitiveId}
    (h : ofTopology r t ⟨some targets, false⟩ = .ok p) :
    p.outputIds = .ok targets.eraseDups := by
  obtain ⟨first, second, kept, outputs, hp⟩ := passes_of_ofTopology h
  obtain ⟨keep, hs⟩ := hp.sortedTo.selection
  obtain ⟨requested, hr, hs⟩ := bind_eq_ok_iff.1 hs
  cases hs
  rw [outputIds_eq_ok_iff, hp.map_outputs]
  exact map_requested (linked_of_initial hp.initial) hr

theorem outputIds_iff_of_ofTopology (h : ofTopology r t o = .ok p) {ids : List PrimitiveId}
    (ho : p.outputIds = .ok ids) : id ∈ ids ↔ t.Exposed o id := by
  obtain ⟨first, second, kept, outputs, hp⟩ := passes_of_ofTopology h
  have hids : id ∈ ids ↔ ∃ i ∈ p.outputs, p.ids[i]? = some id := by
    rw [← List.mem_map (f := (p.ids[·]?)), outputIds_eq_ok_iff.1 ho,
      List.mem_map_of_injective fun _ _ => Option.some.inj]
  rw [hids]
  constructor
  · rintro ⟨i, hm, hi⟩
    exact (hp.mem_outputs_iff hi).1 hm
  · intro he
    obtain ⟨i, hi⟩ := List.mem_iff_getElem?.1 (hp.ids_iff.2 he.kept)
    exact ⟨i, (hp.mem_outputs_iff hi).2 he, hi⟩

end Ids

namespace Compiled

variable (h : p.Compiled t) {n : Node ε} (hn : n ∈ p.nodes)
include h hn

theorem isBuiltin : n.primitive.kind.isBuiltin = true := h.builtin _ (h.linked.primitive n hn)

theorem validate : n.primitive.validate = .ok () := h.valid _ (h.linked.primitive n hn)

end Compiled

end InferenceGraph.Program
