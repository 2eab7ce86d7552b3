import InferenceGraph.Proofs.Program.Compiled

set_option autoImplicit false

namespace InferenceGraph

variable {ε : Type} [Extension ε] {r : Registry ε} {t : Topology ε} {o o' : CompileOptions}
variable {a b id : PrimitiveId} {ids : List PrimitiveId}

theorem Topology.Kept.of_reflTransGen (hc : t.Closed) (h : t.Kept o a)
    (hw : Relation.ReflTransGen t.DependsOn a b) : t.Kept o b := by
  induction hw with
  | refl => exact h
  | tail _ hd ih => exact ih.dependency hc hd

namespace Program

variable {p q : Program ε} {outputs keep keep' : List Nat}

/-- From user to user, a primitive is left behind that has no users. -/
theorem Linked.exists_unused (h : p.Linked t) (ho : p.Ordered) (hall : ∀ id ∈ t.ids, id ∈ p.ids)
    {i : Nat} (hi : p.ids[i]? = some id) : ∃ target, target ∈ t.ids ∧
      (∀ user, ¬ t.DependsOn user target) ∧ Relation.ReflTransGen t.DependsOn target id := by
  -- Users have higher numbers, so there is an end to them.
  induction hk : p.size - i using Nat.strongRecOn generalizing i id with
  | ind k ih =>
    obtain ⟨m, hm, rfl⟩ := getElem?_ids_eq_some_iff.1 hi
    by_cases hu : ∃ user, t.DependsOn user m.id
    · obtain ⟨user, hu⟩ := hu
      obtain ⟨j, hj⟩ := List.mem_iff_getElem?.1 (hall user hu.mem_ids)
      obtain ⟨d, hd, hjd⟩ := h.edge_of_dependsOn hj hu
      obtain rfl := h.getElem?_injective hi hd
      obtain ⟨n, hn, hdn⟩ := mem_dependenciesOf_edges_iff.1 hjd
      have hlt := ho j n hn i hdn
      have hj' : j < p.size := (List.getElem?_eq_some_iff.1 hn).1
      obtain ⟨target, ht, hnone, hw⟩ := ih (p.size - j) (by omega) hj rfl
      exact ⟨target, ht, hnone, hw.tail hu⟩
    · have hid := List.mem_map_of_mem (f := Primitive.id)
        (h.primitive m (List.mem_of_getElem? hm))
      exact ⟨m.id, hid, not_exists.1 hu, .refl⟩

theorem selection_requested (h : p.Linked t) (hn : outputs.Nodup)
    (hm : outputs.map (p.ids[·]?) = ids.map some) :
    p.selection ⟨some ids, false⟩ = .ok (outputs, Order.needed p.edges outputs) := by
  have hnumbers : ids.mapM p.nodeIndex = .ok outputs :=
    (mapM_eq_ok_iff_of_option fun id i => by rw [h.nodeIndex_eq_ok_iff, h.index_iff]).2
      (map_inverse (fun i id => (h.index_iff id i).2) hm)
  simp [selection, requested, hnumbers, eraseDups_of_nodup hn]

theorem sorted_congr (h : p.Linked t) (hp : p.nodes.map Node.primitive = t.primitives)
    (hs : p.selection o = .ok (outputs, keep)) (hs' : p.selection o' = .ok (outputs, keep'))
    (hk : ∀ id, t.Kept o id ↔ t.Kept o' id) : p.sorted o = p.sorted o' := by
  have hids := ids_of_primitives hp
  obtain ⟨hsel, -⟩ := selection_ok h hids hs
  obtain ⟨hsel', -⟩ := selection_ok h hids hs'
  have hkeep : ∀ i, keep.contains i = keep'.contains i := fun i => by
    rw [Bool.eq_iff_iff, List.contains_iff_mem, List.contains_iff_mem, hsel.mem_keep_iff,
      hsel'.mem_keep_iff]
    simp only [hk]
  simp only [sorted, hs, hs', Outcome.ofExcept, ok_bind, arrange, funext hkeep]

variable [DecidableEq ε]

theorem exists_exposed (h : ofTopology r t o = .ok p) (hk : t.Kept o id) :
    ∃ target, t.Exposed o target ∧ Relation.ReflTransGen t.DependsOn target id := by
  have hr := ready_of_ofTopology h
  obtain ⟨outputs, exposeAll⟩ := o
  cases exposeAll with
  | true => cases outputs <;> exact ⟨id, hk, .refl⟩
  | false =>
    cases outputs with
    | some targets => exact hk
    | none =>
      have hall : ∀ id ∈ t.ids, id ∈ p.ids := fun id hid => (ids_iff_of_ofTopology h).2 hid
      obtain ⟨i, hi⟩ := List.mem_iff_getElem?.1 (hall id hk)
      obtain ⟨target, ht, hnone, hw⟩ := hr.linked.exists_unused hr.ordered hall hi
      exact ⟨target, ⟨ht, hnone⟩, hw⟩

theorem closed_of_ofTopology (h : ofTopology r t o = .ok p) : t.Closed := by
  obtain ⟨first, hi, -⟩ := bind_eq_ok_iff.1 h
  exact (linked_of_initial hi).closed (primitives_of_initial hi)

theorem kept_requested_iff (h : ofTopology r t o = .ok p) (ho : p.outputIds = .ok ids) :
    t.Kept ⟨some ids, false⟩ id ↔ t.Kept o id := by
  constructor
  · rintro ⟨target, ht, hw⟩
    have he := (outputIds_iff_of_ofTopology h ho).1 ht
    exact he.kept.of_reflTransGen (closed_of_ofTopology h) hw
  · intro hk
    obtain ⟨target, he, hw⟩ := exists_exposed h hk
    exact ⟨target, (outputIds_iff_of_ofTopology h ho).2 he, hw⟩

theorem ofTopology_requested (h : ofTopology r t o = .ok p) (ho : p.outputIds = .ok ids) :
    ofTopology r t ⟨some ids, false⟩ = .ok p := by
  obtain ⟨first, second, kept, outputs, hp⟩ := passes_of_ofTopology h
  have hl := linked_of_initial hp.initial
  have hprimitives := primitives_of_initial hp.initial
  obtain ⟨keep, hs⟩ := hp.sortedTo.selection
  have hs' := selection_requested hl hp.sortedTo.nodup_outputs
    (hp.map_outputs.symm.trans (outputIds_eq_ok_iff.1 ho))
  have hsorted := sorted_congr hl hprimitives hs' hs fun id => kept_requested_iff h ho
  rw [ofTopology, hp.initial, ok_bind] at h ⊢
  rwa [hsorted]

end Program

end InferenceGraph
