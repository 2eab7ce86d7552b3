import InferenceGraph.Proofs.Program.Ascending
import InferenceGraph.Proofs.Program.Exposure
import InferenceGraph.Proofs.Program.Listing
import InferenceGraph.Proofs.Program.Reordering
import InferenceGraph.Proofs.Topology.Part

set_option autoImplicit false

namespace InferenceGraph

variable {ε : Type} [Extension ε] {t t' : Topology ε}

theorem Topology.exists_addAll (t : Topology ε) (ps : List (Primitive ε))
    (h : ((t.primitives ++ ps).map Primitive.id).Nodup) :
    ∃ t', t.addAll ps = (t', .ok ()) ∧ t'.primitives = t.primitives ++ ps := by
  induction ps generalizing t with
  | nil => exact ⟨t, rfl, by simp⟩
  | cons p ps ih =>
    have hid : p.id ∉ t.ids := by
      rw [List.map_append, List.map_cons] at h
      exact fun hm => (List.nodup_append.1 h).2.2 p.id hm p.id (by simp) rfl
    obtain ⟨t', ht, hp⟩ := ih (t.push p hid) (by simpa [push] using h)
    refine ⟨t', ?_, by simpa [push] using hp⟩
    rw [addAll, add, dif_neg hid]
    exact ht

namespace Program

variable {r : Registry ε} {o o' : CompileOptions} {p p' : Program ε} {ids : List PrimitiveId}

namespace Linked

variable (h : p.Linked t)
include h

theorem mem_users_iff {i user : Nat} {n : Node ε} (hn : p.nodes[i]? = some n) :
    user ∈ n.users ↔ i ∈ Order.dependenciesOf p.edges user := by
  rw [(h.users i n hn).2, mem_dependenciesOf_edges_iff]

theorem relink (hp : p.nodes.map Node.primitive = t'.primitives) : p.Linked t' :=
  ⟨fun _ hn => hp ▸ List.mem_map_of_mem hn, h.index_iff, h.dependencies, h.users⟩

theorem partOf (hp : p.nodes.map Node.primitive = t'.primitives) : t'.PartOf t where
  subset q hq := by
    rw [← hp] at hq
    obtain ⟨n, hn, rfl⟩ := List.mem_map.1 hq
    exact h.primitive n hn
  closed := (h.relink hp).closed hp

end Linked

section Index

variable (h : p.Linked t) (h' : p'.Linked t') (hi : p'.index = p.index)
include h h' hi

theorem edges_eq_of_index (hp : p'.nodes.map Node.primitive = p.nodes.map Node.primitive) :
    p'.edges = p.edges := by
  have hmap : ∀ {t : Topology ε} {q : Program ε}, q.Linked t → q.edges.map (List.map some) =
      (q.nodes.map Node.primitive).map fun m => m.dependencies.map (q.index.lookup ·) := by
    intro t q hq
    rw [edges, List.map_map, List.map_map]
    exact List.map_congr_left fun n hn =>
      (map_inverse (fun i id => (hq.index_iff id i).2) (hq.dependencies n hn)).symm
  refine List.map_injective_iff.2 (fun _ _ => map_some_injective) ?_
  rw [hmap h', hmap h, hi, hp]

theorem outputs_eq_of_index (ho : p.outputIds = .ok ids) (ho' : p'.outputIds = .ok ids) :
    p'.outputs = p.outputs := by
  have hmap : ∀ {t : Topology ε} {q : Program ε}, q.Linked t → q.outputIds = .ok ids →
      q.outputs.map some = ids.map (q.index.lookup ·) := fun hq ho =>
    (map_inverse (fun i id => (hq.index_iff id i).2) (outputIds_eq_ok_iff.1 ho)).symm
  refine map_some_injective ?_
  rw [hmap h' ho', hmap h ho, hi]

end Index

theorem users_perm_of_edges (h : p.Linked t) (h' : p'.Linked t') (he : p'.edges = p.edges) {i : Nat}
    {n n' : Node ε} (hn : p.nodes[i]? = some n) (hn' : p'.nodes[i]? = some n') :
    n'.users.Perm n.users := by
  refine (List.perm_ext_iff_of_nodup (h'.users i n' hn').1 (h.users i n hn).1).2 fun user => ?_
  rw [h'.mem_users_iff hn', h.mem_users_iff hn, he]

variable [DecidableEq ε]

/-- A program is told by its primitives, its outputs and the layouts, up to the order of users. -/
theorem restates_of_primitives (hb : t.Builtin) (hb' : t'.Builtin)
    (h : ofTopology r t o = .ok p) (h' : ofTopology r t' o' = .ok p')
    (hp : p'.nodes.map Node.primitive = p.nodes.map Node.primitive)
    (ho : p.outputIds = .ok ids) (ho' : p'.outputIds = .ok ids)
    (hlayout : ∀ id ∈ p.ids, t'.layoutOf id = t.layoutOf id) : p.Restates p' := by
  have hc := compiled_of_ofTopology hb h
  have hc' := compiled_of_ofTopology hb' h'
  obtain ⟨first, second, kept, outputs, hpass⟩ := passes_of_ofTopology h
  obtain ⟨first', second', kept', outputs', hpass'⟩ := passes_of_ofTopology h'
  have hindex : p'.index = p.index := by
    rw [hpass'.index_eq, hpass.index_eq, ids_eq_map_primitives, hp, ids_eq_map_primitives]
  have hedges := edges_eq_of_index hc.linked hc'.linked hindex hp
  have houtputs := outputs_eq_of_index hc.linked hc'.linked hindex ho ho'
  refine ⟨by rw [← length_edges, hedges, length_edges], fun i n hn => ?_, hindex, houtputs⟩
  have hm := List.mem_of_getElem? hn
  obtain ⟨n', hn', hprimitive⟩ : ∃ n', p'.nodes[i]? = some n' ∧ n'.primitive = n.primitive := by
    rw [← Option.map_eq_some_iff, ← List.getElem?_map, hp, List.getElem?_map, hn, Option.map_some]
  have hm' := List.mem_of_getElem? hn'
  have htype : n'.type = n.type := by
    have htype' := hpass'.typeOfPrimitive_eq hm'
    rw [hprimitive, hpass.typeOfPrimitive_eq hm] at htype'
    exact (Except.ok.inj htype').symm
  have hdependencies : n'.dependencies = n.dependencies := by
    simpa [edges, hn, hn'] using congrArg (·[i]?) hedges
  have hlayout? : n'.layout? = n.layout? := by
    obtain ⟨layout, hl, ht⟩ := hc.layout n hm
    obtain ⟨layout', hl', ht'⟩ := hc'.layout n' hm'
    rw [hl, hl', ← ht, ← ht', Node.id, hprimitive, ← Node.id, hlayout n.id (List.mem_map_of_mem hm)]
  have hisOutput : n'.isOutput = n.isOutput := by
    rw [Bool.eq_iff_iff, hpass.isOutput_iff hn, hpass'.isOutput_iff hn', houtputs]
  refine ⟨n'.users, users_perm_of_edges hc.linked hc'.linked hedges hn hn', ?_⟩
  rw [hn', ← hprimitive, ← htype, ← hdependencies, ← hlayout?, ← hisOutput]

theorem acceptable_of_part (hb : t.Builtin) (h : ofTopology r t o = .ok p)
    (ho : p.outputIds = .ok ids) (hp : p.nodes.map Node.primitive = t'.primitives) :
    t'.Acceptable ⟨some ids, false⟩ := by
  have hc := compiled_of_ofTopology hb h
  have hpart := hc.linked.partOf hp
  have hids := ids_of_primitives hp
  have hrequestable : t'.Requestable ⟨some ids, false⟩ := by
    intro targets ht id hid
    cases ht
    rw [← hids, ids_iff_of_ofTopology h]
    exact ((outputIds_iff_of_ofTopology h ho).1 hid).kept
  refine ⟨fun q hq => hc.valid q (hpart.subset hq), hpart.closed, hpart.acyclic hc.acyclic,
    hrequestable, fun id hk => ?_⟩
  have hid := hk.mem_ids hpart.closed hrequestable
  rw [hpart.layoutOf_eq hc.acyclic hid]
  exact (acceptable_of_ofTopology hb h).layouts id ((ids_iff_of_ofTopology h).1 (hids ▸ hid))

theorem kept_of_part (h : ofTopology r t o = .ok p) (ho : p.outputIds = .ok ids)
    (hp : p.nodes.map Node.primitive = t'.primitives) :
    ∀ id ∈ t'.ids, t'.Kept ⟨some ids, false⟩ id := by
  intro id hid
  have hids := ids_of_primitives hp
  obtain ⟨target, he, hw⟩ := exists_exposed h ((ids_iff_of_ofTopology h).1 (hids ▸ hid))
  have ht := (ids_iff_of_ofTopology h).2 he.kept
  have hpart := (ready_of_ofTopology h).linked.partOf hp
  exact ⟨target, (outputIds_iff_of_ofTopology h ho).2 he,
    (hpart.reflTransGen_of_mem (hids ▸ ht) hw).2⟩

theorem exists_restated (hb : t.Builtin) (h : ofTopology r t o = .ok p)
    (ho : p.outputIds = .ok ids) : ∃ t' p',
      Topology.empty.addAll (p.nodes.map Node.primitive) = (t', .ok ()) ∧
        ofTopology r t' ⟨some ids, false⟩ = .ok p' ∧ p'.nodes.map Node.primitive = t'.primitives ∧
          p.Restates p' := by
  have hr := ready_of_ofTopology h
  obtain ⟨t', ht, hp⟩ := Topology.empty.exists_addAll (p.nodes.map Node.primitive)
    (by simpa [Topology.empty, ids_eq_map_primitives] using hr.linked.nodup_ids)
  have hp : p.nodes.map Node.primitive = t'.primitives := by simpa [Topology.empty] using hp.symm
  have hpart := hr.linked.partOf hp
  have hadmits := ((exists_ofTopology_iff hb).1 ⟨p, h⟩).1
  obtain ⟨p', h'⟩ := (exists_ofTopology_iff (hpart.builtin hb)).2
    ⟨fun q hq => hadmits q (hpart.subset hq), acceptable_of_part hb h ho hp⟩
  have hp' := primitives_eq_of_ascending ((hr.linked.relink hp).ascending_of_ordered hp hr.ordered)
    h' (kept_of_part h ho hp)
  obtain ⟨ids', ho', hn⟩ := exists_outputIds h
  obtain rfl := Except.ok.inj (ho.symm.trans ho')
  refine ⟨t', p', ht, h', hp', restates_of_primitives hb (hpart.builtin hb) h h' (hp'.trans hp.symm)
    ho (by rw [outputIds_of_requested h', eraseDups_of_nodup hn]) fun id hid => ?_⟩
  exact hpart.layoutOf_eq (compiled_of_ofTopology hb h).acyclic (ids_of_primitives hp ▸ hid)

end Program

end InferenceGraph
