import InferenceGraph.Proofs.Program.Description
import InferenceGraph.Proofs.Topology.Reordering

set_option autoImplicit false

namespace InferenceGraph

variable {ε : Type} [Extension ε] {r : Registry ε} {t t' : Topology ε} {o : CompileOptions}

/-- The registry knows the kind of the primitive, and the kind has nothing against it. -/
def Registry.Admits [DecidableEq ε] (r : Registry ε) (p : Primitive ε) : Prop :=
  ∃ type, r.typeOfPrimitive p = .ok type ∧ type.kind = p.kind ∧ p.validate = .ok ()

namespace Program

variable {p p' : Program ε} {id : PrimitiveId}

structure Alike (p p' : Program ε) (n n' : Node ε) : Prop where
  primitive : n'.primitive = n.primitive
  dependencies : p'.idsOf n'.dependencies = p.idsOf n.dependencies
  mem_users_iff : ∀ user, user ∈ p'.idsOf n'.users ↔ user ∈ p.idsOf n.users
  layout : n'.layout? = n.layout?
  isOutput : n'.isOutput = n.isOutput

/-- The same nodes for the same ids, and the same outputs, in the same order if they are only those
requested. -/
structure Reorders (o : CompileOptions) (p p' : Program ε) : Prop where
  mem_ids_iff : ∀ id, id ∈ p'.ids ↔ id ∈ p.ids
  node : ∀ id ∈ p.ids, ∃ i j n n', p.nodeOf id = .ok (i, n) ∧ p'.nodeOf id = .ok (j, n') ∧
    Alike p p' n n'
  outputIds : ∃ ids ids', p.outputIds = .ok ids ∧ p'.outputIds = .ok ids' ∧ ids'.Perm ids ∧
    (o.outputs.isSome = true → o.exposeAll = false → ids' = ids)

variable [DecidableEq ε]

theorem exists_initial_iff : (∃ first, initial r t = .ok first) ↔
    (∀ q ∈ t.primitives, r.Admits q) ∧ t.Closed := by
  constructor
  · rintro ⟨first, hi⟩
    have hp := primitives_of_initial hi
    refine ⟨fun q hq => ?_, (linked_of_initial hi).closed hp⟩
    rw [← hp] at hq
    obtain ⟨n, hn, rfl⟩ := List.mem_map.1 hq
    obtain ⟨ht, hk, hv, -⟩ := created_of_initial hi n hn
    exact ⟨n.type, ht, hk, hv⟩
  · rintro ⟨ha, hc⟩
    obtain ⟨nodes, hn⟩ : ∃ nodes, Node.ofTopology r t = .ok nodes :=
      mapM_ok_of_forall fun q hq => by
        obtain ⟨type, ht, hk, hv⟩ := ha q hq
        rw [ht, Outcome.ofExcept, ok_bind, Node.ofPrimitive_eq hk, hv]
        exact ⟨_, rfl⟩
    have hp := (Node.created_of_ofTopology hn).1
    obtain ⟨edges, he⟩ : ∃ edges, nodes.mapM (Node.resolve (Node.indexOf nodes)) = .ok edges :=
      mapM_ok_of_forall fun n hm => by
        cases hr : Node.resolve (Node.indexOf nodes) n with
        | ok numbers => exact ⟨numbers, rfl⟩
        | error e =>
          obtain ⟨missing, hd, hnot, -⟩ := resolve_error hp hr
          exact absurd (hc _ (hp ▸ List.mem_map_of_mem hm) missing hd) hnot
    obtain ⟨linked, hl⟩ : ∃ linked, Node.connect (Node.indexOf nodes) nodes = .ok linked :=
      ⟨_, bind_eq_ok_iff.2 ⟨edges, he, rfl⟩⟩
    exact ⟨⟨linked, Node.indexOf nodes, []⟩, bind_eq_ok_iff.2 ⟨nodes, hn,
      bind_eq_ok_iff.2 ⟨linked, Outcome.ofExcept_eq_ok_iff.2 hl, rfl⟩⟩⟩

theorem exists_ofTopology_iff (hb : t.Builtin) : (∃ p, ofTopology r t o = .ok p) ↔
    (∀ q ∈ t.primitives, r.Admits q) ∧ t.Acceptable o := by
  constructor
  · rintro ⟨p, hp⟩
    obtain ⟨first, hi, -⟩ := bind_eq_ok_iff.1 hp
    exact ⟨(exists_initial_iff.1 ⟨first, hi⟩).1, acceptable_of_ofTopology hb hp⟩
  · rintro ⟨hadmits, ha⟩
    obtain ⟨first, hi⟩ := exists_initial_iff.2 ⟨hadmits, ha.closed⟩
    exact exists_ofTopology hi hb ha

section Perm

variable (h : t.primitives.Perm t'.primitives) (hb : t.Builtin)
include h hb

theorem exists_ofTopology_of_perm (hp : ofTopology r t o = .ok p) :
    ∃ p', ofTopology r t' o = .ok p' := by
  obtain ⟨hadmits, ha⟩ := (exists_ofTopology_iff hb).1 ⟨p, hp⟩
  exact (exists_ofTopology_iff (hb.of_perm h)).2
    ⟨fun q hq => hadmits q (h.mem_iff.2 hq), ha.of_perm h⟩

variable (hp : ofTopology r t o = .ok p) (hp' : ofTopology r t' o = .ok p')
include hp hp'

omit hb in
theorem mem_ids_iff_of_perm : id ∈ p'.ids ↔ id ∈ p.ids := by
  rw [ids_iff_of_ofTopology hp, ids_iff_of_ofTopology hp', Topology.kept_iff_of_perm h]

theorem exists_alike (hid : id ∈ p.ids) :
    ∃ i j n n', p.nodeOf id = .ok (i, n) ∧ p'.nodeOf id = .ok (j, n') ∧ Alike p p' n n' := by
  have hk := (ids_iff_of_ofTopology hp).1 hid
  obtain ⟨i, n, hn, hd⟩ := exists_described hb hp hk
  obtain ⟨j, n', hn', hd'⟩ :=
    exists_described (hb.of_perm h) hp' ((Topology.kept_iff_of_perm h).1 hk)
  have hq : n'.primitive = n.primitive := by
    have hg := hd'.primitive
    rw [Topology.get?_of_perm h, hd.primitive] at hg
    exact (Option.some.inj hg).symm
  refine ⟨i, j, n, n', hn, hn', hq, ?_, fun user => ?_, ?_, ?_⟩
  · rw [hd'.dependencies, hd.dependencies, hq]
  · rw [hd'.mem_users_iff, hd.mem_users_iff, Topology.kept_iff_of_perm h,
      Topology.dependsOn_of_perm h]
  · rw [hd'.layout, hd.layout, Topology.layoutOf_of_perm h (compiled_of_ofTopology hb hp).acyclic]
  · rw [Bool.eq_iff_iff, hd'.isOutput_iff, hd.isOutput_iff, Topology.exposed_iff_of_perm h]

theorem reorders_of_perm : Reorders o p p' := by
  refine ⟨fun id => mem_ids_iff_of_perm h hp hp', fun id hid => exists_alike h hb hp hp' hid, ?_⟩
  obtain ⟨ids, ho, hn⟩ := exists_outputIds hp
  obtain ⟨ids', ho', hn'⟩ := exists_outputIds hp'
  refine ⟨ids, ids', ho, ho', (List.perm_ext_iff_of_nodup hn' hn).2 fun id => ?_, ?_⟩
  · rw [outputIds_iff_of_ofTopology hp ho, outputIds_iff_of_ofTopology hp' ho',
      Topology.exposed_iff_of_perm h]
  · obtain ⟨outputs, exposeAll⟩ := o
    rintro hs rfl
    obtain ⟨targets, rfl⟩ := Option.isSome_iff_exists.1 hs
    rw [outputIds_of_requested hp] at ho
    rw [outputIds_of_requested hp'] at ho'
    exact Except.ok.inj (ho'.symm.trans ho)

end Perm

end Program

end InferenceGraph
