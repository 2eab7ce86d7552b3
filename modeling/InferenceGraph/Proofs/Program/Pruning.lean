import InferenceGraph.Proofs.Program.Description

set_option autoImplicit false

namespace InferenceGraph.Program

variable {ε : Type} [Extension ε] {r : Registry ε} {t : Topology ε}
variable {full pruned : Program ε} {targets : List PrimitiveId} {id : PrimitiveId}

/-- A kept node of a pruned program and what it was in the full one. -/
structure KeptAs (kept : PrimitiveId → Prop) (full pruned : Program ε) (n m : Node ε) : Prop where
  primitive : m.primitive = n.primitive
  dependencies : pruned.idsOf m.dependencies = full.idsOf n.dependencies
  layout : m.layout? = n.layout?
  users : ∀ user, user ∈ pruned.idsOf m.users ↔ kept user ∧ user ∈ full.idsOf n.users

variable [DecidableEq ε] {exposeAll : Bool}

theorem exists_pruned (hb : t.Builtin) (hf : ofTopology r t ⟨none, exposeAll⟩ = .ok full)
    (ht : ∀ id ∈ targets, id ∈ t.ids) :
    ∃ pruned, ofTopology r t ⟨some targets, false⟩ = .ok pruned := by
  obtain ⟨first, second, kept, outputs, hp⟩ := passes_of_ofTopology hf
  have ha := acceptable_of_ofTopology hb hf
  have hr : t.Requestable ⟨some targets, false⟩ := by
    intro targets' he id hid
    obtain rfl := Option.some.inj he
    exact ht id hid
  refine exists_ofTopology hp.initial hb ⟨ha.valid, ha.closed, ha.acyclic, hr, fun id hk => ?_⟩
  exact ha.layouts id (hk.mem_ids ha.closed hr)

theorem exists_keptAs (hb : t.Builtin) (hf : ofTopology r t ⟨none, exposeAll⟩ = .ok full)
    (hp : ofTopology r t ⟨some targets, false⟩ = .ok pruned)
    (hk : t.Kept ⟨some targets, false⟩ id) :
    ∃ i j n m, full.nodeOf id = .ok (i, n) ∧ pruned.nodeOf id = .ok (j, m) ∧
      KeptAs (t.Kept ⟨some targets, false⟩) full pruned n m := by
  have ha := acceptable_of_ofTopology hb hp
  obtain ⟨i, n, hn, hd⟩ :=
    exists_described hb hf (show t.Kept _ id from hk.mem_ids ha.closed ha.requestable)
  obtain ⟨j, m, hm, hd'⟩ := exists_described hb hp hk
  have he : m.primitive = n.primitive :=
    Option.some.inj (hd'.primitive.symm.trans hd.primitive)
  refine ⟨i, j, n, m, hn, hm, he, ?_, hd'.layout.trans hd.layout.symm, fun user => ?_⟩
  · rw [hd'.dependencies, hd.dependencies, he]
  · rw [hd'.mem_users_iff, hd.mem_users_iff]
    constructor
    · rintro ⟨hu, hd⟩
      exact ⟨hu, hd.mem_ids, hd⟩
    · rintro ⟨hu, -, hd⟩
      exact ⟨hu, hd⟩

end InferenceGraph.Program
