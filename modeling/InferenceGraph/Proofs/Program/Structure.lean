import InferenceGraph.Proofs.Program.Acceptance

set_option autoImplicit false

namespace InferenceGraph.Program

variable {ε : Type} [Extension ε] {r : Registry ε} {t : Topology ε} {o : CompileOptions}
variable {p : Program ε}

/-- The parts of a program agree with each other and with the topology it comes from. -/
structure Coherent (t : Topology ε) (p : Program ε) : Prop where
  index_iff : ∀ id number, p.nodeIndex? id = some number ↔
    (p.nodes[number]?).map Node.id = some id
  nodup_ids : p.ids.Nodup
  primitive : ∀ n ∈ p.nodes, t.get? n.id = some n.primitive
  dependencies : ∀ n ∈ p.nodes, n.dependencies.map (fun d => (p.nodes[d]?).map Node.id) =
    n.primitive.dependencies.map some
  ordered : p.Ordered
  nodup_users : ∀ n ∈ p.nodes, n.users.Nodup
  mem_users_iff : ∀ (i : Nat) (n : Node ε), p.nodes[i]? = some n → ∀ user,
    user ∈ n.users ↔ ∃ m : Node ε, p.nodes[user]? = some m ∧ i ∈ m.dependencies
  layout : ∀ n ∈ p.nodes, ∃ layout, n.layout? = some layout
  nodup_outputs : p.outputs.Nodup
  outputs_lt : ∀ output ∈ p.outputs, output < p.size
  isOutput_iff : ∀ (i : Nat) (n : Node ε), p.nodes[i]? = some n →
    (n.isOutput = true ↔ i ∈ p.outputs)

variable [DecidableEq ε]

theorem coherent_of_ofTopology (h : ofTopology r t o = .ok p) : p.Coherent t := by
  obtain ⟨first, second, kept, outputs, hp⟩ := passes_of_ofTopology h
  have hl := hp.linked
  have hids : ∀ i : Nat, (p.nodes[i]?).map Node.id = p.ids[i]? := fun i => (p.getElem?_ids i).symm
  refine ⟨?_, hl.nodup_ids, ?_, ?_, hp.ordered, ?_, fun i n hn => (hl.users i n hn).2, ?_, ?_,
    fun i hi => hp.outputs_lt hi, fun i n hn => hp.isOutput_iff hn⟩
  · intro id i
    rw [hids]
    exact hl.index_iff id i
  · intro n hn
    exact (t.get?_eq_some_iff n.id n.primitive).2 ⟨hl.primitive n hn, rfl⟩
  · intro n hn
    simp only [hids]
    exact hl.dependencies n hn
  · intro n hn
    obtain ⟨i, hi⟩ := List.mem_iff_getElem?.1 hn
    exact (hl.users i n hi).1
  · intro n hn
    obtain ⟨i, hi⟩ := List.mem_iff_getElem?.1 hn
    obtain ⟨m, layout, -, rfl, -⟩ := hp.inferredTo.exists_before hi
    exact ⟨layout, rfl⟩
  · rw [hp.inferredTo.outputs]
    exact hp.sortedTo.arranged.nodup_outputs hp.sortedTo.keepable hp.sortedTo.nodup_outputs

theorem coherent_copies : ∃ p, ofTopology .standard Topology.copies .standard = .ok p ∧
    p.Coherent Topology.copies := by
  obtain ⟨p, hp⟩ := Topology.exists_program_copies (o := .standard) fun _ h => by cases h
  exact ⟨p, hp, coherent_of_ofTopology hp⟩

end InferenceGraph.Program
