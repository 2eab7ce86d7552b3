import InferenceGraph.Proofs.Program.Acceptance
import InferenceGraph.Proofs.Registry.Registration
import InferenceGraph.Sample.Kinds

/-!
# Dispatch

A node goes by the rules of the kind of its own primitive, in every stage of a compilation and
whatever else is registered under whatever names. So the compiler never takes the parameters of one
kind for those of another, and the only breaches are those that a rule commits by itself.
-/

set_option autoImplicit false

namespace InferenceGraph

variable {ε : Type} [Extension ε] [DecidableEq ε] {r : Registry ε} {t : Topology ε}
variable {o : CompileOptions}

/-- The node has the type of its own primitive, and the parameters are those of its kind. -/
structure Node.Dispatched (r : Registry ε) (n : Node ε) : Prop where
  type : r.typeOfPrimitive n.primitive = .ok n.type
  kind : n.type.kind = n.primitive.kind
  params : ∃ params, n.params = .ok params ∧ HEq params n.primitive.params

theorem Node.dispatched {n : Node ε} (ht : r.typeOfPrimitive n.primitive = .ok n.type)
    (hk : n.type.kind = n.primitive.kind) : n.Dispatched r := by
  refine ⟨ht, hk, ?_⟩
  obtain ⟨p, ⟨kind, tag⟩, deps, users, layout?, isOutput⟩ := n
  simp only at hk
  subst hk
  exact ⟨p.params, by simp [Node.params], HEq.rfl⟩

namespace Program

variable {first second last : Program ε} {kept outputs : List Nat}

theorem dispatched_of_initial (h : initial r t = .ok first) :
    ∀ n ∈ first.nodes, n.Dispatched r := fun n hn =>
  Node.dispatched (created_of_initial h n hn).type (created_of_initial h n hn).kind

theorem dispatched_of_sortedTo (hi : initial r t = .ok first)
    (h : first.SortedTo t o kept outputs second) : ∀ n ∈ second.nodes, n.Dispatched r :=
  fun n hn => Node.dispatched (h.created hi n hn).type (h.created hi n hn).kind

theorem dispatched_of_inferredTo (hd : ∀ n ∈ second.nodes, n.Dispatched r)
    (h : second.InferredTo second.size last) : ∀ n ∈ last.nodes, n.Dispatched r := by
  intro n hn
  obtain ⟨i, hn⟩ := List.mem_iff_getElem?.1 hn
  obtain ⟨m, layout, hm, rfl, -⟩ := h.exists_before hn
  have hd := hd m (List.mem_of_getElem? hm)
  exact Node.dispatched hd.type hd.kind

theorem exists_error_of_initial (hr : r.Consistent) {f : Failure} (h : initial r t = .error f) :
    ∃ e, f = .error e := by
  obtain h | ⟨nodes, -, h⟩ := bind_eq_error_iff.1 h
  · obtain ⟨before, q, after, -, -, he⟩ := mapM_eq_error h
    obtain he | ⟨type, ht, he⟩ := bind_eq_error_iff.1 he
    · obtain ⟨e, -, rfl⟩ := Outcome.ofExcept_eq_error_iff.1 he
      exact ⟨e, rfl⟩
    · rw [Outcome.ofExcept_eq_ok_iff, hr.typeOfPrimitive_eq_ok_iff] at ht
      rw [Node.ofPrimitive_eq ht.2] at he
      obtain he | ⟨_, -, he⟩ := bind_eq_error_iff.1 he
      · obtain ⟨e, -, rfl⟩ := Outcome.ofExcept_eq_error_iff.1 he
        exact ⟨e, rfl⟩
      · cases he
  · obtain h | ⟨linked, -, h⟩ := bind_eq_error_iff.1 h
    · obtain ⟨e, -, rfl⟩ := Outcome.ofExcept_eq_error_iff.1 h
      exact ⟨e, rfl⟩
    · cases h

theorem exists_rule_of_breach (hr : r.Consistent) {b : Breach}
    (h : ofTopology r t o = .error (.breach b)) :
    ∃ q ∈ t.primitives, ∃ v, q.kind.rules.outputLayout v q.params = .error (.breach b) := by
  obtain hi | ⟨first, hi, h⟩ := bind_eq_error_iff.1 h
  · obtain ⟨e, he⟩ := exists_error_of_initial hr hi
    cases he
  · have hl := linked_of_initial hi
    have hp := primitives_of_initial hi
    obtain hs | ⟨second, hs, h⟩ := bind_eq_error_iff.1 h
    · obtain ⟨names, he, -⟩ | ⟨-, targets, id, -, -, -, he⟩ := sorted_error hl hp hs
      · cases he
      · cases he
    · obtain ⟨kept, outputs, hto⟩ := sortedTo_of_sorted hl hp hs
      have ho := hto.arranged.ordered hto.sorted
      obtain ⟨k, q, n, -, hn, he⟩ := refused_of_infer ho (hto.kind_eq hi) h
      have hl2 := hto.arranged.linked hto.keepable hl
      exact ⟨n.primitive, hl2.primitive n (List.mem_of_getElem? hn), q.view k n, he⟩

theorem ne_breach_of_builtin (hr : r.Consistent) (hb : t.Builtin) (b : Breach) :
    ofTopology r t o ≠ .error (.breach b) := by
  intro h
  cases hi : initial r t with
  | error f =>
    obtain ⟨e, rfl⟩ := exists_error_of_initial hr hi
    rw [ofTopology, hi] at h
    cases h
  | ok first =>
    obtain ⟨e, he, -⟩ := ofTopology_error_of_initial hi hb h
    cases he

end Program

namespace Compilation

/-- No stage mixes kinds up. -/
structure Dispatched (r : Registry ε) (t : Topology ε) (o : CompileOptions) : Prop where
  node : ∀ entry ∈ (ofTopology r t o).stages, ∀ n ∈ entry.2.nodes, n.Dispatched r
  /-- A breach was committed by the layout rule of a primitive, given its own parameters. -/
  breach : ∀ b, (ofTopology r t o).result = .error (.breach b) →
    ∃ q ∈ t.primitives, ∃ v, q.kind.rules.outputLayout v q.params = .error (.breach b)
  builtin : t.Builtin → ∀ b, (ofTopology r t o).result ≠ .error (.breach b)

theorem dispatched_of_stages : ∀ entry ∈ (ofTopology r t o).stages, ∀ n ∈ entry.2.nodes,
    n.Dispatched r := by
  unfold ofTopology
  cases hi : Program.initial r t with
  | error e => simp
  | ok first =>
    have h1 := Program.dispatched_of_initial hi
    cases hs : first.sorted o with
    | error e => simpa [hs] using h1
    | ok second =>
      obtain ⟨kept, outputs, hto⟩ := Program.sortedTo_of_sorted (Program.linked_of_initial hi)
        (Program.primitives_of_initial hi) hs
      have h2 := Program.dispatched_of_sortedTo hi hto
      cases hl : second.infer with
      | error e => simpa [hs, hl] using ⟨h1, h2⟩
      | ok last =>
        have ho := hto.arranged.ordered hto.sorted
        have h3 := Program.dispatched_of_inferredTo h2
          (Program.inferredTo_of_infer ho (hto.kind_eq hi) hl)
        simpa [hs, hl] using ⟨h1, h2, h3⟩

theorem dispatched (hr : r.Consistent) (t : Topology ε) (o : CompileOptions) :
    Dispatched r t o where
  node := dispatched_of_stages
  breach b hb := Program.exists_rule_of_breach hr (by rwa [← result_ofTopology])
  builtin ht b hb := Program.ne_breach_of_builtin hr ht b (by rwa [← result_ofTopology])

end Compilation

/-- A registry that was filled by any calls, whatever became of each of them: its answers agree,
a further call fails exactly if the kind or its name is taken, and every primitive, by itself or
in a compilation, is treated by the rules of its own kind. -/
theorem Registry.dispatches_after {start : Registry ε} (hs : start = .empty ∨ start = .standard)
    (kinds : List (Kind ε)) :
    (start.after kinds).Agrees ∧ (∀ kind, (start.after kinds).Registers kind) ∧
      (∀ p, (start.after kinds).Finds p) ∧
      ∀ t o, Compilation.Dispatched (start.after kinds) t o := by
  have hstart : start.Reachable := by
    rcases hs with rfl | rfl
    · exact .empty
    · exact reachable_standard
  have hc := (hstart.after kinds).consistent
  exact ⟨hc.agrees, hc.registers, hc.finds, Compilation.dispatched hc⟩

theorem Registry.dispatches_after_clashes :
    ((standard : Registry Sample).after
      [.custom .scale, .custom .fakeEltwise, .custom .scale, .custom .nary]).kinds =
        Kind.builtins ++ [.custom .scale, .custom .nary] ∧
    ((standard : Registry Sample).after
      [.custom .scale, .custom .fakeEltwise, .custom .scale, .custom .nary]).Agrees :=
  ⟨by rfl, (dispatches_after (.inr rfl) _).1⟩

end InferenceGraph
