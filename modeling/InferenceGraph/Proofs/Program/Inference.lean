import InferenceGraph.Proofs.Program.Linking

/-!
# Inferred layouts

Inference visits the nodes by their numbers. In an ordered program the layouts that a rule asks for
are known by then and never change again, so every node ends up with what its rule makes of the
final layouts of its dependencies.
-/

set_option autoImplicit false

namespace InferenceGraph.Program

variable {ε : Type} [Extension ε] {p q : Program ε}

/-- The nodes below `bound` have their layouts, the others are as they were. -/
structure InferredTo (p : Program ε) (bound : Nat) (q : Program ε) : Prop where
  index : q.index = p.index
  outputs : q.outputs = p.outputs
  done : ∀ (i : Nat) (n : Node ε), i < bound → p.nodes[i]? = some n → ∃ layout,
    q.nodes[i]? = some { n with layout? := some layout } ∧
      n.primitive.outputLayout (q.view i n) = .ok layout
  rest : ∀ i : Nat, bound ≤ i → q.nodes[i]? = p.nodes[i]?

theorem InferredTo.start (p : Program ε) : p.InferredTo 0 p :=
  ⟨rfl, rfl, fun i _ hi => absurd hi (Nat.not_lt_zero i), fun _ _ => rfl⟩

theorem view_set {i k : Nat} {n m : Node ε} (h : k ∉ n.dependencies) :
    ({ q with nodes := q.nodes.set k m } : Program ε).view i n = q.view i n := by
  have he : ∀ d ∈ n.dependencies,
      ((q.nodes.set k m)[d]?.map fun d => (⟨d.id, d.layout?⟩ : InputView)) =
        q.nodes[d]?.map fun d => ⟨d.id, d.layout?⟩ := by
    intro d hd
    rw [List.getElem?_set_ne fun hk : k = d => h (hk ▸ hd)]
  simp only [view, List.filterMap_congr he]

variable [DecidableEq ε]

theorem inferAt_eq {k : Nat} {n : Node ε} (hn : q.nodes[k]? = some n)
    (hk : n.type.kind = n.primitive.kind) :
    q.inferAt k = do
      let layout ← n.primitive.outputLayout (q.view k n)
      return { q with nodes := q.nodes.set k { n with layout? := some layout } } := by
  obtain ⟨primitive, ⟨kind, tag⟩, deps, users, layout?, isOutput⟩ := n
  simp only at hk
  subst hk
  simp [inferAt, node, hn, Node.params, Primitive.outputLayout]

theorem InferredTo.step {k : Nat} {c : Program ε} (h : p.InferredTo k q) (ho : p.Ordered)
    (hk : ∀ n ∈ p.nodes, n.type.kind = n.primitive.kind) (hl : k < p.size)
    (hs : q.inferAt k = .ok c) : p.InferredTo (k + 1) c := by
  obtain ⟨n, hn⟩ : ∃ n, p.nodes[k]? = some n := ⟨_, List.getElem?_eq_getElem hl⟩
  have hq : q.nodes[k]? = some n := (h.rest k (Nat.le_refl k)).trans hn
  rw [inferAt_eq hq (hk n (List.mem_of_getElem? hn))] at hs
  obtain ⟨layout, hr, hs⟩ := Outcome.bind_eq_ok_iff.1 hs
  cases hs
  have hlq := (List.getElem?_eq_some_iff.1 hq).1
  have hv : ∀ i m, p.nodes[i]? = some m → i ≤ k →
      ({ q with nodes := q.nodes.set k { n with layout? := some layout } } : Program ε).view i m =
        q.view i m := fun i m hm hi => view_set fun hd => by
    have := ho i m hm k hd
    omega
  refine ⟨h.index, h.outputs, ?_, ?_⟩
  · intro i m hi hm
    rw [hv i m hm (by omega)]
    rcases Nat.lt_succ_iff_lt_or_eq.1 hi with hi | rfl
    · obtain ⟨l, hd, hl⟩ := h.done i m hi hm
      exact ⟨l, by simpa [List.getElem?_set_ne (by omega : k ≠ i)] using hd, hl⟩
    · rw [hn] at hm
      cases hm
      exact ⟨layout, by simp [hlq], hr⟩
  · intro i hi
    rw [← h.rest i (by omega)]
    exact List.getElem?_set_ne (by omega)

theorem inferredTo_of_infer (ho : p.Ordered) (hk : ∀ n ∈ p.nodes, n.type.kind = n.primitive.kind)
    (h : p.infer = .ok q) : p.InferredTo p.size q := by
  have hi := foldlM_range_invariant (f := inferAt) (P := fun k q => p.InferredTo k q)
    (n := p.size) (InferredTo.start p) fun k b c hl hb hs => hb.step ho hk hl hs
  rwa [show (List.range p.size).foldlM inferAt p = .ok q from h] at hi

theorem refused_of_infer {e : Failure} (ho : p.Ordered)
    (hk : ∀ n ∈ p.nodes, n.type.kind = n.primitive.kind) (h : p.infer = .error e) :
    ∃ k q n, p.InferredTo k q ∧ p.nodes[k]? = some n ∧
      n.primitive.outputLayout (q.view k n) = .error e := by
  have hi := foldlM_range_invariant (f := inferAt) (P := fun k q => p.InferredTo k q)
    (n := p.size) (InferredTo.start p) fun k b c hl hb hs => hb.step ho hk hl hs
  rw [show (List.range p.size).foldlM inferAt p = .error e from h] at hi
  obtain ⟨k, hl, q, hq, he⟩ := hi
  obtain ⟨n, hn⟩ : ∃ n, p.nodes[k]? = some n := ⟨_, List.getElem?_eq_getElem hl⟩
  refine ⟨k, q, n, hq, hn, ?_⟩
  rw [inferAt_eq ((hq.rest k (Nat.le_refl k)).trans hn) (hk n (List.mem_of_getElem? hn))] at he
  cases hr : n.primitive.outputLayout (q.view k n) with
  | ok layout => simp [hr] at he
  | error e' => simpa [hr] using he

namespace InferredTo

omit [DecidableEq ε]

variable (h : p.InferredTo p.size q)
include h

theorem exists_before {i : Nat} {m : Node ε} (hm : q.nodes[i]? = some m) :
    ∃ n layout, p.nodes[i]? = some n ∧ m = { n with layout? := some layout } ∧
      n.primitive.outputLayout (q.view i n) = .ok layout := by
  rcases Nat.lt_or_ge i p.size with hi | hi
  · obtain ⟨n, hn⟩ : ∃ n, p.nodes[i]? = some n := ⟨_, List.getElem?_eq_getElem hi⟩
    obtain ⟨layout, hq, hr⟩ := h.done i n hi hn
    rw [hm] at hq
    cases hq
    exact ⟨n, layout, hn, rfl, hr⟩
  · rw [h.rest i hi, List.getElem?_eq_none hi] at hm
    cases hm

theorem primitives_eq : q.nodes.map Node.primitive = p.nodes.map Node.primitive := by
  refine List.ext_getElem? fun i => ?_
  rw [List.getElem?_map, List.getElem?_map]
  cases hm : q.nodes[i]? with
  | some m =>
    obtain ⟨n, layout, hn, rfl, -⟩ := h.exists_before hm
    rw [hn]
    rfl
  | none =>
    cases hn : p.nodes[i]? with
    | none => rfl
    | some n =>
      obtain ⟨layout, hq, -⟩ := h.done i n (List.getElem?_eq_some_iff.1 hn).1 hn
      rw [hm] at hq
      cases hq

theorem ids_eq : q.ids = p.ids := by
  rw [ids_eq_map_primitives, ids_eq_map_primitives, h.primitives_eq]

theorem linked {t : Topology ε} (hl : p.Linked t) : q.Linked t := by
  refine ⟨?_, ?_, ?_, ?_⟩
  · intro m hm
    obtain ⟨i, hm⟩ := List.mem_iff_getElem?.1 hm
    obtain ⟨n, layout, hn, rfl, -⟩ := h.exists_before hm
    exact hl.primitive n (List.mem_of_getElem? hn)
  · intro id i
    rw [nodeIndex?, h.index, h.ids_eq]
    exact hl.index_iff id i
  · intro m hm
    obtain ⟨i, hm⟩ := List.mem_iff_getElem?.1 hm
    obtain ⟨n, layout, hn, rfl, -⟩ := h.exists_before hm
    rw [h.ids_eq]
    exact hl.dependencies n (List.mem_of_getElem? hn)
  · intro i m hm
    obtain ⟨n, layout, hn, rfl, -⟩ := h.exists_before hm
    obtain ⟨hu, hiff⟩ := hl.users i n hn
    refine ⟨hu, fun user => (hiff user).trans ⟨?_, ?_⟩⟩
    · rintro ⟨k, hk, hd⟩
      obtain ⟨l, hq, -⟩ := h.done user k (List.getElem?_eq_some_iff.1 hk).1 hk
      exact ⟨_, hq, hd⟩
    · rintro ⟨k, hk, hd⟩
      obtain ⟨n', l, hn', rfl, -⟩ := h.exists_before hk
      exact ⟨n', hn', hd⟩

theorem ordered (ho : p.Ordered) : q.Ordered := by
  intro i m hm
  obtain ⟨n, layout, hn, rfl, -⟩ := h.exists_before hm
  exact ho i n hn

end InferredTo

end InferenceGraph.Program
