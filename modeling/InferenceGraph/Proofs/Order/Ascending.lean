import InferenceGraph.Proofs.Order.Search

/-!
# Orders that are there already

If every edge leads to a smaller number, the nodes stand in a processing order as they are, and the
search finds this one: it comes to a node when all that the node depends on is finished, so there is
never a second node on its stack.
-/

set_option autoImplicit false

namespace InferenceGraph.Order

/-- Every edge leads to a smaller number. -/
def Ascending (edges : List (List Nat)) : Prop :=
  ∀ (node : Nat) (es : List Nat), edges[node]? = some es → ∀ d ∈ es, d < node

variable {edges : List (List Nat)}

theorem Ascending.lt {node d : Nat} (h : Ascending edges) (hd : d ∈ dependenciesOf edges node) :
    d < node := by
  obtain ⟨es, he, hd⟩ := mem_dependenciesOf_iff.1 hd
  exact h node es he d hd

theorem Ascending.resolved (h : Ascending edges) : Resolved edges := by
  intro es hes d hd
  obtain ⟨node, hn⟩ := List.mem_iff_getElem?.1 hes
  have := h node es hn d hd
  have := (List.getElem?_eq_some_iff.1 hn).1
  omega

theorem Ascending.acyclic (h : Ascending edges) :
    Acyclic fun a b => b ∈ dependenciesOf edges a := by
  intro a ha
  have hlt : ∀ b, Relation.TransGen (fun a b => b ∈ dependenciesOf edges a) a b → b < a := by
    intro b hb
    induction hb with
    | single hb => exact h.lt hb
    | tail _ hb ih => exact (h.lt hb).trans ih
  exact Nat.lt_irrefl _ (hlt a ha)

/-- The first `done` nodes are finished, the next one may be on the stack, and the others are to be
tried as roots. -/
def Straight (edges : List (List Nat)) (s : Search) : Prop :=
  ∃ done, s.order = List.range done ∧
    (s.stack = [] ∧ s.roots = List.range' done (edges.length - done) ∨
      ∃ pending, s.stack = [⟨done, pending⟩] ∧
        s.roots = List.range' (done + 1) (edges.length - (done + 1)))

theorem straight_start : Straight edges (.start edges) :=
  ⟨0, rfl, .inl ⟨rfl, List.range_eq_range'⟩⟩

theorem Straight.step {s s' : Search} (h : Straight edges s) (ha : Ascending edges)
    (hs : Searching edges s) (he : s.step edges = .inl s') : Straight edges s' := by
  obtain ⟨done, ho, ⟨hstack, hroots⟩ | ⟨pending, hstack, hroots⟩⟩ := h
  · have hlt : done < edges.length := by
      by_contra hle
      rw [Nat.sub_eq_zero_of_le (Nat.le_of_not_lt hle)] at hroots
      simp [Search.step, hstack, hroots] at he
    have hfresh : s.marks[done]? = some .fresh := by
      rcases hs.place hlt with hm | hm | hm
      · exact hm
      · simp [Search.path, hstack] at hm
      · simp [ho] at hm
    obtain ⟨rest, hrest⟩ : ∃ rest, edges.length - done = rest + 1 :=
      ⟨edges.length - done - 1, by omega⟩
    rw [hrest, List.range'_succ] at hroots
    simp only [Search.step, hstack, hroots, hfresh, if_true] at he
    obtain rfl := Sum.inl.inj he
    refine ⟨done, ho, .inr ⟨_, rfl, ?_⟩⟩
    rw [show edges.length - (done + 1) = rest by omega]
    rfl
  · cases pending with
    | nil =>
      simp only [Search.step, hstack] at he
      obtain rfl := Sum.inl.inj he
      exact ⟨done + 1, by simp [ho, List.range_succ], .inl ⟨rfl, hroots⟩⟩
    | cons dep pending =>
      -- A dependency has a smaller number, and all of those are finished.
      have ht := hs.tracks
      rw [hstack] at ht
      have hdep : s.marks[dep]? = some .finished := by
        rw [hs.finished, ho, List.mem_range]
        exact ha.lt (ht.2.1 dep (by simp))
      simp only [Search.step, hstack, hdep] at he
      obtain rfl := Sum.inl.inj he
      exact ⟨done, ho, .inr ⟨pending, rfl, hroots⟩⟩

theorem Ascending.straight {s : Search} (ha : Ascending edges)
    (h : Reaches edges (.start edges) s) : Straight edges s := by
  induction h with
  | refl => exact straight_start
  | tail hs hstep ih => exact ih.step ha (Reaches.searching ha.resolved hs searching_start) hstep

theorem Ascending.ofEdges_eq (h : Ascending edges) :
    ofEdges edges = .ok (List.range edges.length) := by
  obtain ⟨order, ho⟩ := (exists_order_iff h.resolved).2 h.acyclic
  obtain ⟨last, hl, he⟩ := exists_last_of_run edges (.start edges)
  rw [show (Search.start edges).run edges = .ok order from ho] at he
  obtain ⟨done, hd, -⟩ := h.straight hl
  obtain rfl : last.order = order := (order_eq_of_step he).2.2
  have hlen := (ofEdges_ok h.resolved ho).1.length_eq
  rw [hd, List.length_range, List.length_range] at hlen
  rw [ho, hd, hlen]

end InferenceGraph.Order
