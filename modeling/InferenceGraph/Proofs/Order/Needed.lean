import InferenceGraph.Proofs.Order.Search

set_option autoImplicit false

namespace InferenceGraph.Order

def Reached (edges : List (List Nat)) (targets : List Nat) (node : Nat) : Prop :=
  ∃ t ∈ targets, Relation.ReflTransGen (fun a b => b ∈ dependenciesOf edges a) t node

structure Within (edges : List (List Nat)) (targets : List Nat) : Prop where
  resolved : Resolved edges
  targets : ∀ t ∈ targets, t < edges.length

variable {edges : List (List Nat)} {targets : List Nat} {node d : Nat}

theorem Reached.dependency (h : Reached edges targets node) (hd : d ∈ dependenciesOf edges node) :
    Reached edges targets d := by
  obtain ⟨t, ht, hw⟩ := h
  exact ⟨t, ht, hw.tail hd⟩

theorem Within.lt (h : Within edges targets) (hr : Reached edges targets node) :
    node < edges.length := by
  obtain ⟨t, ht, hw⟩ := hr
  rcases hw.cases_tail with rfl | ⟨_, -, hd⟩
  · exact h.targets _ ht
  · exact h.resolved.lt hd

/-- What is known of a list of nodes to look at, at any time. -/
structure Collecting (edges : List (List Nat)) (targets : List Nat) (w : Worklist) : Prop where
  length : w.kept.length = edges.length
  kept : ∀ node, w.kept[node]? = some true → Reached edges targets node
  todo : ∀ node ∈ w.todo, Reached edges targets node
  target : ∀ t ∈ targets, w.kept[t]? = some true ∨ t ∈ w.todo
  dependency : ∀ node, w.kept[node]? = some true → ∀ d ∈ dependenciesOf edges node,
    w.kept[d]? = some true ∨ d ∈ w.todo

theorem collecting_start (edges : List (List Nat)) (targets : List Nat) :
    Collecting edges targets (.start edges targets) := by
  have hnone : ∀ node : Nat, (List.replicate edges.length false)[node]? ≠ some true := by
    intro node h
    rw [List.getElem?_replicate] at h
    split at h <;> cases h
  constructor
  case length => exact List.length_replicate
  case kept => exact fun node h => absurd h (hnone node)
  case todo => exact fun node h => ⟨node, List.mem_reverse.1 h, .refl⟩
  case target => exact fun t h => .inr (List.mem_reverse.2 h)
  case dependency => exact fun node h => absurd h (hnone node)

namespace Collecting

variable {w w' : Worklist}

section Next

variable {todo : List Nat} (h : Collecting edges targets w) (ht : w.todo = node :: todo)
include h ht

theorem keep (hl : node < edges.length) : Collecting edges targets
    ⟨w.kept.set node true, (dependenciesOf edges node).reverse ++ todo⟩ := by
  have hkept : ∀ i, (w.kept.set node true)[i]? = some true ↔
      i = node ∨ w.kept[i]? = some true := by
    intro i
    rw [getElem?_set_eq_some_iff (h.length.symm ▸ hl)]
    by_cases hi : node = i <;> simp [hi, eq_comm]
  have hmoved : ∀ d, w.kept[d]? = some true ∨ d ∈ w.todo →
      (w.kept.set node true)[d]? = some true ∨
        d ∈ (dependenciesOf edges node).reverse ++ todo := by
    intro d hd
    rw [hkept, List.mem_append]
    rw [ht, List.mem_cons] at hd
    tauto
  have hnode : Reached edges targets node := h.todo node (ht ▸ List.mem_cons_self)
  constructor
  case length => exact (List.length_set ..).trans h.length
  case kept =>
    intro i hi
    rcases (hkept i).1 hi with rfl | hi
    · exact hnode
    · exact h.kept i hi
  case todo =>
    intro i hi
    rcases List.mem_append.1 hi with hi | hi
    · exact hnode.dependency (List.mem_reverse.1 hi)
    · exact h.todo i (ht ▸ List.mem_cons_of_mem node hi)
  case target => exact fun t hm => hmoved t (h.target t hm)
  case dependency =>
    intro i hi d hd
    rcases (hkept i).1 hi with rfl | hi
    · exact .inr (List.mem_append_left todo (List.mem_reverse.2 hd))
    · exact hmoved d (h.dependency i hi d hd)

theorem drop (hk : w.kept[node]? = some true) : Collecting edges targets { w with todo := todo } := by
  have hmoved : ∀ d, w.kept[d]? = some true ∨ d ∈ w.todo → w.kept[d]? = some true ∨ d ∈ todo := by
    intro d hd
    rw [ht, List.mem_cons] at hd
    rcases hd with hd | rfl | hd
    · exact .inl hd
    · exact .inl hk
    · exact .inr hd
  constructor
  case length => exact h.length
  case kept => exact h.kept
  case todo => exact fun i hi => h.todo i (ht ▸ List.mem_cons_of_mem node hi)
  case target => exact fun t hm => hmoved t (h.target t hm)
  case dependency => exact fun i hi d hd => hmoved d (h.dependency i hi d hd)

end Next

variable (hin : Within edges targets) (h : Collecting edges targets w)
include hin h

theorem step (hs : w.step edges = some w') : Collecting edges targets w' := by
  cases ht : w.todo with
  | nil =>
    rw [Worklist.step, ht] at hs
    cases hs
  | cons node todo =>
    have hlt : node < edges.length := hin.lt (h.todo node (ht ▸ List.mem_cons_self))
    rw [Worklist.step, ht] at hs
    simp only at hs
    split at hs
    · cases hs
      exact h.keep ht hlt
    · next hk =>
      cases hs
      refine h.drop ht ?_
      rw [List.getElem?_eq_getElem (h.length.symm ▸ hlt), Option.some.injEq] at hk ⊢
      exact eq_true_of_ne_false hk

theorem run : Collecting edges targets (w.run edges) ∧ (w.run edges).todo = [] := by
  fun_induction Worklist.run edges w with
  | case1 w w' hs ih => exact ih (h.step hin hs)
  | case2 w hs =>
    refine ⟨h, ?_⟩
    cases ht : w.todo with
    | nil => rfl
    | cons node todo =>
      rw [Worklist.step, ht] at hs
      simp only at hs
      split at hs <;> cases hs

end Collecting

theorem mem_needed_iff (hin : Within edges targets) :
    node ∈ needed edges targets ↔ Reached edges targets node := by
  obtain ⟨h, ht⟩ := (collecting_start edges targets).run hin
  have hkept : ∀ d, Reached edges targets d →
      ((Worklist.start edges targets).run edges).kept[d]? = some true := by
    rintro d ⟨t, htm, hw⟩
    induction hw with
    | refl => simpa [ht] using h.target t htm
    | tail _ hd ih => simpa [ht] using h.dependency _ ih _ hd
  rw [needed, List.mem_filter, List.mem_range, decide_eq_true_eq]
  exact ⟨fun hn => h.kept node hn.2, fun hr => ⟨hin.lt hr, hkept node hr⟩⟩

end InferenceGraph.Order
