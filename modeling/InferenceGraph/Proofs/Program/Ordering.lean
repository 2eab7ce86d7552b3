import InferenceGraph.Proofs.Topology.Graph

/-!
# The processing order of a program

The search works on the numbers of nodes; a program reports what it finds by the ids of its nodes.
All of it holds of any program whose dependencies are nodes: nothing is assumed of the ids, of the
reverse edges or of the index, and a node may depend on itself or on the same node twice.
-/

set_option autoImplicit false

namespace InferenceGraph

namespace Program

variable {ε : Type} [Extension ε] {p : Program ε}

theorem length_edges (p : Program ε) : p.edges.length = p.size := by simp [edges, size]

def Edge (p : Program ε) (i j : Nat) : Prop := j ∈ Order.dependenciesOf p.edges i

def NamedEdge (p : Program ε) (a b : PrimitiveId) : Prop :=
  ∃ i j, p.Edge i j ∧ p.ids[i]? = some a ∧ p.ids[j]? = some b

/-- The ids along a cycle of nodes. -/
def NamesCycle (p : Program ε) (names : List PrimitiveId) : Prop :=
  ∃ cycle, Order.IsCycle p.Edge cycle ∧ cycle.map (p.ids[·]?) = names.map some

theorem exists_node_of_isCycle {cycle : List Nat} (hc : Order.IsCycle p.Edge cycle) :
    ∀ i ∈ cycle, ∃ n, p.node i = .ok n := by
  intro i hi
  obtain ⟨d, hd⟩ := hc.exists_next hi
  obtain ⟨n, hn, -⟩ := mem_dependenciesOf_edges_iff.1 hd
  exact ⟨n, by simp [node, hn]⟩

theorem NamesCycle.isCycle {names : List PrimitiveId} (h : p.NamesCycle names)
    (hu : p.ids.Nodup) : Order.IsCycle p.NamedEdge names := by
  obtain ⟨cycle, hc, hm⟩ := h
  refine hc.rename hm (fun i j id hi hj => ?_) fun i j a b hij hi hj => ⟨i, j, hij, hi, hj⟩
  have hplace := (idxOf?_eq_some_iff_of_nodup hu).2 hi
  exact Option.some.inj (hplace.symm.trans ((idxOf?_eq_some_iff_of_nodup hu).2 hj))

section Resolved

variable (h : Order.Resolved p.edges)
include h

theorem order_eq : (∃ order, p.order = .ok order ∧ Order.ofEdges p.edges = .ok order) ∨
    ∃ cycle names, p.order = .error (.error (.graphCycle names)) ∧
      Order.ofEdges p.edges = .error cycle ∧ cycle.map (p.ids[·]?) = names.map some := by
  cases hr : Order.ofEdges p.edges with
  | ok order => exact .inl ⟨order, by rw [Program.order, hr], rfl⟩
  | error cycle =>
    have hc := Order.isCycle_of_ofEdges h hr
    obtain ⟨nodes, hm⟩ := mapM_ok_of_forall (exists_node_of_isCycle hc)
    have hg : cycle.map (p.nodes[·]?) = nodes.map some :=
      (mapM_eq_ok_iff_of_option fun i n => by simp [node]).1 hm
    have hi := congrArg (List.map (Option.map Node.id)) hg
    refine .inr ⟨cycle, nodes.map Node.id, ?_, rfl, ?_⟩
    · rw [Program.order, hr]
      simp only [hm, ok_bind]
      rfl
    · simpa [Function.comp_def, getElem?_ids] using hi

theorem order_ok {order : List Nat} (ho : p.order = .ok order) :
    order.Perm (List.range p.size) ∧ Order.Sorted (Order.dependenciesOf p.edges) order := by
  obtain ⟨order', ho', hr⟩ | ⟨cycle, names, ho', -⟩ := order_eq h
  · obtain rfl := Except.ok.inj (ho.symm.trans ho')
    rw [← p.length_edges]
    exact Order.ofEdges_ok h hr
  · cases ho.symm.trans ho'

theorem order_error {f : Failure} (ho : p.order = .error f) :
    ∃ names, f = .error (.graphCycle names) ∧ p.NamesCycle names := by
  obtain ⟨order, ho', -⟩ | ⟨cycle, names, ho', hr, hm⟩ := order_eq h
  · cases ho.symm.trans ho'
  · obtain rfl := Except.error.inj (ho.symm.trans ho')
    exact ⟨names, rfl, cycle, Order.isCycle_of_ofEdges h hr, hm⟩

theorem exists_order_iff : (∃ order, p.order = .ok order) ↔ Order.Acyclic p.Edge := by
  unfold Edge
  rw [← Order.exists_order_iff h]
  obtain ⟨order, ho, hr⟩ | ⟨cycle, names, ho, hr, -⟩ := order_eq h <;> simp [ho, hr]

end Resolved

/-- What the search for a processing order comes to. -/
structure OrderFound (p : Program ε) : Prop where
  /-- No search goes on for ever. -/
  ends : WellFounded fun after before : Order.Search => before.step p.edges = .inl after
  /-- A node that is being visited is on the stack, so there is a place for a cycle to start. -/
  stacked : ∀ s, Order.Reaches p.edges (.start p.edges) s → ∀ i, s.marks[i]? = some .visiting →
    ∃ place, s.path.idxOf? i = some place
  result : ∃ last, Order.Reaches p.edges (.start p.edges) last ∧
    last.step p.edges = .inr (Order.ofEdges p.edges)
  ok_iff : (∃ order, p.order = .ok order) ↔ Order.Acyclic p.Edge
  order : ∀ order, p.order = .ok order →
    order.Perm (List.range p.size) ∧ Order.Sorted (Order.dependenciesOf p.edges) order
  error : ∀ f, p.order = .error f → ∃ names, f = .error (.graphCycle names) ∧
    p.NamesCycle names ∧ (p.ids.Nodup → Order.IsCycle p.NamedEdge names)

theorem orderFound_of_resolved (h : Order.Resolved p.edges) : p.OrderFound where
  ends := Order.Search.wellFounded_step p.edges
  stacked := by
    intro s hs i hi
    have hm := ((hs.searching h Order.searching_start).visiting i).1 hi
    exact Option.isSome_iff_exists.1 (List.isSome_idxOf?.2 hm)
  result := Order.exists_last_of_run p.edges (.start p.edges)
  ok_iff := exists_order_iff h
  order := fun _ ho => order_ok h ho
  error := by
    intro f hf
    obtain ⟨names, rfl, hn⟩ := order_error h hf
    exact ⟨names, rfl, hn, hn.isCycle⟩

end Program

namespace Topology

def base : PrimitiveId := ⟨"base", by decide, by decide⟩
def double : PrimitiveId := ⟨"double", by decide, by decide⟩
def loop : PrimitiveId := ⟨"loop", by decide, by decide⟩

/-- An input, its sum with itself, and a sum that depends on itself. -/
def tangled : Topology Empty where
  primitives :=
    [.ofParams base [] .inputLayout (InputLayout.mk (.unpadded .float32 .bfyx ⟨1, 1, 1, 2⟩)),
      .ofParams double [base] .eltwise (.plain base .sum),
      .ofParams loop [double] .eltwise (.plain loop .sum)]
  ids_nodup := by decide

end Topology

theorem Program.orderFound_of_resolved_tangled :
    ∃ p, initial .standard Topology.tangled = .ok p ∧ Order.Resolved p.edges ∧ p.OrderFound ∧
      p.order = .error (.error (.graphCycle [Topology.loop, Topology.loop])) := by
  have hcycle : Order.ofEdges [[], [0, 0], [1, 2]] = .error [2, 2] := by cbv
  have hp : (initial .standard Topology.tangled).map (fun p => (p.edges, p.ids)) =
      .ok ([[], [0, 0], [1, 2]], Topology.tangled.ids) := by rfl
  cases hi : initial .standard Topology.tangled with
  | error f =>
    rw [hi] at hp
    cases hp
  | ok p =>
    rw [hi] at hp
    obtain ⟨he, hids⟩ := Prod.mk.inj (Except.ok.inj hp)
    have hr := (linked_of_initial hi).resolved
    refine ⟨p, rfl, hr, orderFound_of_resolved hr, ?_⟩
    rcases order_eq hr with ⟨order, -, ho⟩ | ⟨cycle, names, hn, hc, hm⟩
    · cases hcycle.symm.trans (he ▸ ho)
    · obtain rfl := Except.error.inj (hcycle.symm.trans (he ▸ hc))
      rw [hids] at hm
      have hnames : names = [Topology.loop, Topology.loop] :=
        List.map_injective_iff.2 (fun _ _ => Option.some.inj) hm.symm
      rw [hn, hnames]

end InferenceGraph
