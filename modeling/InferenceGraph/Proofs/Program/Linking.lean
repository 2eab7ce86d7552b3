import InferenceGraph.Program.Compilation
import InferenceGraph.Proofs.Order.Search
import InferenceGraph.Proofs.Sequence

/-!
# Linked programs

A program is linked to a topology if its index, its edges and its reverse edges all speak of the
same numbers: an id is found at the node that has it, the dependencies of a node are the nodes of
the ids that its primitive declares, and the users of a node are the nodes that depend on it. The
first stage of a compilation links a node for every primitive.
-/

set_option autoImplicit false

namespace InferenceGraph

variable {ε : Type} [Extension ε]

namespace Program

def idsOf (p : Program ε) (numbers : List Nat) : List PrimitiveId :=
  numbers.filterMap fun number => p.ids[number]?

structure Linked (t : Topology ε) (p : Program ε) : Prop where
  primitive : ∀ n ∈ p.nodes, n.primitive ∈ t.primitives
  index_iff : ∀ id number, p.nodeIndex? id = some number ↔ p.ids[number]? = some id
  dependencies : ∀ n ∈ p.nodes,
    n.dependencies.map (p.ids[·]?) = n.primitive.dependencies.map some
  users : ∀ (number : Nat) (n : Node ε), p.nodes[number]? = some n → n.users.Nodup ∧
    ∀ user, user ∈ n.users ↔ ∃ m : Node ε, p.nodes[user]? = some m ∧ number ∈ m.dependencies

/-- Every node stands after its dependencies. -/
def Ordered (p : Program ε) : Prop :=
  ∀ (number : Nat) (n : Node ε), p.nodes[number]? = some n → ∀ d ∈ n.dependencies, d < number

theorem ids_eq_map_primitives (p : Program ε) :
    p.ids = (p.nodes.map Node.primitive).map Primitive.id := by
  rw [List.map_map]
  rfl

theorem getElem?_ids (p : Program ε) (i : Nat) : p.ids[i]? = p.nodes[i]?.map Node.id := by
  simp [ids]

theorem getElem?_ids_eq_some_iff {p : Program ε} {i : Nat} {id : PrimitiveId} :
    p.ids[i]? = some id ↔ ∃ n, p.nodes[i]? = some n ∧ n.id = id := by
  rw [p.getElem?_ids, Option.map_eq_some_iff]

theorem exists_node {p : Program ε} {id : PrimitiveId} (h : id ∈ p.ids) :
    ∃ (i : Nat) (n : Node ε), p.nodes[i]? = some n ∧ n.id = id := by
  obtain ⟨i, hi⟩ := List.mem_iff_getElem?.1 h
  exact ⟨i, getElem?_ids_eq_some_iff.1 hi⟩

@[simp] theorem length_ids (p : Program ε) : p.ids.length = p.size := by simp [ids, size]

namespace Linked

variable {t : Topology ε} {p : Program ε}

theorem nodup_ids (h : p.Linked t) : p.ids.Nodup := by
  refine List.nodup_iff_getElem?_ne_getElem?.2 fun i j hij hj he => ?_
  obtain ⟨id, hid⟩ : ∃ id, p.ids[j]? = some id := ⟨_, List.getElem?_eq_getElem hj⟩
  have hi := (h.index_iff id i).2 (he.trans hid)
  rw [(h.index_iff id j).2 hid] at hi
  have := Option.some.inj hi
  omega

theorem exists_dependency (h : p.Linked t) {n : Node ε} (hn : n ∈ p.nodes) {d : Nat}
    (hd : d ∈ n.dependencies) :
    ∃ m, p.nodes[d]? = some m ∧ m.id ∈ n.primitive.dependencies := by
  have hm := List.mem_map_of_mem (f := (p.ids[·]?)) hd
  rw [h.dependencies n hn] at hm
  obtain ⟨id, hid, he⟩ := List.mem_map.1 hm
  obtain ⟨m, hm, rfl⟩ := getElem?_ids_eq_some_iff.1 he.symm
  exact ⟨m, hm, hid⟩

theorem mem_dependencies_iff (h : p.Linked t) {n m : Node ε} (hn : n ∈ p.nodes) {d : Nat}
    (hm : p.nodes[d]? = some m) : d ∈ n.dependencies ↔ m.id ∈ n.primitive.dependencies := by
  constructor
  · intro hd
    obtain ⟨m', hm', hid⟩ := h.exists_dependency hn hd
    rw [hm] at hm'
    cases hm'
    exact hid
  · intro hid
    have hs := List.mem_map_of_mem (f := some) hid
    rw [← h.dependencies n hn] at hs
    obtain ⟨e, he, hs⟩ := List.mem_map.1 hs
    have hd : p.ids[d]? = some m.id := by simp [getElem?_ids, hm]
    have hde := ((h.index_iff _ _).2 hs).symm.trans ((h.index_iff _ _).2 hd)
    exact Option.some.inj hde ▸ he

theorem resolved (h : p.Linked t) : Order.Resolved p.edges := by
  intro es hes d hd
  obtain ⟨n, hn, rfl⟩ := List.mem_map.1 hes
  obtain ⟨m, hm, -⟩ := h.exists_dependency hn hd
  simpa [edges] using (List.getElem?_eq_some_iff.1 hm).1

theorem idsOf_dependencies (h : p.Linked t) {n : Node ε} (hn : n ∈ p.nodes) :
    p.idsOf n.dependencies = n.primitive.dependencies :=
  filterMap_eq_of_map (h.dependencies n hn)

end Linked

theorem mem_dependenciesOf_edges_iff {p : Program ε} {i d : Nat} :
    d ∈ Order.dependenciesOf p.edges i ↔ ∃ n, p.nodes[i]? = some n ∧ d ∈ n.dependencies := by
  rw [Order.mem_dependenciesOf_iff]
  constructor
  · rintro ⟨es, he, hd⟩
    rw [edges, List.getElem?_map, Option.map_eq_some_iff] at he
    obtain ⟨n, hn, rfl⟩ := he
    exact ⟨n, hn, hd⟩
  · rintro ⟨n, hn, hd⟩
    exact ⟨n.dependencies, by simp [edges, hn], hd⟩

end Program

namespace Primitive

def validate (p : Primitive ε) : Except GraphError Unit :=
  p.kind.rules.validate p.id p.dependencies.length p.params

def outputLayout (p : Primitive ε) (v : NodeView) : Outcome Layout :=
  p.kind.rules.outputLayout v p.params

end Primitive

namespace Node

theorem indexOf_eq_zipIdx (nodes : List (Node ε)) : indexOf nodes = (nodes.map Node.id).zipIdx := by
  simp [indexOf, List.zipIdx_map, Prod.map]

theorem resolve_eq_ok_iff {index : NodeIndex} {n : Node ε} {numbers : List Nat} :
    resolve index n = .ok numbers ↔
      n.primitive.dependencies.map (index.lookup ·) = numbers.map some := by
  refine mapM_eq_ok_iff_of_option fun dep number => ?_
  cases index.lookup dep <;> simp

theorem mem_usersOf {edges : List (List Nat)} {node user : Nat} :
    user ∈ usersOf edges node ↔ ∃ es, edges[user]? = some es ∧ node ∈ es := by
  simp only [usersOf, List.mem_filter, List.mem_range, List.contains_iff_mem]
  constructor
  · rintro ⟨hl, hm⟩
    exact ⟨edges[user], by simp [hl], by simpa [hl] using hm⟩
  · rintro ⟨es, he, hm⟩
    exact ⟨(List.getElem?_eq_some_iff.1 he).1, by simpa [he] using hm⟩

theorem nodup_usersOf (edges : List (List Nat)) (node : Nat) : (usersOf edges node).Nodup :=
  List.nodup_range.filter _

theorem getElem?_of_connect {index : NodeIndex} {nodes linked : List (Node ε)}
    (h : connect index nodes = .ok linked) :
    ∃ edges, nodes.mapM (resolve index) = .ok edges ∧ ∀ i : Nat, linked[i]? =
      nodes[i]?.map fun n =>
        { n with dependencies := edges[i]?.getD [], users := usersOf edges i } := by
  unfold connect at h
  cases he : nodes.mapM (resolve index) with
  | error e => simp [he, bind, Except.bind] at h
  | ok edges =>
    simp only [he, bind, Except.bind, pure, Except.pure, Except.ok.injEq] at h
    subst h
    refine ⟨edges, rfl, fun i => ?_⟩
    cases hn : nodes[i]? <;> simp [List.getElem?_zipIdx, hn]

variable [DecidableEq ε]

theorem kind_of_ofPrimitive {type : PrimitiveType ε} {p : Primitive ε} {n : Node ε}
    (h : ofPrimitive type p = .ok n) : type.kind = p.kind := by
  unfold ofPrimitive at h
  obtain ⟨params, hp, -⟩ := Outcome.bind_eq_ok_iff.1 h
  rw [Outcome.get_eq_ok_iff] at hp
  exact ((p.paramsAs?_isSome_iff type.kind).1 (by simp [hp])).symm

theorem ofPrimitive_eq {type : PrimitiveType ε} {p : Primitive ε} (h : type.kind = p.kind) :
    ofPrimitive type p = do
      Outcome.ofExcept p.validate
      return ⟨p, type, [], [], none, false⟩ := by
  obtain ⟨kind, tag⟩ := type
  subst h
  simp [ofPrimitive, Primitive.validate, Outcome.get, bind, Except.bind]

/-- What the first stage knows of a node, its edges apart. -/
structure Created (r : Registry ε) (n : Node ε) : Prop where
  type : r.typeOfPrimitive n.primitive = .ok n.type
  kind : n.type.kind = n.primitive.kind
  valid : n.primitive.validate = .ok ()
  layout? : n.layout? = none

theorem created_of_ofTopology {r : Registry ε} {t : Topology ε} {nodes : List (Node ε)}
    (h : ofTopology r t = .ok nodes) :
    nodes.map Node.primitive = t.primitives ∧ ∀ n ∈ nodes, n.Created r := by
  have hc : ∀ p n, (do
      let type ← Outcome.ofExcept (r.typeOfPrimitive p)
      ofPrimitive type p) = .ok n → n.primitive = p ∧ n.Created r := by
    intro p n h
    obtain ⟨type, ht, hn⟩ := Outcome.bind_eq_ok_iff.1 h
    rw [Outcome.ofExcept_eq_ok_iff] at ht
    have hk := kind_of_ofPrimitive hn
    rw [ofPrimitive_eq hk] at hn
    obtain ⟨_, hv, hn⟩ := Outcome.bind_eq_ok_iff.1 hn
    rw [Outcome.ofExcept_eq_ok_iff] at hv
    cases hn
    exact ⟨rfl, ht, hk, hv, rfl⟩
  constructor
  · refine List.ext_getElem? fun i => ?_
    rw [List.getElem?_map]
    cases hn : nodes[i]? with
    | some n =>
      obtain ⟨p, hp, hn⟩ := getElem?_source_of_mapM h hn
      simp [hp, (hc p n hn).1]
    | none =>
      rw [List.getElem?_eq_none_iff, length_of_mapM h] at hn
      exact (List.getElem?_eq_none hn).symm
  · intro n hn
    obtain ⟨p, -, hp⟩ := exists_source_of_mapM h hn
    exact (hc p n hp).2

end Node

namespace Program

variable [DecidableEq ε] {r : Registry ε} {t : Topology ε} {p : Program ε}

theorem initial_eq_ok (h : initial r t = .ok p) :
    ∃ nodes, Node.ofTopology r t = .ok nodes ∧
      Node.connect (Node.indexOf nodes) nodes = .ok p.nodes ∧ p.index = Node.indexOf nodes := by
  obtain ⟨nodes, hn, h⟩ := Outcome.bind_eq_ok_iff.1 h
  obtain ⟨linked, hl, h⟩ := Outcome.bind_eq_ok_iff.1 h
  rw [Outcome.ofExcept_eq_ok_iff] at hl
  cases h
  exact ⟨nodes, hn, hl, rfl⟩

theorem primitives_of_initial (h : initial r t = .ok p) :
    p.nodes.map Node.primitive = t.primitives := by
  obtain ⟨nodes, hn, hl, -⟩ := initial_eq_ok h
  obtain ⟨edges, -, hg⟩ := Node.getElem?_of_connect hl
  rw [← (Node.created_of_ofTopology hn).1]
  refine List.ext_getElem? fun i => ?_
  simp only [List.getElem?_map, hg]
  cases nodes[i]? <;> rfl

theorem ids_of_initial (h : initial r t = .ok p) : p.ids = t.ids := by
  rw [ids_eq_map_primitives, primitives_of_initial h, Topology.ids]

theorem created_of_initial (h : initial r t = .ok p) : ∀ n ∈ p.nodes, n.Created r := by
  obtain ⟨nodes, hn, hl, -⟩ := initial_eq_ok h
  obtain ⟨edges, -, hg⟩ := Node.getElem?_of_connect hl
  intro n hm
  obtain ⟨i, hi⟩ := List.mem_iff_getElem?.1 hm
  rw [hg, Option.map_eq_some_iff] at hi
  obtain ⟨m, hi, rfl⟩ := hi
  obtain ⟨ht, hk, hv, hl⟩ := (Node.created_of_ofTopology hn).2 m (List.mem_of_getElem? hi)
  exact ⟨ht, hk, hv, hl⟩

theorem linked_of_initial (h : initial r t = .ok p) : p.Linked t := by
  obtain ⟨nodes, hn, hl, hi⟩ := initial_eq_ok h
  obtain ⟨edges, he, hg⟩ := Node.getElem?_of_connect hl
  have hids : p.ids = nodes.map Node.id := by
    rw [ids_of_initial h, Topology.ids, ← (Node.created_of_ofTopology hn).1, List.map_map]
    rfl
  have hu : p.ids.Nodup := ids_of_initial h ▸ t.ids_nodup
  have hindex : ∀ id i, p.index.lookup id = some i ↔ p.ids[i]? = some id := by
    intro id i
    rw [hi, Node.indexOf_eq_zipIdx, ← hids]
    exact lookup_zipIdx_eq_some_iff hu
  have hedges : ∀ (i : Nat) (n : Node ε), p.nodes[i]? = some n → edges[i]? = some n.dependencies ∧
      n.primitive.dependencies.map (p.index.lookup ·) = n.dependencies.map some := by
    intro i n hm
    rw [hg, Option.map_eq_some_iff] at hm
    obtain ⟨m, hm, rfl⟩ := hm
    obtain ⟨es, hes, hr⟩ := getElem?_of_mapM he hm
    rw [← hi] at hr
    simpa [hes] using Node.resolve_eq_ok_iff.1 hr
  -- The nodes in terms of the edges: the users of a node are read off the edges of all others.
  refine ⟨?_, hindex, ?_, ?_⟩
  · intro n hm
    rw [← primitives_of_initial h]
    exact List.mem_map_of_mem hm
  · intro n hm
    obtain ⟨i, hm⟩ := List.mem_iff_getElem?.1 hm
    exact map_inverse (fun id j => (hindex id j).1) (hedges i n hm).2
  · intro i n hm
    have hm' := hm
    rw [hg, Option.map_eq_some_iff] at hm'
    obtain ⟨m, -, rfl⟩ := hm'
    refine ⟨Node.nodup_usersOf _ _, fun user => ?_⟩
    rw [Node.mem_usersOf]
    constructor
    · rintro ⟨es, hes, hd⟩
      obtain ⟨k, hk, -⟩ := getElem?_source_of_mapM he hes
      exact ⟨_, by rw [hg, hk, Option.map_some], by simpa [hes] using hd⟩
    · rintro ⟨k, hk, hd⟩
      exact ⟨_, (hedges user k hk).1, hd⟩

end Program

end InferenceGraph
