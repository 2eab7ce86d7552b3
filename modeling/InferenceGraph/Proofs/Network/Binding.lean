import InferenceGraph.Host.Network
import InferenceGraph.Proofs.Buffer
import InferenceGraph.Proofs.Network.State
import InferenceGraph.Proofs.Topology.Meaning

set_option autoImplicit false

namespace InferenceGraph

variable {ε : Type} [Extension ε]

structure Instance.StandsFor (i : Instance) (number : Nat) (n : Node ε) : Prop
    extends i.Mirrors number n where
  layout : n.layout? = some i.output.layout
  hasData : n.primitive.kind ≠ .inputLayout → i.hasData = true

namespace Network

/-- The first instances of a network, each with a buffer that no other one has. -/
structure Bound (p : Program ε) (instances : List Instance) (s : Store) : Prop where
  node : ∀ (k : Nat) (i : Instance), instances[k]? = some i →
    ∃ n : Node ε, p.nodes[k]? = some n ∧ i.StandsFor k n
  buffer : ∀ i ∈ instances, ∃ b, s.hostBuffer? i.output = some b ∧ b.Proper
  apart : (instances.map fun i => i.output.place).Nodup

variable {t : Topology ε} {p : Program ε} {instances : List Instance} {s : Store}

theorem Bound.start (p : Program ε) (s : Store) : Bound p [] s :=
  ⟨by simp, by simp, by simp⟩

/-- A new buffer is apart from those of all instances. -/
theorem Bound.place_not_mem (h : Bound p instances s) (b : HostBuffer) :
    (s.insert (.host b)).1.place ∉ instances.map fun i => i.output.place := by
  intro hm
  obtain ⟨i, hi, he⟩ := List.mem_map.1 hm
  obtain ⟨c, hc, -⟩ := h.buffer i hi
  exact Store.place_insert_ne hc b he.symm

theorem Bound.insert (h : Bound p instances s) (b : Buffer) :
    Bound p instances (s.insert b).2 := by
  refine ⟨h.node, fun i hi => ?_, h.apart⟩
  obtain ⟨c, hc, hs⟩ := h.buffer i hi
  exact ⟨c, Store.hostBuffer?_insert_of_some hc b, hs⟩

theorem Bound.snoc (h : Bound p instances s) {b : HostBuffer} (hb : b.Proper) {i : Instance}
    {n : Node ε} (hn : p.nodes[instances.length]? = some n)
    (hi : i.StandsFor instances.length n) (ho : i.output = (s.insert (.host b)).1) :
    Bound p (instances ++ [i]) (s.insert (.host b)).2 := by
  have hins := h.insert (.host b)
  refine ⟨?_, ?_, ?_⟩
  · intro k j hj
    rcases getElem?_concat_eq_some_iff.1 hj with hj | ⟨rfl, rfl⟩
    · exact h.node k j hj
    · exact ⟨n, hn, hi⟩
  · intro j hj
    rcases List.mem_append.1 hj with hj | hj
    · exact hins.buffer j hj
    · obtain rfl := List.mem_singleton.1 hj
      exact ⟨b, ho ▸ Store.hostBuffer?_insert s b, hb⟩
  · rw [List.map_append, List.nodup_append]
    refine ⟨h.apart, by simp, fun x hx y hy he => ?_⟩
    obtain rfl : y = i.output.place := by simpa using hy
    rw [he, ho] at hx
    exact h.place_not_mem b hx

theorem Bound.unbound?_eq_none (h : Bound p instances s) {dependencies : List Nat}
    (hd : ∀ d ∈ dependencies, d < instances.length) : unbound? instances dependencies = none := by
  refine List.find?_eq_none.2 fun d hm => ?_
  have hi := List.getElem?_eq_getElem (hd d hm)
  obtain ⟨n, -, hs⟩ := h.node d _ hi
  simp [hi, hs.index]

theorem createBuffer_eq {k : Kind ε} (hb : k.isBuiltin = true) (a : Allocator) (v : NodeView)
    (q : k.Params) : k.rules.createBuffer a v q = v.allocate a := by
  cases k with
  | custom e => simp [Kind.isBuiltin] at hb
  | _ => rfl

variable [DecidableEq ε]

theorem exists_params {n : Node ε} (h : n.type.kind = n.primitive.kind) :
    ∃ q, n.params = .ok q := by
  have hs := (n.primitive.paramsAs?_isSome_iff n.type.kind).2 h.symm
  obtain ⟨q, hq⟩ := Option.isSome_iff_exists.1 hs
  exact ⟨q, by rw [Node.params, hq, Outcome.get_some]⟩

theorem bindNode_eq (hc : p.Compiled t) (h : Bound p instances s) {n : Node ε}
    (hn : p.nodes[instances.length]? = some n) {layout : Layout} (hl : n.layout? = some layout) :
    bindNode p .host instances s instances.length =
      .ok (⟨instances.length, n.id, n.dependencies, (s.insert (.host (.fresh layout))).1,
        !n.isKind .inputLayout⟩, (s.insert (.host (.fresh layout))).2) := by
  have hm := List.mem_of_getElem? hn
  have hk := hc.kind n hm
  obtain ⟨q, hq⟩ := exists_params hk
  have hu := h.unbound?_eq_none fun d hd => hc.ordered _ n hn d hd
  have hb : n.type.kind.isBuiltin = true := hk ▸ hc.isBuiltin hm
  have hv : (p.view instances.length n).outputLayout = .ok layout := by
    rw [NodeView.outputLayout, Program.view, hl, Outcome.get_some]
  have hnode : p.node instances.length = .ok n := by rw [Program.node, hn, Outcome.get_some]
  have ho : p.outputLayout instances.length = .ok layout := by
    rw [Program.outputLayout, hnode, ok_bind, hl, Outcome.get_some]
  rw [bindNode, hnode, ok_bind]
  simp only [hu, hq, ok_bind, createBuffer_eq hb, NodeView.allocate, hv, ho, Allocator.host,
    Buffer.layout, HostBuffer.layout_fresh, Layout.same_refl, if_true, pure_eq_ok]

theorem standsFor_bound {n : Node ε} {k : Nat} {m : Memory}
    (hk : n.type.kind = n.primitive.kind) (hl : n.layout? = some m.layout) :
    Instance.StandsFor ⟨k, n.id, n.dependencies, m, !n.isKind .inputLayout⟩ k n := by
  refine ⟨⟨rfl, rfl, rfl⟩, hl, fun hi => ?_⟩
  simp [Node.isKind, hk, hi]

theorem bindNodes_ok (hc : p.Compiled t) {count : Nat} (h : Bound p instances s)
    (hl : instances.length + count = p.size) :
    ∃ instances' s', bindNodes p .host instances s (List.range' instances.length count) =
      .ok (instances', s') ∧ Bound p instances' s' := by
  induction count generalizing instances s with
  | zero => exact ⟨instances, s, rfl, h⟩
  | succ count ih =>
    have hlt : instances.length < p.nodes.length := by
      simp only [Program.size] at hl
      omega
    obtain ⟨n, hn⟩ : ∃ n, p.nodes[instances.length]? = some n :=
      ⟨_, List.getElem?_eq_getElem hlt⟩
    have hm := List.mem_of_getElem? hn
    obtain ⟨layout, hlayout, -⟩ := hc.layout n hm
    have hs := standsFor_bound (m := (s.insert (.host (.fresh layout))).1) (k := instances.length)
      (hc.kind n hm) hlayout
    have hb := h.snoc (HostBuffer.proper_fresh layout) hn hs rfl
    have hr := ih hb (by rw [List.length_append, List.length_singleton]; omega)
    rw [List.length_append, List.length_singleton] at hr
    rw [List.range'_succ, bindNodes, bindNode_eq hc h hn hlayout]
    exact hr

/-- What is true of a host network of a program for which some inputs were set. -/
structure Sound (p : Program ε) (data : InputData) (n : Network ε) : Prop where
  program : n.program = p
  length : n.instances.length = p.size
  bound : Bound p n.instances n.store
  fed : ∀ (k : Nat) (i : Instance) (m : Node ε), n.instances[k]? = some i →
    p.nodes[k]? = some m → m.primitive.kind = .inputLayout →
      i.hasData = (data m.id).isSome ∧
        ∀ values, data m.id = some values → n.store.values? i.output = some values

omit [DecidableEq ε] in
theorem Sound.mirrored {data : InputData} {n : Network ε} (h : n.Sound p data) : n.Mirrored p where
  program := h.program
  length := h.length
  mirrors k i hi := by
    obtain ⟨m, hm, hs⟩ := h.bound.node k i hi
    exact ⟨m, hm, hs.toMirrors⟩

theorem sound_of_ofProgram (hc : p.Compiled t) :
    ∃ n, ofProgram p .host = .ok n ∧ n.Sound p fun _ => none := by
  obtain ⟨instances, s, hb, hbound⟩ := bindNodes_ok hc (Bound.start p .empty) (Nat.zero_add p.size)
  rw [List.length_nil, ← List.range_eq_range'] at hb
  have hn : ofProgram p .host = .ok ⟨p, instances, s, []⟩ := by
    rw [ofProgram, hb]
    rfl
  have hi := intact_of_ofProgram hc.toReady hn
  refine ⟨_, hn, rfl, hi.length, hbound, ?_⟩
  intro k i m hik hm hk
  obtain ⟨m', hm', hs⟩ := hi.serving k i hik
  rw [hm, Option.some.injEq] at hm'
  subst hm'
  exact ⟨by simpa [hk] using hs.hasData_iff, fun values hv => by cases hv⟩

end Network

end InferenceGraph
