import InferenceGraph.Proofs.Host.Calls
import InferenceGraph.Proofs.Host.History

set_option autoImplicit false

namespace InferenceGraph

namespace Store

variable {s s' s'' : Store} {m m' : Memory} {b : HostBuffer} {values : List Float32}

def Keeps (s s' : Store) : Prop :=
  ∀ (m : Memory) (b : HostBuffer), s.hostBuffer? m = some b →
    ∃ c, s'.hostBuffer? m = some c ∧ c.cells.size = b.cells.size

theorem Keeps.refl (s : Store) : s.Keeps s := fun _ b hb => ⟨b, hb, rfl⟩

theorem Keeps.trans (h : s.Keeps s') (h' : s'.Keeps s'') : s.Keeps s'' := by
  intro m b hb
  obtain ⟨c, hc, hsize⟩ := h m b hb
  obtain ⟨d, hd, hsize'⟩ := h' m c hc
  exact ⟨d, hd, hsize'.trans hsize⟩

theorem Keeps.exists_sized (h : s.Keeps s') (hb : s.hostBuffer? m = some b) (hs : b.Sized) :
    ∃ c, s'.hostBuffer? m = some c ∧ c.Sized := by
  obtain ⟨c, hc, hsize⟩ := h m b hb
  refine ⟨c, hc, fun ht => ?_⟩
  rw [layout_of_hostBuffer? hc, ← layout_of_hostBuffer? hb] at ht ⊢
  rw [hsize, hs ht]

structure Changes (s : Store) (m : Memory) (s' : Store) : Prop where
  keeps : s.Keeps s'
  others : ∀ m' : Memory, m.place ≠ m'.place → s'.hostBuffer? m' = s.hostBuffer? m'

theorem Changes.refl (s : Store) (m : Memory) : s.Changes m s := ⟨.refl s, fun _ _ => rfl⟩

theorem Written.changes (h : s.Written m values s') : s.Changes m s' := by
  refine ⟨fun m' b' hb' => ?_, fun m' hne => h.hostBuffer?_of_ne hne⟩
  by_cases hp : m.place = m'.place
  · obtain ⟨b, c, hb, hw, rfl⟩ := h
    obtain ⟨-, -, rfl⟩ := HostBuffer.write_eq_ok_iff.1 hw
    -- Handles to one place differ in their layouts at most.
    have hcells : b.cells = b'.cells := by
      unfold hostBuffer? at hb hb'
      rw [hp] at hb
      cases hm : m'.place with
      | elsewhere => simp [hm] at hb'
      | host slot =>
        simp only [hm, Option.map_eq_some_iff] at hb hb'
        obtain ⟨cells, hcells, rfl⟩ := hb
        obtain ⟨cells', hcells', rfl⟩ := hb'
        exact Option.some.inj (hcells.symm.trans hcells')
    have hset : ∀ cells, s.setCells m cells = s.setCells m' cells := fun cells => by
      simp only [setCells, hp]
    exact ⟨_, by rw [hset]; exact hostBuffer?_setCells_self hb' _, by simp [hcells]⟩
  · exact ⟨b', by rw [h.hostBuffer?_of_ne hp, hb'], rfl⟩

end Store

variable {ε : Type} [Extension ε]

namespace Kernel

/-- The kernel changes nothing but its output, whatever it computes. -/
def Confined (kernel : Kernel ε) : Prop :=
  ∀ (b : BoundNode ε) (s s' : Store), kernel b s = .ok s' → s.Changes b.output s'

variable [DecidableEq ε] {kernels : List (String × Kernel ε)}

/-- Kernels of any kinds, all of them confined; that of activations is the builtin one, if there is
one. -/
structure Orderly (kernels : List (String × Kernel ε)) : Prop where
  confined : ∀ (name : String) (kernel : Kernel ε), kernels.lookup name = some kernel →
    kernel.Confined
  activation : ∀ kernel : Kernel ε, kernels.lookup (Kind.activation : Kind ε).name = some kernel →
    kernel = Kernel.activation

theorem confined_ofKind (k : Kind ε) : Confined (ofKind k) := by
  intro b s s' h
  by_cases hk : k = .inputLayout
  · subst hk
    obtain rfl := Except.ok.inj h
    exact .refl s b.output
  · obtain ⟨values, hw⟩ := BoundNode.writes_ofKind hk s' h
    exact hw.changes

theorem exists_kind_of_lookup {name : String} {kernel : Kernel ε}
    (h : (builtins : List (String × Kernel ε)).lookup name = some kernel) :
    ∃ k : Kind ε, kernel = ofKind k := by
  obtain ⟨before, after, hl, -⟩ := List.lookup_eq_some_iff.1 h
  have hm : (name, kernel) ∈ (builtins : List (String × Kernel ε)) := by simp [hl]
  simp only [builtins, List.mem_cons, List.not_mem_nil, or_false, Prod.mk.injEq] at hm
  rcases hm with ⟨-, rfl⟩ | ⟨-, rfl⟩ | ⟨-, rfl⟩ | ⟨-, rfl⟩ | ⟨-, rfl⟩
  · exact ⟨.inputLayout, rfl⟩
  · exact ⟨.activation, rfl⟩
  · exact ⟨.eltwise, rfl⟩
  · exact ⟨.detectionOutput, rfl⟩
  · exact ⟨.reorder, rfl⟩

theorem Partial.orderly (h : Partial kernels) : Orderly kernels where
  confined name kernel hl := by
    obtain ⟨k, rfl⟩ := exists_kind_of_lookup (h name kernel hl)
    exact confined_ofKind k
  activation kernel hl := by
    have hb := h _ kernel hl
    rw [lookup_builtins rfl] at hb
    exact (Option.some.inj hb).symm

theorem Orderly.dispatch_keeps (h : Orderly kernels) (b : BoundNode ε) (events : List HostEvent)
    (s : Nat × Store) : s.2.Keeps (HostDispatcher.dispatch kernels b events s).2.2 := by
  cases hd : HostDispatcher.dispatch kernels b events s with
  | mk result r =>
    cases result with
    | error e =>
      rw [HostDispatcher.dispatch_error hd]
      exact .refl s.2
    | ok event =>
      obtain ⟨kernel, s', hl, hk, -, rfl⟩ := HostDispatcher.dispatch_ok hd
      exact (h.confined _ kernel hl b s.2 s' hk).keeps

end Kernel

namespace Network

variable {p : Program ε} {instances instances' : List Instance} {s s' : Store} {k : Nat}
variable {i : Instance} {m : Node ε}

/-- No buffer in host memory belongs to two instances, and those of activations have all the cells
of their layouts. -/
structure Owned (p : Program ε) (instances : List Instance) (s : Store) : Prop where
  held : ∀ (k : Nat) (i : Instance), instances[k]? = some i → i.output.place ≠ .elsewhere →
    ∃ b, s.hostBuffer? i.output = some b
  apart : ∀ (k l : Nat) (i j : Instance), instances[k]? = some i → instances[l]? = some j →
    i.output.place = j.output.place → k = l ∨ i.output.place = .elsewhere
  sized : ∀ (k : Nat) (i : Instance) (m : Node ε), instances[k]? = some i →
    p.nodes[k]? = some m → m.type.kind = .activation →
      ∃ b, s.hostBuffer? i.output = some b ∧ b.Sized

theorem Owned.start (p : Program ε) (s : Store) : Owned p [] s := by constructor <;> simp

theorem Owned.keeps (h : Owned p instances s) (hs : s.Keeps s') : Owned p instances s' where
  held k i hi hp := by
    obtain ⟨b, hb⟩ := h.held k i hi hp
    obtain ⟨c, hc, -⟩ := hs i.output b hb
    exact ⟨c, hc⟩
  apart := h.apart
  sized k i m hi hm hk := by
    obtain ⟨b, hb, hsized⟩ := h.sized k i m hi hm hk
    exact hs.exists_sized hb hsized

theorem Owned.place_ne (h : Owned p instances s) (hi : instances[k]? = some i)
    (hm : p.nodes[k]? = some m) (hk : m.type.kind = .activation) :
    i.output.place ≠ .elsewhere := by
  obtain ⟨b, hb, -⟩ := h.sized k i m hi hm hk
  intro hp
  simp [Store.hostBuffer?, hp] at hb

theorem Owned.elsewhere_of_place_eq (h : Owned p instances s) (hi : instances[k]? = some i)
    {c : Buffer} (he : i.output.place = (s.insert c).1.place) : i.output.place = .elsewhere := by
  by_contra hp
  obtain ⟨b, hb⟩ := h.held k i hi hp
  cases c with
  | host c => exact Store.place_insert_ne hb c he.symm
  | elsewhere l => exact hp he

theorem Owned.insert (h : Owned p instances s) {c : Buffer}
    (hi : ∀ (l : Nat) (j : Instance), instances'[l]? = some j →
      instances[l]? = some j ∨ l = k ∧ j.output = (s.insert c).1)
    (hc : ∀ m : Node ε, p.nodes[k]? = some m → m.type.kind = .activation →
      ∃ b, c = .host b ∧ b.Sized) : Owned p instances' (s.insert c).2 where
  held l j hj hp := by
    rcases hi l j hj with hj | ⟨rfl, ho⟩
    · obtain ⟨b, hb⟩ := h.held l j hj hp
      exact ⟨b, Store.hostBuffer?_insert_of_some hb c⟩
    · rw [ho] at hp ⊢
      cases c with
      | host b => exact ⟨b, Store.hostBuffer?_insert s b⟩
      | elsewhere l => exact absurd rfl hp
  apart l l' j j' hj hj' he := by
    rcases hi l j hj with hj | ⟨rfl, ho⟩
    · rcases hi l' j' hj' with hj' | ⟨rfl, ho'⟩
      · exact h.apart l l' j j' hj hj' he
      · exact .inr (h.elsewhere_of_place_eq hj (ho' ▸ he))
    · rcases hi l' j' hj' with hj' | ⟨rfl, ho'⟩
      · exact .inr (he.trans (h.elsewhere_of_place_eq hj' (ho ▸ he.symm)))
      · exact .inl rfl
  sized l j m hj hm hk := by
    rcases hi l j hj with hj | ⟨rfl, ho⟩
    · obtain ⟨b, hb, hs⟩ := h.sized l j m hj hm hk
      exact ⟨b, Store.hostBuffer?_insert_of_some hb c, hs⟩
    · obtain ⟨b, rfl, hs⟩ := hc m hm hk
      exact ⟨b, ho ▸ Store.hostBuffer?_insert s b, hs⟩

variable [DecidableEq ε] {t : Topology ε} {n n' : Network ε} {fed : List PrimitiveId}

/-- A node is bound to a new buffer, which is a fresh one for an activation. -/
theorem bindNode_inserts (h : bindNode p .host instances s k = .ok (i, s')) : ∃ c,
    (i.output, s') = s.insert c ∧ ∀ m : Node ε, p.nodes[k]? = some m →
      m.type.kind = .activation → ∃ b, c = .host b ∧ b.Sized := by
  obtain ⟨m, hm, h⟩ := bind_eq_ok_iff.1 h
  rw [Program.node, Outcome.get_eq_ok_iff] at hm
  split at h
  · obtain ⟨dep, -, h⟩ := bind_eq_ok_iff.1 h
    cases h
  · obtain ⟨params, -, h⟩ := bind_eq_ok_iff.1 h
    obtain ⟨c, hc, h⟩ := bind_eq_ok_iff.1 h
    obtain ⟨layout, -, h⟩ := bind_eq_ok_iff.1 h
    split at h
    · refine ⟨c, ?_, fun m' hm' hk => ?_⟩
      · generalize s.insert c = placed at h ⊢
        cases h
        rfl
      · obtain rfl := Option.some.inj (hm.symm.trans hm')
        rw [createBuffer_eq (by rw [hk]; rfl)] at hc
        obtain ⟨layout, -, hc⟩ := bind_eq_ok_iff.1 hc
        exact ⟨.fresh layout, (Except.ok.inj hc).symm, HostBuffer.sized_fresh layout⟩
    · cases h

theorem owned_of_bindNodes {count : Nat} (h : Owned p instances s)
    (hb : bindNodes p .host instances s (List.range' instances.length count) =
      .ok (instances', s')) : Owned p instances' s' := by
  induction count generalizing instances s with
  | zero =>
    cases hb
    exact h
  | succ count ih =>
    rw [List.range'_succ, bindNodes] at hb
    split at hb
    · next i store hi =>
      obtain ⟨c, hc, hactivation⟩ := bindNode_inserts hi
      obtain ⟨ho, rfl⟩ := Prod.mk.inj hc
      have hlen : (instances ++ [i]).length = instances.length + 1 := by simp
      rw [← hlen] at hb
      refine ih (h.insert (k := instances.length) (fun l j hj => ?_) hactivation) hb
      rcases getElem?_concat_eq_some_iff.1 hj with hj | ⟨rfl, rfl⟩
      · exact .inl hj
      · exact .inr ⟨rfl, ho⟩
    · cases hb
    · cases hb

theorem owned_of_ofProgram (h : ofProgram p .host = .ok n) : Owned p n.instances n.store := by
  obtain ⟨⟨instances, store⟩, hb, h⟩ := bind_eq_ok_iff.1 h
  cases h
  rw [List.range_eq_range'] at hb
  exact owned_of_bindNodes (Owned.start p .empty) hb

theorem Owned.bindInput (hr : p.Ready t) (hn : n.Intact p fed) (h : Owned p n.instances n.store)
    {id : PrimitiveId} {b : HostBuffer} (hb : n.bindInput id (.fresh (.host b)) = .ok n') :
    Owned p n'.instances n'.store := by
  obtain ⟨k, m, layout, hm, rfl, hk, hl, hs⟩ := hn.exists_node_of_bindInput hr hb
  obtain ⟨i, hi, -⟩ := hn.exists_instance hm
  rw [hn.bindInput_eq hr hm hl hi, if_pos hk, if_pos hs] at hb
  cases hb
  refine h.insert (k := k) (fun l j hj => ?_) fun m' hm' hactivation => ?_
  · by_cases he : k = l
    · subst he
      rw [List.getElem?_set_self (List.getElem?_eq_some_iff.1 hi).1] at hj
      exact .inr ⟨rfl, (Option.some.inj hj) ▸ rfl⟩
    · rw [List.getElem?_set_ne he] at hj
      exact .inl hj
  · obtain rfl := Option.some.inj (hm.symm.trans hm')
    rw [hr.kind m (List.mem_of_getElem? hm), hk] at hactivation
    cases hactivation

end Network

variable [DecidableEq ε]

def Call.Orderly : Call ε → Prop
  | .setDispatcher d => Kernel.Orderly d.kernels
  | _ => True

namespace HostNetwork

variable {r : Registry ε} {t : Topology ε} {o : CompileOptions} {p : Program ε}
variable {x : HostNetwork ε} {calls : List (Call ε)}

/-- What calls preserve: an intact network whose instances own their buffers, and orderly kernels. -/
structure Steady (p : Program ε) (x : HostNetwork ε) : Prop where
  intact : ∃ fed, x.network.Intact p fed
  owned : Network.Owned p x.network.instances x.network.store
  kernels : Kernel.Orderly x.dispatcher.kernels

theorem Steady.run (h : Steady p x) : Steady p x.run.2 := by
  obtain ⟨fed, hn⟩ := h.intact
  refine ⟨⟨fed, hn.run _ _⟩, ?_, h.kernels⟩
  have hkeeps := Network.run_rel (R := fun s s' => s.2.Keeps s'.2) (fun s => .refl s.2)
    (fun _ _ _ => .trans) h.kernels.dispatch_keeps x.network x.dispatcher.started
  have hrun : x.run.2.network.instances = x.network.instances := Network.instances_run _ _ _
  rw [hrun]
  exact h.owned.keeps hkeeps

theorem Steady.bindValues (hr : p.Ready t) (h : Steady p x) {id : PrimitiveId}
    {values : List Float32} {y : HostNetwork ε} (hy : x.bindValues id values = .ok y) :
    Steady p y := by
  obtain ⟨fed, hn⟩ := h.intact
  obtain ⟨b, hb, hd⟩ := exists_bindInput_of_bindValues hy
  exact ⟨⟨_, hn.bindInput hr hb⟩, h.owned.bindInput hr hn hb, hd ▸ h.kernels⟩

theorem Steady.apply (hr : p.Ready t) {state : HostNetwork ε × InputData} (h : Steady p state.1)
    {c : Call ε} (hc : c.Orderly) : Steady p (c.apply state).1 := by
  obtain ⟨x, data⟩ := state
  cases c with
  | setInput id values =>
    rw [Call.apply]
    split
    · next y hy => exact h.bindValues hr hy
    · exact h
  | run => exact h.run
  | setDispatcher d => exact ⟨h.intact, h.owned, hc⟩

theorem Steady.foldl (hr : p.Ready t) {state : HostNetwork ε × InputData} (h : Steady p state.1)
    (hc : ∀ c ∈ calls, c.Orderly) : Steady p (calls.foldl Call.apply state).1 := by
  induction calls generalizing state with
  | nil => exact h
  | cons c calls ih =>
    exact ih (h.apply hr (hc c (by simp))) fun d hd => hc d (by simp [hd])

theorem steady_after (hp : Program.ofTopology r t o = .ok p) (hx : ofProgram p = .ok x)
    (hc : ∀ c ∈ calls, c.Orderly) : Steady p (x.after calls).1 := by
  have hr := Program.ready_of_ofTopology hp
  have hn := network_of_ofProgram hx
  have hstart : Steady p x :=
    ⟨⟨[], Network.intact_of_ofProgram hr hn⟩, Network.owned_of_ofProgram hn,
      dispatcher_of_ofProgram hx ▸ Kernel.partial_builtins.orderly⟩
  exact hstart.foldl hr hc

end HostNetwork

end InferenceGraph
