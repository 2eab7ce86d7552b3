import InferenceGraph.Proofs.Host.Confined
import InferenceGraph.Proofs.Host.Detections
import InferenceGraph.Proofs.Kind.Clamp

/-!
# What leaves a clamp

Compilation refuses a clamp unless its bounds are numbers in order, so in a run every clamp gives
numbers between its bounds, whatever it is given. This holds with any nodes around it and with any
dispatcher, as long as the clamp itself is left to the host kernel; and if no kernel writes to the
output of another node, it is still so when the run is over and its outputs are read.
-/

set_option autoImplicit false

namespace InferenceGraph

variable {ε σ τ : Type} [Extension ε]

/-- All that can be read through the handle is within the bounds. -/
def Store.Within (s : Store) (m : Memory) (q : Activation) : Prop :=
  ∀ values, s.values? m = some values → ∀ y ∈ values, q.Within y

def DispatcherCall.Spares (c : DispatcherCall ε σ τ) (m : Memory) : Prop :=
  c.after.2.hostBuffer? m = c.before.2.hostBuffer? m

theorem Store.Within.congr {s s' : Store} {m : Memory} {q : Activation} (h : s.Within m q)
    (hb : s'.hostBuffer? m = s.hostBuffer? m) : s'.Within m q := by
  intro values hv
  rw [values?, hb] at hv
  exact h values hv

variable [DecidableEq ε]

/-- Activations are left to the host kernel. What is done for other nodes does not matter. -/
def Dispatcher.Activates (d : Dispatcher ε σ τ) : Prop :=
  ∀ (b : BoundNode ε) (events : List τ) (s : σ × Store) (event : τ) (s' : σ × Store),
    b.node.type.kind = .activation → d b events s = (.ok event, s') →
      Kernel.activation b s.2 = .ok s'.2

namespace Kernel

variable {b : BoundNode ε} {q : Activation} {s s' : Store} {kernels : List (String × Kernel ε)}

theorem within_of_activation (hq : b.node.primitive.IsClamp q) (ho : q.Ordered)
    (h : activation b s = .ok s') : s'.Within b.output q := by
  obtain ⟨params, hparams, h⟩ := bind_eq_ok_iff.1 h
  rw [BoundNode.params, hq.params] at hparams
  obtain rfl := Except.ok.inj hparams
  obtain ⟨input, -, h⟩ := bind_eq_ok_iff.1 h
  intro values hv y hy
  rw [(BoundNode.writeOutput_eq_ok_iff.1 h).eq_of_values? hv] at hy
  obtain ⟨x, -, rfl⟩ := List.mem_map.1 hy
  exact ho.within_apply hq.function x

theorem type_of_activation (h : activation b s = .ok s') : b.output.layout.type = .float32 := by
  obtain ⟨params, -, h⟩ := bind_eq_ok_iff.1 h
  obtain ⟨input, -, h⟩ := bind_eq_ok_iff.1 h
  exact (BoundNode.writeOutput_eq_ok_iff.1 h).fits.1

theorem Orderly.activates (h : Orderly kernels) : (HostDispatcher.dispatch kernels).Activates := by
  rintro b events ⟨started, s⟩ event s' hk hd
  obtain ⟨kernel, store, hl, hs, -, rfl⟩ := HostDispatcher.dispatch_ok hd
  rw [BoundNode.kindName, PrimitiveType.name, hk] at hl
  obtain rfl := h.activation kernel hl
  exact hs

theorem Orderly.spares (h : Orderly kernels) {c : DispatcherCall ε Nat HostEvent}
    {event : HostEvent}
    (hc : HostDispatcher.dispatch kernels c.node c.events c.before = (.ok event, c.after))
    {m : Memory} (hm : c.node.output.place ≠ m.place) : c.Spares m := by
  obtain ⟨kernel, store, hl, hs, -, hafter⟩ := HostDispatcher.dispatch_ok hc
  rw [DispatcherCall.Spares, hafter]
  exact (h.confined _ kernel hl c.node c.before.2 store hs).others m hm

end Kernel

variable {r : Registry ε} {t : Topology ε} {o : CompileOptions} {p : Program ε} {k : Nat}
variable {m : Node ε} {q : Activation}

namespace Network

variable {n : Network ε} {fed : List PrimitiveId} {d : Dispatcher ε σ τ} {s : σ}
variable {outputs : List (NetworkOutput τ)}

def Untouched (n : Network ε) (d : Dispatcher ε σ τ) (s : σ) (k : Nat) (m : Memory) : Prop :=
  ∀ (l : Nat) (later : DispatcherCall ε σ τ), k < l → (n.calls d s)[l]? = some later →
    later.Spares m

/-- What the call of an instance leaves in its output is within the bounds, and so it is at the end
of the run unless a later call touches that buffer. -/
def LeavesWithin (n : Network ε) (d : Dispatcher ε σ τ) (s : σ) (k : Nat) (q : Activation) : Prop :=
  ∃ call : DispatcherCall ε σ τ, (n.calls d s)[k]? = some call ∧ n.bound k = .ok call.node ∧
    call.after.2.Within call.node.output q ∧ (n.Untouched d s k call.node.output →
      (n.run d s).2.1.store.Within call.node.output q)

theorem Intact.exists_activation_call (hr : p.Ready t) (h : n.Intact p fed) (hd : d.Activates)
    (ho : (n.run d s).1 = .ok outputs) (hm : p.nodes[k]? = some m)
    (hk : m.primitive.kind = .activation) : ∃ call : DispatcherCall ε σ τ,
      (n.calls d s)[k]? = some call ∧ n.bound k = .ok call.node ∧ call.node.node = m ∧
        Kernel.activation call.node call.before.2 = .ok call.after.2 := by
  have hdispatches := h.dispatches hr d s
  have htrace := hdispatches.trace_of_ok ho
  obtain ⟨hlen, hall, -⟩ := hdispatches.success outputs ho
  obtain ⟨call, hcall⟩ : ∃ call, (n.calls d s)[k]? = some call :=
    ⟨_, List.getElem?_eq_getElem (by
      rw [hlen, h.length]
      exact (List.getElem?_eq_some_iff.1 hm).1)⟩
  have hmem := List.mem_of_getElem? hcall
  have hb := htrace.node k call hcall
  obtain ⟨-, -, hnode, -⟩ := h.mirrored.exists_instance_of_bound hr hb
  have hn : call.node.node = m := Option.some.inj (hnode.symm.trans hm)
  have htype : call.node.node.type.kind = .activation := by
    rw [hn, hr.kind m (List.mem_of_getElem? hm), hk]
  obtain ⟨event, he⟩ := hall call hmem
  exact ⟨call, hcall, hb, hn, hd _ _ _ event _ htype (he ▸ htrace.answer call hmem)⟩

theorem Intact.type_of_activation (hr : p.Ready t) (h : n.Intact p fed) (hd : d.Activates)
    (ho : (n.run d s).1 = .ok outputs) (hm : p.nodes[k]? = some m)
    (hk : m.primitive.kind = .activation) {i : Instance} (hi : n.instances[k]? = some i) :
    i.output.layout.type = .float32 := by
  obtain ⟨call, -, hb, -, hkernel⟩ := h.exists_activation_call hr hd ho hm hk
  rw [← h.mirrored.output_of_bound hr hb hi]
  exact Kernel.type_of_activation hkernel

theorem Intact.leavesWithin (hr : p.Ready t) (h : n.Intact p fed) (hd : d.Activates)
    (ho : (n.run d s).1 = .ok outputs) (hm : p.nodes[k]? = some m) (hq : m.primitive.IsClamp q)
    (hordered : q.Ordered) : n.LeavesWithin d s k q := by
  obtain ⟨call, hcall, hb, rfl, hk⟩ := h.exists_activation_call hr hd ho hm hq.kind
  have hwithin := Kernel.within_of_activation hq hordered hk
  refine ⟨call, hcall, hb, hwithin, fun hspares => hwithin.congr ?_⟩
  have htrace := (h.dispatches hr d s).trace_of_ok ho
  exact htrace.last_eq (f := fun state => state.2.hostBuffer? call.node.output) hcall hspares

end Network

namespace HostNetwork

variable {x : HostNetwork ε} {values : List (PrimitiveId × List Float32)}

/-- The buffer of an instance shows numbers within the bounds, and so do the values returned for it,
if there are any. -/
structure ShowsWithin (x : HostNetwork ε) (values : List (PrimitiveId × List Float32)) (k : Nat)
    (id : PrimitiveId) (q : Activation) : Prop where
  stored : ∃ i elements, x.network.instances[k]? = some i ∧ i.id = id ∧
    x.network.store.values? i.output = some elements ∧ ∀ y ∈ elements, q.Within y
  returned : ∀ elements, (id, elements) ∈ values → ∀ y ∈ elements, q.Within y

theorem Steady.untouched (hr : p.Ready t) (h : Steady p x)
    {outputs : List (NetworkOutput HostEvent)}
    (ho : (x.network.run (HostDispatcher.dispatch x.dispatcher.kernels)
      x.dispatcher.started).1 = .ok outputs)
    {i : Instance} (hi : x.network.instances[k]? = some i) (hp : i.output.place ≠ .elsewhere) :
    x.network.Untouched (HostDispatcher.dispatch x.dispatcher.kernels) x.dispatcher.started k
      i.output := by
  intro l later hl hlater
  obtain ⟨fed, hn⟩ := h.intact
  have hdispatches := hn.dispatches hr (HostDispatcher.dispatch x.dispatcher.kernels)
    x.dispatcher.started
  have htrace := hdispatches.trace_of_ok ho
  have hmem := List.mem_of_getElem? hlater
  obtain ⟨event, he⟩ := (hdispatches.success outputs ho).2.1 later hmem
  obtain ⟨j, hj, -, hout, -⟩ := hn.mirrored.exists_instance_of_bound hr (htrace.node l later hlater)
  have hanswer := htrace.answer later hmem
  rw [he] at hanswer
  refine h.kernels.spares hanswer fun hplace => ?_
  rcases h.owned.apart k l i j hi hj (hout ▸ hplace.symm) with hkl | helse
  · omega
  · exact hp helse

theorem Steady.values?_of_mem (hr : p.Ready t) (h : Steady p x) (hv : x.run.1 = .ok values)
    (hm : p.nodes[k]? = some m) {i : Instance} (hi : x.network.instances[k]? = some i)
    {elements : List Float32} (hmem : (m.id, elements) ∈ values) :
    x.run.2.network.store.values? i.output = some elements := by
  obtain ⟨fed, hn⟩ := h.intact
  obtain ⟨outputs, ho, hread⟩ := bind_eq_ok_iff.1 hv
  obtain ⟨output, houtput, hread⟩ := exists_source_of_mapM hread hmem
  obtain ⟨l, j, hj, hid, hmemory⟩ := (hn.dispatches hr _ _).exists_instance_of_output ho houtput
  obtain ⟨b, -, hread⟩ := bind_eq_ok_iff.1 hread
  obtain ⟨found, hfound, hread⟩ := bind_eq_ok_iff.1 hread
  obtain ⟨hname, rfl⟩ := Prod.mk.inj (Except.ok.inj hread)
  obtain ⟨node, hnode, hserves⟩ := hn.serving l j hj
  have hkl : k = l := hr.linked.getElem?_injective
    (Program.getElem?_ids_eq_some_iff.2 ⟨m, hm, rfl⟩)
    (Program.getElem?_ids_eq_some_iff.2 ⟨node, hnode, by rw [← hserves.id, ← hid, hname]⟩)
  subst hkl
  obtain rfl := Option.some.inj (hi.symm.trans hj)
  rw [hmemory] at hfound
  exact BoundNode.readValues_eq_ok_iff.1 hfound

theorem Steady.showsWithin (hr : p.Ready t) (h : Steady p x) (hv : x.run.1 = .ok values)
    (hm : p.nodes[k]? = some m) (hq : m.primitive.IsClamp q) (hordered : q.Ordered) :
    x.run.2.ShowsWithin values k m.id q := by
  obtain ⟨fed, hn⟩ := h.intact
  obtain ⟨outputs, ho, -⟩ := bind_eq_ok_iff.1 hv
  obtain ⟨i, hi, hserves⟩ := hn.exists_instance hm
  have hkind : m.type.kind = .activation := (hr.kind m (List.mem_of_getElem? hm)).trans hq.kind
  have hactivates := h.kernels.activates
  obtain ⟨call, -, hb, -, hlast⟩ := hn.leavesWithin hr hactivates ho hm hq hordered
  rw [hn.mirrored.output_of_bound hr hb hi] at hlast
  have hwithin := hlast (h.untouched hr ho hi (h.owned.place_ne hi hm hkind))
  have hinstances : x.run.2.network.instances = x.network.instances := Network.instances_run _ _ _
  rw [← hinstances] at hi
  obtain ⟨b, hbuffer, hsized⟩ := h.run.owned.sized k i m hi hm hkind
  obtain ⟨elements, hvalues⟩ := Store.exists_values? hbuffer hsized
    (hn.type_of_activation hr hactivates ho hm hq.kind (hinstances ▸ hi))
  exact ⟨⟨i, elements, hi, hserves.id, hvalues, hwithin elements hvalues⟩,
    fun returned hreturned =>
      hwithin returned (h.values?_of_mem hr hv hm (hinstances ▸ hi) hreturned)⟩

end HostNetwork

/-- In a topology that compiles all clamps have their bounds in order, also those that are left out
of the program. A run that succeeds gives numbers within them at every clamp of the program: when its
kernel is over, in any network and with any dispatcher that leaves activations to the host kernel,
and when the run is over, in a host network with orderly kernels. -/
theorem Program.clamped_of_ofTopology (hp : ofTopology r t o = .ok p) :
    (∀ c ∈ t.primitives, ∀ q : Activation, c.IsClamp q → q.Ordered) ∧
      (∀ (allocator : Allocator) (n : Network ε), Network.ofProgram p allocator = .ok n →
        ∀ (operations : List (Network.Operation ε)) (σ τ : Type) (d : Dispatcher ε σ τ) (s : σ)
          (outputs : List (NetworkOutput τ)), d.Activates →
          ((n.after operations).1.run d s).1 = .ok outputs →
            ∀ (k : Nat) (m : Node ε) (q : Activation), p.nodes[k]? = some m →
              m.primitive.IsClamp q → (n.after operations).1.LeavesWithin d s k q) ∧
      ∀ x : HostNetwork ε, HostNetwork.ofProgram p = .ok x →
        ∀ calls : List (Call ε), (∀ c ∈ calls, c.Orderly) →
          ∀ values, (x.after calls).1.run.1 = .ok values →
            ∀ (k : Nat) (m : Node ε) (q : Activation), p.nodes[k]? = some m →
              m.primitive.IsClamp q → (x.after calls).1.run.2.ShowsWithin values k m.id q := by
  obtain ⟨first, hi, -⟩ := bind_eq_ok_iff.1 hp
  have hr := ready_of_ofTopology hp
  have hordered : ∀ c ∈ t.primitives, ∀ q : Activation, c.IsClamp q → q.Ordered :=
    fun c hc q hq => hq.ordered (valid_of_initial hi c hc)
  have hnode : ∀ (k : Nat) (m : Node ε) (q : Activation), p.nodes[k]? = some m →
      m.primitive.IsClamp q → q.Ordered := fun k m q hm hq =>
    hordered m.primitive (hr.linked.primitive m (List.mem_of_getElem? hm)) q hq
  refine ⟨hordered, ?_, ?_⟩
  · intro allocator n hn operations σ τ d s outputs hd ho k m q hm hq
    exact (Network.intact_after hr hn operations).leavesWithin hr hd ho hm hq (hnode k m q hm hq)
  · intro x hx calls hc values hv k m q hm hq
    exact (HostNetwork.steady_after hp hx hc).showsWithin hr hv hm hq (hnode k m q hm hq)

namespace Topology

def clamped : PrimitiveId := ⟨"clamped", by decide, by decide⟩

def bounds : Activation := ⟨.clamp, -1, 2⟩

def clamping : Topology Empty where
  primitives :=
    [.ofParams clamped [source] .activation bounds,
      .ofParams source [] .inputLayout (InputLayout.mk (.unpadded .float32 .bfyx ⟨1, 1, 1, 3⟩))]
  ids_nodup := by decide

def wild : List Float32 := [0 / 0, 1 / 0, -1 / 0]

theorem acyclic_clamping : clamping.Acyclic :=
  acyclic_of_rank (fun id => if id = clamped then 1 else 0) (by decide)

theorem resultOf_wild : clamping.resultOf (InputData.set (fun _ => none) source wild) source =
    some (.unpadded .float32 .bfyx ⟨1, 1, 1, 3⟩, wild) :=
  (resultOf_eq_some_iff acyclic_clamping (p := clamping.primitives[1]) (by simp [clamping])).2
    ⟨[], rfl, rfl⟩

theorem resultOf_clamped : clamping.resultOf (InputData.set (fun _ => none) source wild) clamped =
    some (.unpadded .float32 .bfyx ⟨1, 1, 1, 3⟩, wild.map bounds.apply) :=
  (resultOf_eq_some_iff acyclic_clamping (p := clamping.primitives[0]) (by simp [clamping])).2
    ⟨[(_, wild)], congrArg (fun placed => [placed]) resultOf_wild, rfl⟩

theorem exists_resultOf_wild {id : PrimitiveId} (h : id ∈ clamping.ids) : ∃ placed,
    clamping.resultOf (InputData.set (fun _ => none) source wild) id = some placed := by
  have hids : ∀ id ∈ clamping.ids, id = clamped ∨ id = source := by decide
  rcases hids id h with rfl | rfl
  · exact ⟨_, resultOf_clamped⟩
  · exact ⟨_, resultOf_wild⟩

theorem exists_program_clamping :
    ∃ p, Program.ofTopology .standard clamping .standard = .ok p := by
  have hb : clamping.Builtin := by decide
  have hc : clamping.Closed := by decide
  have hr : clamping.Requestable .standard := nofun
  have hacc : clamping.Acceptable .standard := by
    refine ⟨by decide, hc, acyclic_clamping, hr, fun id hid => ?_⟩
    obtain ⟨placed, h⟩ := exists_resultOf_wild (hid.mem_ids hc hr)
    exact ⟨placed.1, layoutOf_of_resultOf h⟩
  obtain ⟨first, hi⟩ := Program.exists_initial Registry.reachable_standard (fun _ hk => hk) hb hacc
  exact Program.exists_ofTopology hi hb hacc

variable {p : Program Empty} {x : HostNetwork Empty}

theorem exists_run_wild (hp : Program.ofTopology .standard clamping .standard = .ok p)
    (hx : HostNetwork.ofProgram p = .ok x) : ∃ y values, x.bindValues source wild = .ok y ∧
      (x.after [.setInput source wild]).1 = y ∧ y.dispatcher = .standard ∧
        y.run.1 = .ok values := by
  have hb : clamping.Builtin := by decide
  have hc := Program.compiled_of_ofTopology hb hp
  obtain ⟨y, hy, hset, hd⟩ := HostNetwork.exists_after_setInput hb hp hx
    ((Program.ids_iff_of_ofTopology hp).2 (show source ∈ clamping.ids by decide)) (by decide)
    resultOf_wild
  have hl : HostNetwork.Live p (x.after [.setInput source wild]) :=
    HostNetwork.live_after hb hp hx (by simp [Call.Usual])
  rw [hset] at hl
  obtain ⟨values, hv⟩ := HostNetwork.exists_run hc hl.sound (by rw [hd]; rfl) fun m hm =>
    exists_resultOf_wild (List.mem_map_of_mem (hc.linked.primitive m hm))
  exact ⟨y, values, hy, by rw [hset], hd, hv⟩

theorem exists_clamp (hp : Program.ofTopology .standard clamping .standard = .ok p) :
    ∃ (k : Nat) (m : Node Empty), p.nodes[k]? = some m ∧ m.id = clamped ∧
      m.primitive.IsClamp bounds := by
  have hmem : clamped ∈ clamping.ids := by decide
  obtain ⟨k, m, hm, hid⟩ := Program.exists_node ((Program.ids_iff_of_ofTopology hp).2 hmem)
  have hc := Program.compiled_of_ofTopology (by decide) hp
  have hprimitive : m.primitive = clamping.primitives[0] :=
    eq_of_id_eq (hc.linked.primitive m (List.mem_of_getElem? hm)) (by simp [clamping]) hid
  exact ⟨k, m, hm, hid, hprimitive ▸ ⟨rfl, rfl⟩⟩

end Topology

theorem Program.clamped_of_ofTopology_wild : ∃ (p : Program Empty) (x : HostNetwork Empty)
    (b : HostBuffer) (values : List (PrimitiveId × List Float32)) (k : Nat) (m : Node Empty),
      ofTopology .standard Topology.clamping .standard = .ok p ∧ HostNetwork.ofProgram p = .ok x ∧
      (x.after [.setInput Topology.source Topology.wild]).1.run.1 = .ok values ∧
      p.nodes[k]? = some m ∧ m.primitive.IsClamp Topology.bounds ∧ Topology.bounds.Ordered ∧
      (x.network.after [.setInput Topology.source (.fresh (.host b))]).1.LeavesWithin
        (HostDispatcher.dispatch Kernel.builtins) 0 k Topology.bounds ∧
      (x.after [.setInput Topology.source Topology.wild]).1.run.2.ShowsWithin values k
        Topology.clamped Topology.bounds := by
  obtain ⟨p, hp⟩ := Topology.exists_program_clamping
  obtain ⟨hordered, hcalled, hhost⟩ := clamped_of_ofTopology hp
  obtain ⟨x, hx⟩ := HostNetwork.exists_ofProgram (by decide) hp
  obtain ⟨k, m, hm, hid, hq⟩ := Topology.exists_clamp hp
  obtain ⟨y, values, hy, rfl, hd, hv⟩ := Topology.exists_run_wild hp hx
  obtain ⟨b, hbind, -⟩ := HostNetwork.exists_bindInput_of_bindValues hy
  have hafter : x.network.after [.setInput Topology.source (.fresh (.host b))] =
      ((x.after [.setInput Topology.source Topology.wild]).1.network, [Topology.source]) := by
    simp only [Network.after, List.foldl_cons, List.foldl_nil, Network.Operation.apply, hbind]
  obtain ⟨outputs, ho, -⟩ := bind_eq_ok_iff.1 hv
  refine ⟨p, x, b, values, k, m, hp, hx, hv, hm, hq, ?_, ?_, ?_⟩
  · exact hordered Topology.clamping.primitives[0] (by simp [Topology.clamping]) _ ⟨rfl, rfl⟩
  · refine hcalled .host x.network (HostNetwork.network_of_ofProgram hx) _ _ _ _ 0 outputs
      Kernel.partial_builtins.orderly.activates ?_ k m _ hm hq
    rw [hafter]
    rw [hd] at ho
    exact ho
  · exact hid ▸ hhost x hx _ (by simp [Call.Orderly]) values hv k m _ hm hq

end InferenceGraph
