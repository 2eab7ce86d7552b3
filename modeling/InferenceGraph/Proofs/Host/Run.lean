import InferenceGraph.Host.Dispatcher
import InferenceGraph.Proofs.Host.Step
import InferenceGraph.Proofs.Network.Outputs

set_option autoImplicit false

namespace InferenceGraph

variable {ε : Type} [Extension ε] [DecidableEq ε]

namespace Kernel

/-- Some of the builtin kernels may be missing, but there are no others. -/
def Partial (kernels : List (String × Kernel ε)) : Prop :=
  ∀ (name : String) (kernel : Kernel ε), kernels.lookup name = some kernel →
    (builtins : List (String × Kernel ε)).lookup name = some kernel

theorem partial_builtins : Partial (builtins : List (String × Kernel ε)) := fun _ _ h => h

end Kernel

namespace HostDispatcher

variable {kernels : List (String × Kernel ε)} {b : BoundNode ε} {events : List HostEvent}
variable {event : HostEvent} {started : Nat} {s : Store} {r : Nat × Store} {e : Failure}

omit [DecidableEq ε]

theorem dispatch_ok (h : dispatch kernels b events (started, s) = (.ok event, r)) :
    ∃ kernel s', kernels.lookup b.kindName = some kernel ∧ kernel b s = .ok s' ∧
      event = ⟨started⟩ ∧ r = (started + 1, s') := by
  simp only [dispatch] at h
  split at h
  · cases (Prod.mk.inj h).1
  · next kernel hk =>
    split at h
    · cases (Prod.mk.inj h).1
    · split at h
      · cases (Prod.mk.inj h).1
      · next s' hs =>
        obtain ⟨he, hr⟩ := Prod.mk.inj h
        exact ⟨kernel, s', hk, hs, (Except.ok.inj he).symm, hr.symm⟩

theorem dispatch_error (h : dispatch kernels b events (started, s) = (.error e, r)) :
    r.2 = s := by
  simp only [dispatch] at h
  split at h
  · exact congrArg Prod.snd (Prod.mk.inj h).2.symm
  · split at h
    · exact congrArg Prod.snd (Prod.mk.inj h).2.symm
    · split at h
      · exact congrArg Prod.snd (Prod.mk.inj h).2.symm
      · cases (Prod.mk.inj h).1

theorem dispatch_eq {kernel : Kernel ε} (hk : kernels.lookup b.kindName = some kernel)
    (he : ∀ event ∈ events, event.index < started) :
    dispatch kernels b events (started, s) =
      match kernel b s with
      | .error e => (.error e, started + 1, s)
      | .ok s' => (.ok ⟨started⟩, started + 1, s') := by
  have hf : events.find? (fun event => started ≤ event.index) = none :=
    List.find?_eq_none.2 fun event hm => by simpa using he event hm
  cases hs : kernel b s <;> simp only [dispatch, hk, hf, hs]

end HostDispatcher

namespace Network

variable {t : Topology ε} {p : Program ε} {data : InputData} {n : Network ε}
variable {kernels : List (String × Kernel ε)} {events : List HostEvent} {s r : Nat × Store}
variable {i : Instance} {event : HostEvent} {e : Failure}

omit [DecidableEq ε]

theorem runInstance_ok (h : n.runInstance (HostDispatcher.dispatch kernels) events i s =
    (.ok event, r)) : ∃ b kernel s', n.bound i.index = .ok b ∧
      kernels.lookup b.kindName = some kernel ∧ kernel b s.2 = .ok s' ∧ event = ⟨s.1⟩ ∧
      r = (s.1 + 1, s') := by
  unfold runInstance at h
  split at h
  · cases h
  · split at h
    · cases h
    · next b hb =>
      obtain ⟨kernel, s', hl, hk, he, hr⟩ := HostDispatcher.dispatch_ok h
      exact ⟨b, kernel, s', hb, hl, hk, he, hr⟩

theorem runInstance_error (h : n.runInstance (HostDispatcher.dispatch kernels) events i s =
    (.error e, r)) : r.2 = s.2 := by
  unfold runInstance at h
  split at h
  · cases h
    rfl
  · split at h
    · cases h
      rfl
    · exact HostDispatcher.dispatch_error h

/-- What has run so far holds its results, and its events are over. -/
structure Progress (t : Topology ε) (p : Program ε) (data : InputData) (n : Network ε)
    (events : List HostEvent) (s : Nat × Store) : Prop where
  sound : (n.withStore s.2).Sound p data
  before : ∀ event ∈ events, event.index < s.1
  holds : ∀ d < events.length, Holds t p data n.instances s.2 d

variable [DecidableEq ε]

theorem lookup_kind (hc : p.Compiled t) (hk : Kernel.Partial kernels) {m : Node ε}
    (hm : m ∈ p.nodes) {kernel : Kernel ε} (hl : kernels.lookup m.type.name = some kernel) :
    kernel = Kernel.ofKind m.primitive.kind := by
  have hb := hk _ _ hl
  rw [PrimitiveType.name, hc.kind m hm, Kernel.lookup_builtins (hc.isBuiltin hm)] at hb
  exact (Option.some.inj hb).symm

theorem Progress.snoc (hc : p.Compiled t) (hk : Kernel.Partial kernels)
    (h : Progress t p data n events s) (hi : n.instances[events.length]? = some i)
    (hf : i.hasData = true)
    (hr : n.runInstance (HostDispatcher.dispatch kernels) events i s = (.ok event, r)) :
    Progress t p data n (events ++ [event]) r := by
  obtain ⟨b, kernel, s', hb, hl, hs, rfl, rfl⟩ := runInstance_ok hr
  obtain ⟨m, hm, hstands⟩ := h.sound.bound.node _ i hi
  rw [hstands.index] at hb
  obtain ⟨b', -, hb', hn, -⟩ := exists_bound hc h.sound hi hm h.holds
  obtain rfl := Except.ok.inj (hb.symm.trans hb')
  rw [BoundNode.kindName, hn] at hl
  obtain rfl := lookup_kind hc hk (List.mem_of_getElem? hm) hl
  obtain ⟨hsound, hholds⟩ := h.sound.step hc hi hm hf h.holds hb hs
  refine ⟨hsound, fun event he => ?_, ?_⟩
  · rcases List.mem_append.1 he with he | he
    · exact Nat.lt_succ_of_lt (h.before event he)
    · obtain rfl := List.mem_singleton.1 he
      exact Nat.lt_succ_self s.1
  · rw [List.length_append, List.length_singleton]
    exact hholds

omit [DecidableEq ε] in
theorem Progress.start (h : n.Sound p data) (started : Nat) :
    Progress t p data n [] (started, n.store) :=
  ⟨h, by simp, by simp⟩

/-- However a run ends, the network is sound, and a run that comes to an end has run everything. -/
theorem Progress.runInstances (hc : p.Compiled t) (hk : Kernel.Partial kernels)
    (hf : ∀ i ∈ n.instances, i.hasData = true) {rest : List Instance}
    (hrest : n.instances.drop events.length = rest) (h : Progress t p data n events s)
    {result : Outcome (List HostEvent)}
    (hr : n.runInstances (HostDispatcher.dispatch kernels) events rest s = (result, r)) :
    (n.withStore r.2).Sound p data ∧ ∀ events', result = .ok events' →
      n.instances.length ≤ events'.length ∧ Progress t p data n events' r := by
  -- On what is left to run, with what `Progress` says about the rest.
  induction rest generalizing events s with
  | nil =>
    obtain ⟨rfl, rfl⟩ := Prod.mk.inj hr
    refine ⟨h.sound, fun events' he => ?_⟩
    obtain rfl := Except.ok.inj he
    exact ⟨List.drop_eq_nil_iff.1 hrest, h⟩
  | cons i rest ih =>
    obtain ⟨hi, hrest⟩ := getElem?_of_drop hrest
    rw [Network.runInstances] at hr
    split at hr
    · next e s' he =>
      obtain ⟨rfl, rfl⟩ := Prod.mk.inj hr
      rw [runInstance_error he]
      exact ⟨h.sound, fun events' he => by cases he⟩
    · next event s' he =>
      have hs := h.snoc hc hk hi (hf i (List.mem_of_getElem? hi)) he
      refine ih ?_ hs hr
      rw [List.length_append, List.length_singleton]
      exact hrest

theorem Progress.runInstance_eq (hc : p.Compiled t) (h : Progress t p data n events s)
    (hi : n.instances[events.length]? = some i) {m : Node ε}
    (hm : p.nodes[events.length]? = some m) {b : BoundNode ε}
    (hb : n.bound events.length = .ok b) (hn : b.node = m) :
    n.runInstance (HostDispatcher.dispatch Kernel.builtins) events i s =
      match Kernel.ofKind m.primitive.kind b s.2 with
      | .error e => (.error e, s.1 + 1, s.2)
      | .ok s' => (.ok ⟨s.1⟩, s.1 + 1, s') := by
  have hmem := List.mem_of_getElem? hm
  have hstands := h.sound.standsFor hi hm
  obtain ⟨es, hes⟩ := h.sound.mirrored.exists_eventsOf hc.toReady hi
  have hl : (Kernel.builtins : List (String × Kernel ε)).lookup b.kindName =
      some (Kernel.ofKind m.primitive.kind) := by
    rw [BoundNode.kindName, hn, PrimitiveType.name, hc.kind m hmem]
    exact Kernel.lookup_builtins (hc.isBuiltin hmem)
  rw [runInstance, hes, hstands.index, hb]
  exact HostDispatcher.dispatch_eq hl fun event he => h.before event (mem_of_eventsOf hes event he)

theorem Progress.reach (hc : p.Compiled t) (hf : ∀ i ∈ n.instances, i.hasData = true)
    (h : Progress t p data n events s) {k : Nat} (hk : events.length ≤ k)
    (hlen : k ≤ n.instances.length) (hres : ∀ d < k, ∀ m, p.nodes[d]? = some m →
      ∃ placed, t.resultOf data m.id = some placed) :
    ∃ events' s', events'.length = k ∧ Progress t p data n events' s' ∧
      n.runInstances (HostDispatcher.dispatch Kernel.builtins) events
          (n.instances.drop events.length) s =
        n.runInstances (HostDispatcher.dispatch Kernel.builtins) events'
          (n.instances.drop k) s' := by
  -- On how far the run gets.
  induction k, hk using Nat.le_induction with
  | base => exact ⟨events, s, rfl, h, rfl⟩
  | succ k _ ih =>
    obtain ⟨events', s', rfl, h', hrun⟩ := ih (Nat.le_of_succ_le hlen) fun d hd =>
      hres d (Nat.lt_succ_of_lt hd)
    have hi := List.getElem?_eq_getElem hlen
    obtain ⟨m, hm, -⟩ := h'.sound.bound.node _ _ hi
    obtain ⟨placed, hp⟩ := hres events'.length (Nat.lt_succ_self _) m hm
    obtain ⟨b, s'', hb, hn, hs⟩ := h'.sound.exists_step hc hi hm h'.holds hp
    have he := h'.runInstance_eq hc hi hm hb hn
    rw [show Kernel.ofKind m.primitive.kind b s'.2 = .ok s'' from hs] at he
    refine ⟨_, _, List.length_append,
      h'.snoc hc Kernel.partial_builtins hi (hf _ (List.getElem_mem hlen)) he, ?_⟩
    rw [hrun, List.drop_eq_getElem_cons hlen, Network.runInstances, he]

structure Finished (t : Topology ε) (p : Program ε) (data : InputData) (n : Network ε)
    (outputs : List (NetworkOutput HostEvent)) : Prop where
  holds : ∀ d < p.size, Holds t p data n.instances n.store d
  outputsOf : ∃ events : List HostEvent, n.outputsOf events = .ok outputs

theorem Sound.run (hc : p.Compiled t) (hk : Kernel.Partial kernels) (h : n.Sound p data)
    (k : Nat) : (n.run (HostDispatcher.dispatch kernels) k).2.1.Sound p data ∧
      ∀ outputs, (n.run (HostDispatcher.dispatch kernels) k).1 = .ok outputs →
        (n.run (HostDispatcher.dispatch kernels) k).2.1.Finished t p data outputs := by
  unfold Network.run
  split
  · exact ⟨h, fun outputs ho => by cases ho⟩
  · next hf =>
    have hf : ∀ i ∈ n.instances, i.hasData = true := fun i hi => by
      simpa using List.find?_eq_none.1 hf i hi
    split
    · next e s store hs =>
      obtain ⟨hsound, -⟩ := (Progress.start h k).runInstances hc hk hf rfl hs
      exact ⟨hsound, fun outputs ho => by cases ho⟩
    · next events s store hs =>
      obtain ⟨hsound, hdone⟩ := (Progress.start h k).runInstances hc hk hf rfl hs
      obtain ⟨hlen, hp⟩ := hdone events rfl
      rw [h.length] at hlen
      split
      · exact ⟨hsound, fun outputs ho => by cases ho⟩
      · next outputs ho =>
        refine ⟨⟨hsound.program, hsound.length, hsound.bound, hsound.fed⟩, fun outputs' ho' => ?_⟩
        obtain rfl := Except.ok.inj ho'
        have hnodup : n.program.outputs.Nodup := h.program ▸ hc.nodup_outputs
        exact ⟨fun d hd => hp.holds d (Nat.lt_of_lt_of_le hd hlen), events,
          (outputsOf_with hnodup store _ events).trans ho⟩

theorem Sound.exists_run (hc : p.Compiled t) (h : n.Sound p data)
    (hall : ∀ m ∈ p.nodes, ∃ placed, t.resultOf data m.id = some placed) (k : Nat) :
    ∃ outputs, (n.run (HostDispatcher.dispatch Kernel.builtins) k).1 = .ok outputs := by
  have hf : ∀ i ∈ n.instances, i.hasData = true := fun i hi => h.hasData hc hall hi
  obtain ⟨events, s, hlen, -, hs⟩ := (Progress.start h k).reach hc hf (Nat.zero_le _) le_rfl
    fun d _ m hm => hall m (List.mem_of_getElem? hm)
  rw [List.length_nil, List.drop_zero, List.drop_length, Network.runInstances] at hs
  obtain ⟨outputs, ho⟩ := h.mirrored.exists_outputsOf hc.toReady hlen
  refine ⟨outputs, ?_⟩
  simp only [Network.run, find?_unset_eq_none hf, hs, ho]

end Network

end InferenceGraph
