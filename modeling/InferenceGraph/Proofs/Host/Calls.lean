import InferenceGraph.Proofs.Host.Run
import InferenceGraph.Proofs.Network.Calls

/-!
# Event numbers

The host dispatcher numbers the kernels it starts over its lifetime. Runs only add to the count, so
the events of a run are new, and each is older than the instances that wait for it, however many
runs came before and however they ended.
-/

set_option autoImplicit false

namespace InferenceGraph

variable {ε : Type} [Extension ε]

namespace Network

variable {σ τ : Type} {n : Network ε} {d : Dispatcher ε σ τ} {R : σ × Store → σ × Store → Prop}

theorem runInstances_rel (hrefl : ∀ s, R s s) (htrans : ∀ s s' s'', R s s' → R s' s'' → R s s'')
    (hd : ∀ b events s, R s (d b events s).2) (events : List τ) (rest : List Instance)
    (s : σ × Store) : R s (n.runInstances d events rest s).2 := by
  have hone : ∀ events i s, R s (n.runInstance d events i s).2 := by
    intro events i s
    unfold runInstance
    split
    · exact hrefl s
    · split
      · exact hrefl s
      · exact hd _ _ s
  induction rest generalizing events s with
  | nil => exact hrefl s
  | cons i rest ih =>
    have h := hone events i s
    rw [runInstances]
    cases hr : n.runInstance d events i s with
    | mk result s' =>
      rw [hr] at h
      cases result with
      | error e => exact h
      | ok event => exact htrans _ _ _ h (ih (events ++ [event]) s')

theorem run_rel (hrefl : ∀ s, R s s) (htrans : ∀ s s' s'', R s s' → R s' s'' → R s s'')
    (hd : ∀ b events s, R s (d b events s).2) (n : Network ε) (s : σ) :
    R (s, n.store) ((n.run d s).2.2, (n.run d s).2.1.store) := by
  have h := runInstances_rel hrefl htrans hd [] n.instances (s, n.store) (n := n)
  unfold run
  split
  · exact hrefl _
  · cases hrun : n.runInstances d [] n.instances (s, n.store) with
    | mk result s' =>
      rw [hrun] at h
      cases result with
      | error e => exact h
      | ok events => cases ho : n.outputsOf events <;> simpa only [ho] using h

end Network

namespace HostDispatcher

variable {kernels : List (String × Kernel ε)} {b : BoundNode ε} {events : List HostEvent}
variable {s s' : Nat × Store} {event : HostEvent} {e : Failure}

theorem started_le_dispatch (kernels : List (String × Kernel ε)) (b : BoundNode ε)
    (events : List HostEvent) (s : Nat × Store) : s.1 ≤ (dispatch kernels b events s).2.1 := by
  unfold dispatch
  repeat' split
  all_goals simp

theorem started_le_run (d : HostDispatcher ε) (n : Network ε) :
    d.started ≤ (d.run n).2.2.started :=
  Network.run_rel (R := fun s s' => s.1 ≤ s'.1) (fun _ => Nat.le_refl _)
    (fun _ _ _ => Nat.le_trans) (started_le_dispatch d.kernels) n d.started

/-- A dispatcher that has run some networks, whatever became of each run. -/
def after (d : HostDispatcher ε) (networks : List (Network ε)) : HostDispatcher ε :=
  networks.foldl (fun d n => (d.run n).2.2) d

theorem started_le_after (d : HostDispatcher ε) (networks : List (Network ε)) :
    d.started ≤ (d.after networks).started := by
  induction networks generalizing d with
  | nil => exact Nat.le_refl _
  | cons n networks ih => exact (d.started_le_run n).trans (ih _)

theorem started_of_dispatch_ok (h : dispatch kernels b events s = (.ok event, s')) :
    event.index = s.1 ∧ s'.1 = s.1 + 1 := by
  obtain ⟨kernel, store, -, -, rfl, rfl⟩ := dispatch_ok h
  exact ⟨rfl, rfl⟩

theorem cause_of_dispatch_error (he : ∀ event ∈ events, event.index < s.1)
    (h : dispatch kernels b events s = (.error e, s')) :
    (kernels.lookup b.kindName = none ∧ e = .error (.missingKernel b.kindName)) ∨
      ∃ kernel, kernels.lookup b.kindName = some kernel ∧ kernel b s.2 = .error e := by
  cases hk : kernels.lookup b.kindName with
  | none =>
    simp only [dispatch, hk] at h
    exact .inl ⟨rfl, (Except.error.inj (congrArg Prod.fst h)).symm⟩
  | some kernel =>
    rw [show dispatch kernels b events s = _ from dispatch_eq hk he] at h
    cases hs : kernel b s.2 with
    | error e' =>
      simp only [hs] at h
      cases (Prod.mk.inj h).1
      exact .inr ⟨kernel, rfl, hs⟩
    | ok store =>
      simp only [hs] at h
      cases (Prod.mk.inj h).1

end HostDispatcher

namespace Network

variable {t : Topology ε} {p : Program ε} {fed : List PrimitiveId} {n : Network ε}

theorem Trace.index_lt {d : HostDispatcher ε} {first last : Nat × Store}
    {calls : List (DispatcherCall ε Nat HostEvent)}
    (h : n.Trace (HostDispatcher.dispatch d.kernels) first calls last) {j k : Nat} (hjk : j < k)
    {c : DispatcherCall ε Nat HostEvent} (hj : calls[j]? = some c) {event : HostEvent}
    (he : c.result = .ok event) {s : Nat × Store}
    (hk : (first :: calls.map DispatcherCall.after)[k]? = some s) :
    first.1 ≤ event.index ∧ event.index < s.1 := by
  have hmono : ∀ c ∈ calls, c.before.1 ≤ c.after.1 := by
    intro c hc
    have hle := HostDispatcher.started_le_dispatch d.kernels c.node c.events c.before
    rwa [h.answer c hc] at hle
  have hanswer := h.answer c (List.mem_of_getElem? hj)
  rw [he] at hanswer
  obtain ⟨hindex, hnext⟩ := HostDispatcher.started_of_dispatch_ok hanswer
  have hfirst := h.state_mono (f := Prod.fst) hmono (Nat.zero_le j) rfl (h.state_before hj)
  have hover := h.state_mono (f := Prod.fst) hmono (y := s) hjk (x := c.after) (by simp [hj]) hk
  omega

/-- The numbers that a host dispatcher gives out in a run. -/
structure Numbers (n : Network ε) (d : HostDispatcher ε) : Prop where
  older : ∀ call ∈ n.calls (HostDispatcher.dispatch d.kernels) d.started,
    ∀ event ∈ call.events, d.started ≤ event.index ∧ event.index < call.before.1
  numbered : ∀ call ∈ n.calls (HostDispatcher.dispatch d.kernels) d.started,
    ∀ event, call.result = .ok event → event.index = call.before.1 ∧
      d.started ≤ event.index ∧ event.index < (d.run n).2.2.started
  increasing : ((n.calls (HostDispatcher.dispatch d.kernels) d.started).filterMap
    DispatcherCall.event?).Pairwise fun event later => event.index < later.index
  /-- Only a missing kernel or a kernel that fails by itself is an error. -/
  cause : ∀ call ∈ n.calls (HostDispatcher.dispatch d.kernels) d.started,
    ∀ e, call.result = .error e →
      (d.kernel? call.node.kindName = none ∧ e = .error (.missingKernel call.node.kindName)) ∨
        ∃ kernel, d.kernel? call.node.kindName = some kernel ∧
          kernel call.node call.before.2 = .error e

theorem Intact.numbers (hr : p.Ready t) (h : n.Intact p fed) (d : HostDispatcher ε) :
    n.Numbers d := by
  have hdispatches := h.dispatches hr (HostDispatcher.dispatch d.kernels) d.started
  cases hfind : n.instances.find? fun i => !i.hasData with
  | some i =>
    -- An input without data: nothing is called.
    obtain ⟨-, hnone⟩ := hdispatches.unset i hfind
    constructor <;> simp [hnone]
  | none =>
    have ht := hdispatches.trace (by simpa using hfind)
    have holder : ∀ call ∈ n.calls (HostDispatcher.dispatch d.kernels) d.started,
        ∀ event ∈ call.events, d.started ≤ event.index ∧ event.index < call.before.1 := by
      intro call hc event hevent
      obtain ⟨k, hk⟩ := List.mem_iff_getElem?.1 hc
      obtain ⟨i, hi, -⟩ := bind_eq_ok_iff.1 (ht.node k call hk)
      rw [instanceAt, Outcome.get_eq_ok_iff] at hi
      have hm := List.mem_map_of_mem (f := some) hevent
      rw [ht.events k call i hk hi] at hm
      obtain ⟨dep, hd, hdep⟩ := List.mem_map.1 hm
      obtain ⟨c, hc, he⟩ := Option.bind_eq_some_iff.1 hdep
      exact ht.index_lt (h.mirrored.dependencies_lt hr hi dep hd) hc
        (DispatcherCall.event?_eq_some_iff.1 he) (ht.state_before hk)
    constructor
    case older => exact holder
    case numbered =>
      intro call hc event he
      obtain ⟨k, hk⟩ := List.mem_iff_getElem?.1 hc
      have hanswer := ht.answer call hc
      rw [he] at hanswer
      exact ⟨(HostDispatcher.started_of_dispatch_ok hanswer).1,
        ht.index_lt (List.getElem?_eq_some_iff.1 hk).1 hk he ht.state_last⟩
    case increasing =>
      rw [List.pairwise_filterMap, List.pairwise_iff_getElem]
      intro j k hj hk hjk event he later hl
      have hlater := ht.answer _ (List.getElem_mem hk)
      rw [DispatcherCall.event?_eq_some_iff] at he hl
      rw [hl] at hlater
      rw [(HostDispatcher.started_of_dispatch_ok hlater).1]
      exact (ht.index_lt hjk (List.getElem?_eq_getElem hj) he
        (ht.state_before (List.getElem?_eq_getElem hk))).2
    case cause =>
      -- Events that are over leave the dispatcher nothing to assert.
      intro call hc e he
      have hanswer := ht.answer call hc
      rw [he] at hanswer
      exact HostDispatcher.cause_of_dispatch_error (fun event hm => (holder call hc event hm).2)
        hanswer

variable {o : CompileOptions} {r : Registry ε} {allocator : Allocator} [DecidableEq ε]

/-- Whatever a network has gone through, and whatever the dispatcher does, the next run calls the
instances in order with the events of their dependencies. With a host dispatcher, events are in
order as well, over all runs that it ever had. -/
theorem calls_in_order (hp : Program.ofTopology r t o = .ok p)
    (hn : ofProgram p allocator = .ok n) (operations : List (Operation ε)) :
    (∀ {σ τ : Type} (d : Dispatcher ε σ τ) (s : σ),
        (n.after operations).1.Dispatches p d s) ∧
      ∀ (d : HostDispatcher ε) (earlier : List (Network ε)),
        d.started ≤ (d.after earlier).started ∧
          (n.after operations).1.Numbers (d.after earlier) := by
  have hr := Program.ready_of_ofTopology hp
  have h := intact_after hr hn operations
  exact ⟨fun d s => h.dispatches hr d s,
    fun d earlier => ⟨d.started_le_after earlier, h.numbers hr _⟩⟩

theorem calls_in_order_attempts :
    ∃ (p : Program Empty) (n : Network Empty),
      Program.ofTopology .standard Topology.copies .standard = .ok p ∧ ofProgram p .host = .ok n ∧
        (n.after attempts).1.Numbers (HostDispatcher.standard.after [n]) := by
  obtain ⟨p, hp⟩ := Topology.exists_program_copies (o := .standard) fun _ h => by cases h
  obtain ⟨n, hn, -⟩ := sound_of_ofProgram (Program.compiled_of_ofTopology (by decide) hp)
  exact ⟨p, n, hp, hn, ((calls_in_order hp hn attempts).2 .standard [n]).2⟩

end Network

end InferenceGraph
