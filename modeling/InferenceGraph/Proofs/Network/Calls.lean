import InferenceGraph.Proofs.Network.History
import InferenceGraph.Proofs.Network.Trace

/-!
# Calls of a run

A run of an intact network, with any dispatcher. If all instances have data, each of them is called
in its turn until a call fails, and only a call can make the run fail: there is always an event for
a dependency, and for an output when all have run.
-/

set_option autoImplicit false

namespace InferenceGraph.Network

variable {ε σ τ : Type} [Extension ε] {t : Topology ε} {p : Program ε} {fed : List PrimitiveId}
variable {n : Network ε} {d : Dispatcher ε σ τ} {first last : σ × Store} {s : σ}
variable {calls : List (DispatcherCall ε σ τ)} {events : List τ} {k : Nat} {i : Instance}

theorem Intact.exists_call (hr : p.Ready t) (h : n.Intact p fed)
    (hi : n.instances[events.length]? = some i) : ∃ (b : BoundNode ε) (es : List τ),
      n.bound events.length = .ok b ∧ es.map some = i.dependencies.map (events[·]?) ∧
        ∀ {σ : Type} (d : Dispatcher ε σ τ) (s : σ × Store),
          n.runInstance d events i s = d b es s := by
  obtain ⟨m, -, hs⟩ := h.serving _ i hi
  obtain ⟨b, hb, -⟩ := h.mirrored.exists_bound hr hi
  obtain ⟨es, hes⟩ := h.mirrored.exists_eventsOf hr hi
  refine ⟨b, es, hb, (eventsOf_eq_ok_iff.1 hes).symm, fun d s => ?_⟩
  rw [runInstance, hes, hs.index, hb]

theorem Trace.runInstances (hr : p.Ready t) (h : n.Intact p fed)
    (ht : n.Trace d first calls last) (he : calls.map DispatcherCall.event? = events.map some)
    (hl : events.length ≤ n.instances.length) {rest : List Instance}
    (hrest : n.instances.drop events.length = rest) {result : Outcome (List τ)}
    {last' : (σ × List (DispatcherCall ε σ τ)) × Store}
    (hrun : n.runInstances d.recording events rest ((last.1, calls), last.2) = (result, last')) :
    n.Trace d first last'.1.2 (last'.1.1, last'.2) ∧
      (∀ events', result = .ok events' → last'.1.2.map DispatcherCall.event? = events'.map some ∧
        events'.length = n.instances.length) ∧
      ∀ e, result = .error e → ∃ call, last'.1.2.getLast? = some call ∧ call.result = .error e := by
  -- On what is left to run; the trace so far carries it.
  induction rest generalizing events calls last with
  | nil =>
    obtain ⟨rfl, rfl⟩ := Prod.mk.inj hrun
    refine ⟨ht, fun events' hok => ?_, fun e herr => ?_⟩
    · cases hok
      exact ⟨he, Nat.le_antisymm hl (List.drop_eq_nil_iff.1 hrest)⟩
    · cases herr
  | cons i rest ih =>
    obtain ⟨hi, hrest⟩ := getElem?_of_drop hrest
    obtain ⟨b, es, hb, hes, hcall⟩ := h.exists_call hr hi
    have hlen : calls.length = events.length := by simpa using congrArg List.length he
    have hsnoc := ht.snoc (fun k i => h.mirrored.dependencies_lt hr) he
      (c := ⟨b, es, last, (d b es last).1, (d b es last).2⟩) (hlen ▸ hb)
      (fun j hj => by
        rw [hlen, hi, Option.some.injEq] at hj
        exact hj ▸ hes) rfl rfl
    rw [Network.runInstances, hcall, Dispatcher.recording_eq] at hrun
    cases hresult : (d b es last).1 with
    | error e =>
      simp only [hresult] at hrun hsnoc
      obtain ⟨rfl, rfl⟩ := Prod.mk.inj hrun
      refine ⟨hsnoc, fun events' hok => ?_, fun e' herr => ?_⟩
      · cases hok
      · cases herr
        exact ⟨_, List.getLast?_concat, rfl⟩
    | ok event =>
      simp only [hresult] at hrun hsnoc
      refine ih hsnoc ?_ ?_ ?_ hrun
      · rw [List.map_append, List.map_append, he]
        rfl
      · rw [List.length_append, List.length_singleton]
        exact (List.getElem?_eq_some_iff.1 hi).1
      · rw [List.length_append, List.length_singleton]
        exact hrest

theorem run_of_runInstances (hf : ∀ i ∈ n.instances, i.hasData = true) {result : Outcome (List τ)}
    {s' : σ} {store : Store}
    (h : n.runInstances d [] n.instances (s, n.store) = (result, s', store)) :
    (n.run d s).1 = result.bind n.outputsOf ∧ (n.run d s).2.1.store = store ∧
      (n.run d s).2.2 = s' := by
  simp only [run, find?_unset_eq_none hf, h]
  cases result with
  | error e => exact ⟨rfl, rfl, rfl⟩
  | ok events => cases ho : n.outputsOf events <;> simp [Except.bind, ho]

def outputOf? (n : Network ε) (calls : List (DispatcherCall ε σ τ)) (index : Nat) :
    Option (NetworkOutput τ) := do
  let i ← n.instances[index]?
  let call ← calls[index]?
  let event ← call.event?
  return ⟨i.id, i.output, event⟩

theorem Intact.map_outputOf? (hr : p.Ready t) (h : n.Intact p fed)
    (he : calls.map DispatcherCall.event? = events.map some) {outputs : List (NetworkOutput τ)}
    (ho : n.outputsOf events = .ok outputs) :
    p.outputs.map (n.outputOf? calls) = outputs.map some := by
  rw [outputsOf_eq_mapM (h.program ▸ hr.nodup_outputs), h.program] at ho
  refine (mapM_eq_ok_iff_of_option fun index output => ?_).1 ho
  have hevent := Trace.bind_event?_eq he index
  simp only [outputAt_eq_ok_iff, ← hevent, outputOf?, bind, Option.bind_eq_some_iff, pure,
    Option.some.injEq]
  grind

/-- The contract of a run with a dispatcher that may do anything. -/
structure Dispatches (p : Program ε) (n : Network ε) (d : Dispatcher ε σ τ) (s : σ) : Prop where
  unset : ∀ i, (n.instances.find? fun i => !i.hasData) = some i →
    n.run d s = (.fail (.inputNotSet i.id), n, s) ∧ n.calls d s = []
  trace : (∀ i ∈ n.instances, i.hasData = true) →
    n.Trace d (s, n.store) (n.calls d s) ((n.run d s).2.2, (n.run d s).2.1.store)
  failure : (∀ i ∈ n.instances, i.hasData = true) → ∀ e, (n.run d s).1 = .error e →
    ∃ call, (n.calls d s).getLast? = some call ∧ call.result = .error e
  success : ∀ outputs, (n.run d s).1 = .ok outputs →
    (n.calls d s).length = n.instances.length ∧
      (∀ call ∈ n.calls d s, ∃ event, call.result = .ok event) ∧
      p.outputs.map (n.outputOf? (n.calls d s)) = outputs.map some ∧
      p.outputIds = .ok (outputs.map NetworkOutput.id) ∧
      (outputs.map NetworkOutput.id).Nodup
  breach : ∀ b, (n.run d s).1 = .error (.breach b) →
    ∃ call ∈ n.calls d s, call.result = .error (.breach b)

namespace Dispatches

variable {outputs : List (NetworkOutput τ)} (h : n.Dispatches p d s)
variable (ho : (n.run d s).1 = .ok outputs)
include h ho

theorem trace_of_ok :
    n.Trace d (s, n.store) (n.calls d s) ((n.run d s).2.2, (n.run d s).2.1.store) := by
  refine h.trace fun i hi => ?_
  cases hfind : n.instances.find? fun i => !i.hasData with
  | none => simpa using List.find?_eq_none.1 hfind i hi
  | some i => cases ho.symm.trans (congrArg Prod.fst (h.unset i hfind).1)

theorem exists_instance_of_output {output : NetworkOutput τ} (hm : output ∈ outputs) :
    ∃ (k : Nat) (i : Instance), n.instances[k]? = some i ∧ output.id = i.id ∧
      output.memory = i.output := by
  obtain ⟨-, -, houtputs, -⟩ := h.success outputs ho
  have hsome := List.mem_map_of_mem (f := some) hm
  rw [← houtputs] at hsome
  obtain ⟨k, -, hk⟩ := List.mem_map.1 hsome
  obtain ⟨i, hi, hk⟩ := Option.bind_eq_some_iff.1 hk
  obtain ⟨call, -, hk⟩ := Option.bind_eq_some_iff.1 hk
  obtain ⟨event, -, hk⟩ := Option.bind_eq_some_iff.1 hk
  obtain rfl := Option.some.inj hk
  exact ⟨k, i, hi, rfl, rfl⟩

end Dispatches

theorem Intact.exists_trace (hr : p.Ready t) (h : n.Intact p fed)
    (hf : ∀ i ∈ n.instances, i.hasData = true) (d : Dispatcher ε σ τ) (s : σ) :
    ∃ result : Outcome (List τ), (n.run d s).1 = result.bind n.outputsOf ∧
      n.Trace d (s, n.store) (n.calls d s) ((n.run d s).2.2, (n.run d s).2.1.store) ∧
      (∀ events, result = .ok events →
        (n.calls d s).map DispatcherCall.event? = events.map some ∧
          events.length = n.instances.length) ∧
      ∀ e, result = .error e →
        ∃ call, (n.calls d s).getLast? = some call ∧ call.result = .error e := by
  cases hrun : n.runInstances d.recording [] n.instances ((s, []), n.store) with
  | mk result last =>
    obtain ⟨hresult, hstore, hlast⟩ := run_of_runInstances hf hrun
    rw [run_recording] at hresult hstore hlast
    obtain ⟨htrace, hok, herr⟩ := (Trace.start n d (s, n.store)).runInstances hr h rfl
      (Nat.zero_le _) rfl hrun
    have hcalls : n.calls d s = last.1.2 := by rw [← hlast]
    have hstate : (n.run d s).2.2 = last.1.1 := by rw [← hlast]
    rw [hcalls, hstate, show (n.run d s).2.1.store = last.2 from hstore]
    exact ⟨result, hresult, htrace, hok, herr⟩

theorem Intact.dispatches (hr : p.Ready t) (h : n.Intact p fed) (d : Dispatcher ε σ τ) (s : σ) :
    n.Dispatches p d s := by
  have hunset : ∀ i, (n.instances.find? fun i => !i.hasData) = some i →
      n.run d s = (.fail (.inputNotSet i.id), n, s) ∧ n.calls d s = [] := by
    intro i hi
    constructor
    · simp only [Network.run, hi]
    · simp only [calls, Network.run, hi]
  have hset : (∀ i, (n.run d s).1 ≠ .fail (.inputNotSet i)) →
      ∀ i ∈ n.instances, i.hasData = true := by
    intro hne
    cases hfind : n.instances.find? fun i => !i.hasData with
    | none => simpa using hfind
    | some i => exact absurd (congrArg Prod.fst (hunset i hfind).1) (hne i.id)
  have hfailure : (∀ i ∈ n.instances, i.hasData = true) → ∀ e, (n.run d s).1 = .error e →
      ∃ call, (n.calls d s).getLast? = some call ∧ call.result = .error e := by
    intro hf e he
    obtain ⟨result, hresult, -, hok, herr⟩ := h.exists_trace hr hf d s
    cases result with
    | error e' =>
      rw [hresult] at he
      cases he
      exact herr e rfl
    | ok events =>
      -- With an event for every instance the outputs cannot fail, so it was a call that did.
      obtain ⟨-, hl⟩ := hok events rfl
      obtain ⟨outputs, ho⟩ := h.mirrored.exists_outputsOf hr hl
      rw [hresult, Except.bind, ho] at he
      cases he
  constructor
  case unset => exact hunset
  case trace =>
    intro hf
    obtain ⟨-, -, htrace, -⟩ := h.exists_trace hr hf d s
    exact htrace
  case failure => exact hfailure
  case breach =>
    intro b hb
    obtain ⟨call, hc, he⟩ := hfailure (hset fun i hi => by cases hb.symm.trans hi) _ hb
    exact ⟨call, List.mem_of_getLast? hc, he⟩
  case success =>
    intro outputs ho
    have hf := hset fun i hi => by cases ho.symm.trans hi
    obtain ⟨result, hresult, -, hok, -⟩ := h.exists_trace hr hf d s
    rw [hresult] at ho
    cases result with
    | error e => cases ho
    | ok events =>
      obtain ⟨he, hl⟩ := hok events rfl
      obtain ⟨ids, hids, hnodup⟩ := hr.exists_outputIds
      have houts := h.mirrored.outputIds hr ho
      obtain rfl := Except.ok.inj (hids.symm.trans houts)
      exact ⟨by simpa [hl] using congrArg List.length he, fun call hm => Trace.exists_event he hm,
        h.map_outputOf? hr he ho, houts, hnodup⟩

end InferenceGraph.Network
