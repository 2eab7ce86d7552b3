import InferenceGraph.Proofs.Network.Outputs
import InferenceGraph.Proofs.Network.State

/-!
# Traces

The calls that a run makes of its dispatcher, one after the other. They are found by running the
same network with a dispatcher that does the same and keeps a log in its state; a run goes the same
way with both of them.
-/

set_option autoImplicit false

namespace InferenceGraph

variable {ε σ σ' τ : Type} [Extension ε]

/-- What a dispatcher was given and what it answered. -/
structure DispatcherCall (ε : Type) [Extension ε] (σ τ : Type) where
  node : BoundNode ε
  events : List τ
  before : σ × Store
  result : Outcome τ
  after : σ × Store

namespace DispatcherCall

def event? (c : DispatcherCall ε σ τ) : Option τ := c.result.toOption

theorem event?_eq_some_iff {c : DispatcherCall ε σ τ} {event : τ} :
    c.event? = some event ↔ c.result = .ok event := by
  unfold event?
  cases c.result <;> simp [Except.toOption]

end DispatcherCall

namespace Dispatcher

/-- The larger state of one dispatcher makes no difference to what the other one does. -/
def Erases (f : σ' → σ) (d' : Dispatcher ε σ' τ) (d : Dispatcher ε σ τ) : Prop :=
  ∀ b events s, d b events (s.map f id) = (d' b events s).map id (Prod.map f id)

def recording (d : Dispatcher ε σ τ) : Dispatcher ε (σ × List (DispatcherCall ε σ τ)) τ :=
  fun b events s =>
    let before := (s.1.1, s.2)
    let answer := d b events before
    (answer.1, (answer.2.1, s.1.2 ++ [⟨b, events, before, answer.1, answer.2⟩]), answer.2.2)

theorem recording_eq (d : Dispatcher ε σ τ) (b : BoundNode ε) (events : List τ) (s : σ × Store)
    (log : List (DispatcherCall ε σ τ)) : d.recording b events ((s.1, log), s.2) =
      ((d b events s).1, ((d b events s).2.1,
        log ++ [⟨b, events, s, (d b events s).1, (d b events s).2⟩]), (d b events s).2.2) :=
  rfl

theorem erases_recording (d : Dispatcher ε σ τ) : Erases Prod.fst d.recording d :=
  fun _ _ _ => rfl

end Dispatcher

namespace Network

section Erasure

variable {f : σ' → σ} {d' : Dispatcher ε σ' τ} {d : Dispatcher ε σ τ} {n : Network ε}

theorem runInstance_map (h : d'.Erases f d) (events : List τ) (i : Instance) (s : σ' × Store) :
    n.runInstance d events i (s.map f id) =
      (n.runInstance d' events i s).map id (Prod.map f id) := by
  unfold runInstance
  split
  · rfl
  · split
    · rfl
    · exact h _ _ s

theorem runInstances_map (h : d'.Erases f d) (rest : List Instance) (events : List τ)
    (s : σ' × Store) : n.runInstances d events rest (s.map f id) =
      (n.runInstances d' events rest s).map id (Prod.map f id) := by
  induction rest generalizing events s with
  | nil => rfl
  | cons i rest ih =>
    rw [runInstances, runInstances, runInstance_map h]
    cases n.runInstance d' events i s with
    | mk result s =>
      cases result with
      | error e => rfl
      | ok event => exact ih (events ++ [event]) s

theorem run_map (h : d'.Erases f d) (s : σ') :
    n.run d (f s) = ((n.run d' s).1, (n.run d' s).2.1, f (n.run d' s).2.2) := by
  unfold run
  split
  · rfl
  · rw [show (f s, n.store) = Prod.map f id (s, n.store) from rfl, runInstances_map h]
    rcases n.runInstances d' [] n.instances (s, n.store) with ⟨_ | events, s, store⟩
    · rfl
    · simp only [Prod.map, id_eq]
      cases n.outputsOf events <;> rfl

end Erasure

/-- The calls that a run makes, also one that fails. -/
def calls (n : Network ε) (d : Dispatcher ε σ τ) (s : σ) : List (DispatcherCall ε σ τ) :=
  (n.run d.recording (s, [])).2.2.2

theorem run_recording (n : Network ε) (d : Dispatcher ε σ τ) (s : σ) :
    n.run d.recording (s, []) =
      ((n.run d s).1, (n.run d s).2.1, (n.run d s).2.2, n.calls d s) := by
  have h := run_map (n := n) d.erases_recording (s, [])
  simp only at h
  rw [h]
  rfl

/-- The calls of a run that took the dispatcher and the buffers from one state to another: each
instance is called in its turn with the events of its dependencies, and only the last call can have
failed. -/
structure Trace (n : Network ε) (d : Dispatcher ε σ τ) (first : σ × Store)
    (calls : List (DispatcherCall ε σ τ)) (last : σ × Store) : Prop where
  node : ∀ (k : Nat) (call : DispatcherCall ε σ τ), calls[k]? = some call →
    n.bound k = .ok call.node
  events : ∀ (k : Nat) (call : DispatcherCall ε σ τ) (i : Instance), calls[k]? = some call →
    n.instances[k]? = some i → call.events.map some =
      i.dependencies.map fun dep => calls[dep]?.bind DispatcherCall.event?
  succeeded : ∀ (k : Nat) (call : DispatcherCall ε σ τ), calls[k]? = some call →
    k + 1 < calls.length → ∃ event, call.result = .ok event
  answer : ∀ call ∈ calls, d call.node call.events call.before = (call.result, call.after)
  states : calls.map DispatcherCall.before ++ [last] = first :: calls.map DispatcherCall.after

namespace Trace

variable {n : Network ε} {d : Dispatcher ε σ τ} {first last : σ × Store}
variable {calls : List (DispatcherCall ε σ τ)} {events : List τ}

theorem start (n : Network ε) (d : Dispatcher ε σ τ) (s : σ × Store) : n.Trace d s [] s := by
  constructor <;> simp

section States

variable (h : n.Trace d first calls last) {k : Nat} {c : DispatcherCall ε σ τ}
include h

theorem state_before (hk : calls[k]? = some c) :
    (first :: calls.map DispatcherCall.after)[k]? = some c.before := by
  have hlt : k < calls.length := (List.getElem?_eq_some_iff.1 hk).1
  rw [← h.states, List.getElem?_append_left (by simpa using hlt), List.getElem?_map, hk]
  rfl

theorem state_last : (first :: calls.map DispatcherCall.after)[calls.length]? = some last := by
  simp [← h.states]

theorem state_mono {f : σ × Store → Nat} (hf : ∀ c ∈ calls, f c.before ≤ f c.after) {j : Nat}
    (hjk : j ≤ k) {x y : σ × Store}
    (hx : (first :: calls.map DispatcherCall.after)[j]? = some x)
    (hy : (first :: calls.map DispatcherCall.after)[k]? = some y) : f x ≤ f y := by
  induction k, hjk using Nat.le_induction generalizing y with
  | base =>
    rw [hx, Option.some.injEq] at hy
    rw [hy]
  | succ k _ ih =>
    rw [List.getElem?_cons_succ, List.getElem?_map, Option.map_eq_some_iff] at hy
    obtain ⟨c, hc, rfl⟩ := hy
    exact (ih (h.state_before hc)).trans (hf c (List.mem_of_getElem? hc))

theorem last_eq {α : Type} {f : σ × Store → α} (hk : calls[k]? = some c)
    (hf : ∀ (l : Nat) (x : DispatcherCall ε σ τ), k < l → calls[l]? = some x →
      f x.after = f x.before) : f last = f c.after := by
  have hafter : ∀ l, k + 1 ≤ l → ∀ y,
      (first :: calls.map DispatcherCall.after)[l]? = some y → f y = f c.after := by
    intro l hl
    induction l, hl using Nat.le_induction with
    | base =>
      intro y hy
      rw [List.getElem?_cons_succ, List.getElem?_map, hk] at hy
      rw [← Option.some.inj hy]
    | succ l hl ih =>
      intro y hy
      rw [List.getElem?_cons_succ, List.getElem?_map, Option.map_eq_some_iff] at hy
      obtain ⟨x, hx, rfl⟩ := hy
      exact (hf l x hl hx).trans (ih x.before (h.state_before hx))
  exact hafter _ (List.getElem?_eq_some_iff.1 hk).1 last h.state_last

end States

theorem bind_event?_eq (he : calls.map DispatcherCall.event? = events.map some) (dep : Nat) :
    calls[dep]?.bind DispatcherCall.event? = events[dep]? := by
  have hget := congrArg (·[dep]?) he
  simp only [List.getElem?_map] at hget
  cases hc : calls[dep]? <;> cases hv : events[dep]? <;> simp_all

theorem exists_event (he : calls.map DispatcherCall.event? = events.map some)
    {call : DispatcherCall ε σ τ} (hm : call ∈ calls) : ∃ event, call.result = .ok event := by
  have hevent := List.mem_map_of_mem (f := DispatcherCall.event?) hm
  rw [he] at hevent
  obtain ⟨event, -, hevent⟩ := List.mem_map.1 hevent
  exact ⟨event, DispatcherCall.event?_eq_some_iff.1 hevent.symm⟩

theorem snoc (h : n.Trace d first calls last) (hd : ∀ (k : Nat) (i : Instance),
      n.instances[k]? = some i → ∀ dep ∈ i.dependencies, dep < k)
    (he : calls.map DispatcherCall.event? = events.map some) {c : DispatcherCall ε σ τ}
    (hn : n.bound calls.length = .ok c.node)
    (hc : ∀ i, n.instances[calls.length]? = some i →
      c.events.map some = i.dependencies.map fun dep => events[dep]?)
    (hb : c.before = last)
    (ha : d c.node c.events c.before = (c.result, c.after)) :
    n.Trace d first (calls ++ [c]) c.after := by
  -- The new call is no dependency of those before it.
  have hbelow : ∀ (k : Nat) (i : Instance), n.instances[k]? = some i → k ≤ calls.length →
      (i.dependencies.map fun dep => (calls ++ [c])[dep]?.bind DispatcherCall.event?) =
        i.dependencies.map fun dep => calls[dep]?.bind DispatcherCall.event? := by
    intro k i hi hk
    refine List.map_congr_left fun dep hm => ?_
    have hlt := hd k i hi dep hm
    rw [List.getElem?_append_left (by omega)]
  constructor
  case node =>
    intro k x hk
    rcases getElem?_concat_eq_some_iff.1 hk with hk | ⟨rfl, rfl⟩
    · exact h.node k x hk
    · exact hn
  case events =>
    intro k x i hk hi
    have hlt := (List.getElem?_eq_some_iff.1 hk).1
    rw [hbelow k i hi (by simp at hlt; omega)]
    rcases getElem?_concat_eq_some_iff.1 hk with hk | ⟨rfl, rfl⟩
    · exact h.events k x i hk hi
    · simp only [hc i hi, bind_event?_eq he]
  case succeeded =>
    intro k x hk hlt
    rw [List.length_append, List.length_singleton] at hlt
    rcases getElem?_concat_eq_some_iff.1 hk with hk | ⟨rfl, rfl⟩
    · exact exists_event he (List.mem_of_getElem? hk)
    · omega
  case answer =>
    intro x hm
    rcases List.mem_append.1 hm with hm | hm
    · exact h.answer x hm
    · rw [List.mem_singleton] at hm
      rw [hm, ha]
  case states => simpa [hb] using congrArg (· ++ [c.after]) h.states

end Trace

end Network

end InferenceGraph
