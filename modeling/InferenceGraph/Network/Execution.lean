import InferenceGraph.Network

/-!
# Execution

Running a network hands its instances to a dispatcher one by one, in processing order. The events
of the instances run so far are kept, so each instance gets those of its dependencies. The first
error ends the run; the state of the dispatcher and the contents of the buffers stay as they are
then, and what the network says it executed is only replaced by a run that succeeds.
-/

set_option autoImplicit false

namespace InferenceGraph.Network

variable {ε σ τ : Type} [Extension ε]

def eventsOf (events : List τ) (id : PrimitiveId) (dependencies : List Nat) : Outcome (List τ) :=
  dependencies.mapM fun dep => Outcome.get (.beforeDependency id dep) events[dep]?

def runInstance (n : Network ε) (d : Dispatcher ε σ τ) (events : List τ) (i : Instance)
    (s : σ × Store) : Outcome τ × σ × Store :=
  match eventsOf events i.id i.dependencies with
  | .error e => (.error e, s)
  | .ok dependencies =>
    match n.bound i.index with
    | .error e => (.error e, s)
    | .ok b => d b dependencies s

def runInstances (n : Network ε) (d : Dispatcher ε σ τ) (events : List τ) :
    List Instance → σ × Store → Outcome (List τ) × σ × Store
  | [], s => (.ok events, s)
  | i :: rest, s =>
    match n.runInstance d events i s with
    | (.error e, s) => (.error e, s)
    | (.ok event, s) => n.runInstances d (events ++ [event]) rest s

def outputAt (n : Network ε) (events : List (Option τ)) (index : Nat) :
    Outcome (NetworkOutput τ) := do
  let i ← n.instanceAt index
  let event ← Outcome.get (.notExecuted i.id) events[index]?.join
  return ⟨i.id, i.output, event⟩

/-- The results of outputs one after the other. An event is handed over to its output, so there is
none left for another output with the same instance. -/
def takeOutputs (n : Network ε) (events : List (Option τ)) :
    List Nat → Outcome (List (NetworkOutput τ))
  | [] => .ok []
  | index :: rest => do
    let output ← n.outputAt events index
    let outputs ← n.takeOutputs (events.set index none) rest
    return output :: outputs

def outputsOf (n : Network ε) (events : List τ) : Outcome (List (NetworkOutput τ)) :=
  n.takeOutputs (events.map some) n.program.outputs

/-- Runs every instance once. All inputs must have data. -/
def run (n : Network ε) (d : Dispatcher ε σ τ) (s : σ) :
    Outcome (List (NetworkOutput τ)) × Network ε × σ :=
  match n.instances.find? fun i => !i.hasData with
  | some i => (.fail (.inputNotSet i.id), n, s)
  | none =>
    match n.runInstances d [] n.instances (s, n.store) with
    | (.error e, s, store) => (.error e, { n with store := store }, s)
    | (.ok events, s, store) =>
      match n.outputsOf events with
      | .error e => (.error e, { n with store := store }, s)
      | .ok outputs =>
        (.ok outputs, { n with store := store, executed := n.instances.map Instance.index }, s)

end InferenceGraph.Network
