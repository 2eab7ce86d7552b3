import InferenceGraph.Host.Kernel
import InferenceGraph.Network.Execution

/-!
# Host dispatcher

Runs kernels on the spot, picked by the name of the kind. It counts the kernels it started over its
lifetime, and the count at the start of a kernel is its completion event, so the events of
dependencies are always smaller.
-/

set_option autoImplicit false

namespace InferenceGraph

structure HostDispatcher (ε : Type) [Extension ε] where
  kernels : List (String × Kernel ε)
  /-- Counts without a bound. A counter in a machine word begins again at `0` after its last value,
  with 64 bits once `2 ^ 64` kernels were started. -/
  started : Nat

structure HostEvent where
  index : Nat
  deriving DecidableEq, Repr

namespace HostDispatcher

variable {ε : Type} [Extension ε]

def empty : HostDispatcher ε := ⟨[], 0⟩

def standard [DecidableEq ε] : HostDispatcher ε := ⟨Kernel.builtins, 0⟩

def kernel? (d : HostDispatcher ε) (name : String) : Option (Kernel ε) := d.kernels.lookup name

def hasKernel (d : HostDispatcher ε) (name : String) : Bool := (d.kernel? name).isSome

def register (d : HostDispatcher ε) (k : Kind ε) (kernel : Kernel ε) : HostDispatcher ε :=
  { d with kernels := (k.name, kernel) :: d.kernels.filter fun entry => entry.1 ≠ k.name }

/-- Runs one instance. A kernel counts as started even if it fails then. -/
def dispatch (kernels : List (String × Kernel ε)) : Dispatcher ε Nat HostEvent :=
  fun b dependencies (started, store) =>
    match kernels.lookup b.kindName with
    | none => (.fail (.missingKernel b.kindName), started, store)
    | some kernel =>
      match dependencies.find? fun event => started ≤ event.index with
      | some event => (.breach (.eventOrder event.index started), started + 1, store)
      | none =>
        match kernel b store with
        | .error e => (.error e, started + 1, store)
        | .ok store => (.ok ⟨started⟩, started + 1, store)

def run (d : HostDispatcher ε) (n : Network ε) :
    Outcome (List (NetworkOutput HostEvent)) × Network ε × HostDispatcher ε :=
  let (result, n, started) := n.run (dispatch d.kernels) d.started
  (result, n, { d with started := started })

end HostDispatcher

end InferenceGraph
