import InferenceGraph.Host.Dispatcher
import InferenceGraph.Sample.Kinds

set_option autoImplicit false

namespace InferenceGraph.Sample

def scaleKernel : Kernel Sample := fun b store => do
  let p : Scale ← b.params (.custom .scale)
  let values ← b.readInput store 0
  b.writeOutput store (values.map (· * p.factor))

/-- The builtin kernels and that of `scale`, by kind. -/
def kernelOf? : Kind Sample → Option (Kernel Sample)
  | .inputLayout => some Kernel.inputLayout
  | .activation => some Kernel.activation
  | .eltwise => some Kernel.eltwise
  | .detectionOutput => some Kernel.detectionOutput
  | .reorder => some Kernel.reorder
  | .custom .scale => some scaleKernel
  | .custom _ => none

structure LogEntry where
  id : PrimitiveId
  kind : String
  events : List Nat
  deriving DecidableEq

structure Count where
  next : Nat
  log : List LogEntry

def counting {ε : Type} [Extension ε] (refused : Option Nat) : Dispatcher ε Count Nat :=
  fun b events (count, store) =>
    if refused = some count.next then
      (.fail (.execution b.id (.refused count.next)), count, store)
    else
      (.ok count.next, ⟨count.next + 1, count.log ++ [⟨b.id, b.kindName, events⟩]⟩, store)

end InferenceGraph.Sample
