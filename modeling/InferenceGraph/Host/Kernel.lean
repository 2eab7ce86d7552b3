import InferenceGraph.Detection.Table
import InferenceGraph.Network

/-!
# Host kernels

The computation of one instance in host memory, for every builtin kind. Kernels work on logical
values, so neither formats nor paddings show in them: they read their inputs whole, compute, and
replace the logical elements of the output. A kernel that fails leaves every buffer alone.
-/

set_option autoImplicit false

namespace InferenceGraph

abbrev Kernel (ε : Type) [Extension ε] := BoundNode ε → Store → Outcome Store

namespace BoundNode

variable {ε : Type} [Extension ε]

def hostBuffer (b : BoundNode ε) (store : Store) (m : Memory) : Outcome HostBuffer :=
  match store.hostBuffer? m with
  | none => .fail (.execution b.id (.notInHostMemory m.layout))
  | some buffer =>
    if m.layout.type = .float32 then .ok buffer else .fail (.unsupportedType b.id m.layout.type)

def readValues (b : BoundNode ε) (store : Store) (m : Memory) : Outcome (List Float32) := do
  (← b.hostBuffer store m).read

def readInput (b : BoundNode ε) (store : Store) (i : Nat) : Outcome (List Float32) := do
  b.readValues store (← Outcome.get .outOfRange b.inputs[i]?)

def writeOutput (b : BoundNode ε) (store : Store) (values : List Float32) : Outcome Store := do
  let buffer ← b.hostBuffer store b.output
  let written ← buffer.write values
  return store.setCells b.output written.cells

variable [DecidableEq ε]

def params (b : BoundNode ε) (k : Kind ε) : Outcome k.Params :=
  match b.node.primitive.paramsAs? k with
  | some params => .ok params
  | none => .fail (.execution b.id (.wrongKernel k.name b.kindName))

end BoundNode

namespace Kernel

variable {ε : Type} [Extension ε]

/-- The data of an input is already bound as its output. -/
def inputLayout : Kernel ε := fun _ store => .ok store

variable [DecidableEq ε]

def activation : Kernel ε := fun b store => do
  let p : Activation ← b.params .activation
  let values ← b.readInput store 0
  b.writeOutput store (values.map p.apply)

def eltwise : Kernel ε := fun b store => do
  let p : Eltwise ← b.params .eltwise
  let left ← b.readInput store 0
  let right ← b.readInput store 1
  if left.length = right.length then b.writeOutput store (List.zipWith p.apply left right)
  else .breach .unequalLengths

def reorder : Kernel ε := fun b store => do
  let _ ← b.params .reorder
  let values ← b.readInput store 0
  b.writeOutput store values

def detectionOutput : Kernel ε := fun b store => do
  let p : DetectionParameters ← b.params .detectionOutput
  let location ← b.readInput store 0
  let confidence ← b.readInput store 1
  let prior ← b.readInput store 2
  let images := (← Outcome.get .outOfRange b.inputs[0]?).layout.size.batch
  let rows ← p.table images location confidence prior
  b.writeOutput store rows

def builtins : List (String × Kernel ε) :=
  [((Kind.inputLayout : Kind ε).name, inputLayout),
    ((Kind.activation : Kind ε).name, activation),
    ((Kind.eltwise : Kind ε).name, eltwise),
    ((Kind.detectionOutput : Kind ε).name, detectionOutput),
    ((Kind.reorder : Kind ε).name, reorder)]

end Kernel

end InferenceGraph
