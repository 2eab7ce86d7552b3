import InferenceGraph.Host.Dispatcher

set_option autoImplicit false

namespace InferenceGraph

structure HostNetwork (ε : Type) [Extension ε] where
  network : Network ε
  dispatcher : HostDispatcher ε

namespace HostNetwork

variable {ε : Type} [Extension ε]

def readOutputs (n : Network ε) (outputs : List (NetworkOutput HostEvent)) :
    Outcome (List (PrimitiveId × List Float32)) :=
  outputs.mapM fun output => do
    let b ← n.boundOf output.id
    return (output.id, ← b.readValues n.store output.memory)

def run (p : HostNetwork ε) :
    Outcome (List (PrimitiveId × List Float32)) × HostNetwork ε :=
  let (result, n, d) := p.dispatcher.run p.network
  (result.bind (readOutputs n), ⟨n, d⟩)

variable [DecidableEq ε]

def ofProgram (p : Program ε) : Outcome (HostNetwork ε) := do
  return ⟨← Network.ofProgram p .host, .standard⟩

def ofTopology (r : Registry ε) (t : Topology ε) (options : CompileOptions) :
    Outcome (HostNetwork ε) := do
  ofProgram (← Program.ofTopology r t options)

def bindValues (p : HostNetwork ε) (id : PrimitiveId) (values : List Float32) :
    Outcome (HostNetwork ε) := do
  let index ← Outcome.ofExcept (p.network.program.nodeIndex id)
  let layout ← p.network.program.outputLayout index
  if layout.type ≠ .float32 then .fail (.unsupportedType id layout.type)
  else if values.length ≠ layout.count then .breach (.inputValueCount id layout)
  else
    let buffer ← HostBuffer.ofValues layout values
    let n ← p.network.bindInput id (.fresh (.host buffer))
    return { p with network := n }

end HostNetwork

end InferenceGraph
