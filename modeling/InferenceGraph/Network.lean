import InferenceGraph.Program.Compilation

/-!
# Networks

A network binds a buffer to every node of a program. Instances stand in processing order, one for
each node, and never move; only inputs can be given another buffer, of exactly the layout that they
declare. Executing a network hands every instance once to a dispatcher, together with the completion
events of its dependencies.
-/

set_option autoImplicit false

namespace InferenceGraph

structure Instance where
  index : Nat
  id : PrimitiveId
  dependencies : List Nat
  output : Memory
  /-- Only inputs start without data. -/
  hasData : Bool
  deriving DecidableEq

structure Network (ε : Type) [Extension ε] where
  program : Program ε
  instances : List Instance
  store : Store
  /-- The instances run by the last execution that succeeded, in order. -/
  executed : List Nat

/-- An instance as a dispatcher sees it: its node, and its buffers by their handles. -/
structure BoundNode (ε : Type) [Extension ε] where
  index : Nat
  node : Node ε
  inputs : List Memory
  output : Memory

namespace BoundNode

variable {ε : Type} [Extension ε]

def id (b : BoundNode ε) : PrimitiveId := b.node.id

def kindName (b : BoundNode ε) : String := b.node.type.name

def input (b : BoundNode ε) (i : Nat) : Outcome Memory :=
  Outcome.get (.inputOutOfRange i b.id b.inputs.length) b.inputs[i]?

end BoundNode

/-- Runs instances, given the completion events of their dependencies. It has a state of its own
and may change the cells of any buffer. -/
abbrev Dispatcher (ε : Type) [Extension ε] (σ τ : Type) :=
  BoundNode ε → List τ → σ × Store → Outcome τ × σ × Store

structure NetworkOutput (τ : Type) where
  id : PrimitiveId
  memory : Memory
  event : τ

inductive Source where
  | fresh (buffer : Buffer)
  | shared (memory : Memory)

def Source.layout : Source → Layout
  | fresh b => b.layout
  | shared m => m.layout

namespace Network

variable {ε : Type} [Extension ε]

def instanceAt (n : Network ε) (index : Nat) : Outcome Instance :=
  Outcome.get .outOfRange n.instances[index]?

def bound (n : Network ε) (index : Nat) : Outcome (BoundNode ε) := do
  let i ← n.instanceAt index
  let node ← n.program.node index
  let inputs ← i.dependencies.mapM fun dep => return (← n.instanceAt dep).output
  return ⟨index, node, inputs, i.output⟩

def boundOf (n : Network ε) (id : PrimitiveId) : Outcome (BoundNode ε) := do
  n.bound (← Outcome.ofExcept (n.program.nodeIndex id))

def ids (n : Network ε) : List PrimitiveId := n.instances.map Instance.id

def executedIds (n : Network ε) : Outcome (List PrimitiveId) :=
  n.executed.mapM fun index => return (← n.instanceAt index).id

def memoryOf (n : Network ε) (id : PrimitiveId) : Outcome Memory := do
  return (← n.instanceAt (← Outcome.ofExcept (n.program.nodeIndex id))).output

variable [DecidableEq ε]

def describe (n : Network ε) (id : PrimitiveId) : Outcome String := do
  n.program.describe (← Outcome.ofExcept (n.program.nodeIndex id))

def unbound? (instances : List Instance) (dependencies : List Nat) : Option Nat :=
  dependencies.find? fun dep => !(instances[dep]?.any fun i => i.index = dep)

/-- The instance of a node, whose dependencies must all have one. Its buffer is allocated by the
rule of its kind and must have the inferred layout. -/
def bindNode (p : Program ε) (allocator : Allocator) (instances : List Instance) (store : Store)
    (index : Nat) : Outcome (Instance × Store) := do
  let n ← p.node index
  match unbound? instances n.dependencies with
  | some dep => .fail (.unboundDependency n.id (← p.node dep).id)
  | none =>
    let buffer ← n.type.kind.rules.createBuffer allocator (p.view index n) (← n.params)
    let layout ← p.outputLayout index
    if buffer.layout.same layout then
      let (memory, store) := store.insert buffer
      return (⟨index, n.id, n.dependencies, memory, !n.isKind .inputLayout⟩, store)
    else .breach (.wrongBuffer n.id)

/-- Binds the nodes one after the other. A missing instance means that the program is not in
processing order, which is no error of the caller. -/
def bindNodes (p : Program ε) (allocator : Allocator) (instances : List Instance) (store : Store) :
    (indices : List Nat) → Outcome (List Instance × Store)
  | [] => .ok (instances, store)
  | index :: rest =>
    match bindNode p allocator instances store index with
    | .ok (i, store) => bindNodes p allocator (instances ++ [i]) store rest
    | .error (.error (.unboundDependency node dep)) =>
      .breach (.notInOrder (.unboundDependency node dep))
    | .error e => .error e

def ofProgram (p : Program ε) (allocator : Allocator) : Outcome (Network ε) := do
  let (instances, store) ← bindNodes p allocator [] .empty (List.range p.size)
  return ⟨p, instances, store, []⟩

def ofTopology (r : Registry ε) (t : Topology ε) (options : CompileOptions) (allocator : Allocator) :
    Outcome (Network ε) := do
  ofProgram (← Program.ofTopology r t options) allocator

def place (store : Store) : Source → Memory × Store
  | .fresh b => store.insert b
  | .shared m => (m, store)

def bindInput (n : Network ε) (id : PrimitiveId) (source : Source) : Outcome (Network ε) := do
  let index ← Outcome.ofExcept (n.program.nodeIndex id)
  let node ← n.program.node index
  if node.isKind .inputLayout then
    let expected ← n.program.outputLayout index
    if expected.same source.layout then
      let i ← n.instanceAt index
      let (memory, store) := place n.store source
      return { n with
        instances := n.instances.set index { i with output := memory, hasData := true }
        store := store }
    else .fail (.inputLayoutMismatch id expected source.layout)
  else .fail (.notAnInput id)

end Network

end InferenceGraph
