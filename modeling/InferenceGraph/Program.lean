import InferenceGraph.Program.Order
import InferenceGraph.Topology

/-!
# Programs

A program is a graph of nodes: primitives whose dependencies are resolved to node numbers. It keeps
an index of the numbers by id, which every stage that renumbers the nodes has to rebuild. A finished
program stores its nodes in processing order, each after all its dependencies, and knows the layout
of every node.
-/

set_option autoImplicit false

namespace InferenceGraph

/-- A primitive with its edges. Dependencies are in declared order; users are the reverse edges,
each once. The layout is absent until it is inferred. -/
structure Node (ε : Type) [Extension ε] where
  primitive : Primitive ε
  type : PrimitiveType ε
  dependencies : List Nat
  users : List Nat
  layout? : Option Layout
  isOutput : Bool

abbrev NodeIndex := List (PrimitiveId × Nat)

structure Program (ε : Type) [Extension ε] where
  nodes : List (Node ε)
  index : NodeIndex
  outputs : List Nat

structure CompileOptions where
  /-- The primitives whose results are wanted, in order; what none of them depends on is left out.
  Otherwise every primitive without users is an output, and nothing is left out. -/
  outputs : Option (List PrimitiveId)
  /-- Every primitive is an output, and nothing is left out. -/
  exposeAll : Bool
  deriving DecidableEq

def CompileOptions.standard : CompileOptions := ⟨none, false⟩

namespace Node

variable {ε : Type} [Extension ε]

def id (n : Node ε) : PrimitiveId := n.primitive.id

variable [DecidableEq ε]

def isKind (n : Node ε) (k : Kind ε) : Bool := n.type.kind = k

def params (n : Node ε) : Outcome n.type.kind.Params :=
  Outcome.get (.notOfKind n.id n.primitive.kindName n.type.name)
    (n.primitive.paramsAs? n.type.kind)

def ofPrimitive (t : PrimitiveType ε) (p : Primitive ε) : Outcome (Node ε) := do
  let params ← Outcome.get (.dispatchedAs p.id p.kindName t.name) (p.paramsAs? t.kind)
  Outcome.ofExcept (t.kind.rules.validate p.id p.dependencies.length params)
  return ⟨p, t, [], [], none, false⟩

end Node

namespace Program

variable {ε : Type} [Extension ε]

def size (p : Program ε) : Nat := p.nodes.length

def ids (p : Program ε) : List PrimitiveId := p.nodes.map Node.id

def nodeIndex? (p : Program ε) (id : PrimitiveId) : Option Nat := p.index.lookup id

def nodeIndex (p : Program ε) (id : PrimitiveId) : Except GraphError Nat :=
  match p.nodeIndex? id with
  | some index => .ok index
  | none => .error (.unknownPrimitive id)

def node (p : Program ε) (index : Nat) : Outcome (Node ε) := Outcome.get .outOfRange p.nodes[index]?

def nodeOf (p : Program ε) (id : PrimitiveId) : Outcome (Nat × Node ε) := do
  let index ← Outcome.ofExcept (p.nodeIndex id)
  return (index, ← p.node index)

def edges (p : Program ε) : List (List Nat) := p.nodes.map Node.dependencies

def view (p : Program ε) (index : Nat) (n : Node ε) : NodeView where
  id := n.id
  index := index
  padding := n.primitive.padding
  inputs := n.dependencies.filterMap fun dep => p.nodes[dep]?.map fun d => ⟨d.id, d.layout?⟩
  layout? := n.layout?

def outputLayout (p : Program ε) (index : Nat) : Outcome Layout := do
  let n ← p.node index
  Outcome.get (.layoutNotInferred n.id) n.layout?

def outputIds (p : Program ε) : Outcome (List PrimitiveId) :=
  p.outputs.mapM fun index => return (← p.node index).id

variable [DecidableEq ε]

def describe (p : Program ε) (index : Nat) : Outcome String := do
  let n ← p.node index
  n.type.kind.rules.describe (p.view index n) (← n.params)

def typedText (p : Program ε) (index : Nat) (k : Kind ε) : Outcome (Option String) := do
  let n ← p.node index
  return (n.primitive.paramsAs? k).map fun params =>
    (p.view index n).text (k.rules.text params)

def text (p : Program ε) : Outcome String := do
  let outputs := Text.joined ", " ((← p.outputIds).map PrimitiveId.text)
  let lines ← (List.range p.size).mapM fun index =>
    return "    " ++ nodeText index ++ ": " ++ (← p.describe index) ++ ",\n"
  return "Program \x7b\n  outputs: [" ++ outputs ++ "],\n  nodes: [\n" ++ String.join lines ++
    "  ],\n\x7d\n"

end Program

end InferenceGraph
