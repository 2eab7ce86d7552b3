import InferenceGraph.Program

/-!
# Compilation

A topology becomes a program in three stages. At first every primitive is a node, in the order of
the topology, with its edges resolved. Then the nodes are arranged in processing order, and those
that no requested output depends on are dropped. At last the layout of every node is inferred. Each
stage that was reached is kept, so it can be looked at even when a later one fails.
-/

set_option autoImplicit false

namespace InferenceGraph

inductive Stage where
  | initial | sorted | layouts
  deriving DecidableEq, Repr

def Stage.name : Stage → String
  | initial => "0_initial"
  | sorted => "1_sorted"
  | layouts => "2_layouts"

namespace Node

variable {ε : Type} [Extension ε]

def indexOf (nodes : List (Node ε)) : NodeIndex :=
  nodes.zipIdx.map fun (n, number) => (n.id, number)

/-- The numbers of the nodes that a node depends on. -/
def resolve (index : NodeIndex) (n : Node ε) : Except GraphError (List Nat) :=
  n.primitive.dependencies.mapM fun dep =>
    match index.lookup dep with
    | some number => .ok number
    | none => .error (.unresolvedDependency n.id dep)

def usersOf (edges : List (List Nat)) (node : Nat) : List Nat :=
  (List.range edges.length).filter fun user => (edges[user]?.getD []).contains node

def connect (index : NodeIndex) (nodes : List (Node ε)) : Except GraphError (List (Node ε)) := do
  let edges ← nodes.mapM (resolve index)
  return nodes.zipIdx.map fun (n, number) =>
    { n with dependencies := edges[number]?.getD [], users := usersOf edges number }

variable [DecidableEq ε]

def ofTopology (r : Registry ε) (t : Topology ε) : Outcome (List (Node ε)) :=
  t.primitives.mapM fun p => do
    let type ← Outcome.ofExcept (r.typeOfPrimitive p)
    ofPrimitive type p

end Node

namespace Program

variable {ε : Type} [Extension ε]

def order (p : Program ε) : Outcome (List Nat) :=
  match Order.ofEdges p.edges with
  | .ok order => .ok order
  | .error cycle => do
    let nodes ← cycle.mapM p.node
    .fail (.graphCycle (nodes.map Node.id))

/-- The nodes of the requested ids, each at its first occurrence. -/
def requested (p : Program ε) (ids : List PrimitiveId) : Except GraphError (List Nat) := do
  let outputs ← ids.mapM p.nodeIndex
  return outputs.eraseDups

/-- The output nodes in order, and the nodes that are kept. -/
def selection (p : Program ε) (options : CompileOptions) :
    Except GraphError (List Nat × List Nat) := do
  let all := List.range p.size
  match options.outputs with
  | none =>
    if options.exposeAll then return (all, all)
    else return (all.filter fun i => p.nodes[i]?.any fun n => n.users.isEmpty, all)
  | some ids =>
    let outputs ← p.requested ids
    if options.exposeAll then return (outputs ++ all.filter fun i => !outputs.contains i, all)
    else return (outputs, Order.needed p.edges outputs)

/-- A kept node with its edges renumbered by its place among the kept nodes. -/
def renumber (p : Program ε) (kept outputs : List Nat) (place old : Nat) : Outcome (Node ε) := do
  if (kept.take place).contains old then .breach (.repeatedInOrder old)
  else
    let n ← p.node old
    let dependencies ← n.dependencies.mapM fun dep =>
      Outcome.get (.prunedDependency n.id dep) (kept.idxOf? dep)
    return { n with
      dependencies := dependencies
      users := n.users.filterMap fun user => kept.idxOf? user
      isOutput := outputs.contains old }

def reindex (kept : List Nat) (nodes : List (Node ε)) : NodeIndex :=
  (nodes.zip kept).filterMap fun (n, old) => (kept.idxOf? old).map fun number => (n.id, number)

def arrange (p : Program ε) (order keep outputs : List Nat) : Outcome (Program ε) := do
  let kept := order.filter keep.contains
  let nodes ← kept.zipIdx.mapM fun (old, place) => p.renumber kept outputs place old
  return ⟨nodes, reindex kept nodes, outputs.filterMap fun output => kept.idxOf? output⟩

def sorted (p : Program ε) (options : CompileOptions) : Outcome (Program ε) := do
  let order ← p.order
  let (outputs, keep) ← Outcome.ofExcept (p.selection options)
  p.arrange order keep outputs

variable [DecidableEq ε]

def initial (r : Registry ε) (t : Topology ε) : Outcome (Program ε) := do
  let nodes ← Node.ofTopology r t
  let index := Node.indexOf nodes
  let nodes ← Outcome.ofExcept (Node.connect index nodes)
  return ⟨nodes, index, []⟩

def inferAt (p : Program ε) (index : Nat) : Outcome (Program ε) := do
  let n ← p.node index
  let layout ← n.type.kind.rules.outputLayout (p.view index n) (← n.params)
  return { p with nodes := p.nodes.set index { n with layout? := some layout } }

/-- Each layout is inferred after those that it depends on, as the order is the processing order. -/
def infer (p : Program ε) : Outcome (Program ε) := (List.range p.size).foldlM inferAt p

def ofTopology (r : Registry ε) (t : Topology ε) (options : CompileOptions) :
    Outcome (Program ε) := do
  let first ← initial r t
  let second ← first.sorted options
  second.infer

end Program

/-- What a compilation went through, and how it ended. -/
structure Compilation (ε : Type) [Extension ε] where
  stages : List (Stage × Program ε)
  result : Outcome (Program ε)

namespace Compilation

variable {ε : Type} [Extension ε] [DecidableEq ε]

def ofTopology (r : Registry ε) (t : Topology ε) (options : CompileOptions) : Compilation ε :=
  match Program.initial r t with
  | .error e => ⟨[], .error e⟩
  | .ok first =>
    match first.sorted options with
    | .error e => ⟨[(.initial, first)], .error e⟩
    | .ok second =>
      match second.infer with
      | .error e => ⟨[(.initial, first), (.sorted, second)], .error e⟩
      | .ok last => ⟨[(.initial, first), (.sorted, second), (.layouts, last)], .ok last⟩

theorem result_ofTopology (r : Registry ε) (t : Topology ε) (options : CompileOptions) :
    (ofTopology r t options).result = Program.ofTopology r t options := by
  unfold ofTopology Program.ofTopology
  cases Program.initial r t with
  | error e => rfl
  | ok first =>
    simp only [bind, Except.bind]
    cases first.sorted options with
    | error e => rfl
    | ok second =>
      simp only
      cases second.infer <;> rfl

end Compilation

end InferenceGraph
