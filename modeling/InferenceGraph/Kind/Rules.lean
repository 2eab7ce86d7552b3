import InferenceGraph.Buffer

/-!
# Rules of a kind

A kind of primitive is a type of parameters and a record of rules over it: what else it depends on,
which parameters are valid, what layout its output has, how the output is allocated and how a node
is described. The compiler and the network only go through these rules. A rule sees a node through
a `NodeView`; asking it for a dependency that does not exist is a breach.
-/

set_option autoImplicit false

namespace InferenceGraph

structure InputView where
  id : PrimitiveId
  layout? : Option Layout
  deriving DecidableEq

/-- What a rule may look at. The inputs are in the order of the declared dependencies. -/
structure NodeView where
  id : PrimitiveId
  index : Nat
  padding : Padding
  inputs : List InputView
  layout? : Option Layout
  deriving DecidableEq

namespace NodeView

def dependency (v : NodeView) (i : Nat) : Outcome PrimitiveId :=
  match v.inputs[i]? with
  | some input => .ok input.id
  | none => .breach (.dependencyOutOfRange i v.id v.inputs.length)

def inputLayout (v : NodeView) (i : Nat) : Outcome Layout := do
  let input ← Outcome.get .outOfRange v.inputs[i]?
  Outcome.get (.layoutNotInferred input.id) input.layout?

def outputLayout (v : NodeView) : Outcome Layout := Outcome.get (.layoutNotInferred v.id) v.layout?

def incompatible {α : Type} (v : NodeView) (fault : LayoutFault) : Outcome α :=
  .fail (.layoutIncompatible v.id fault)

def ofFault {α : Type} (v : NodeView) : Except LayoutFault α → Outcome α
  | .ok a => .ok a
  | .error fault => v.incompatible fault

def firstInputLayout (v : NodeView) (kind : String) : Outcome Layout :=
  if v.inputs = [] then v.incompatible (.noInput kind)
  else return (← v.inputLayout 0).withPadding v.padding

/-- One input agrees with the first one in size and format; padding may differ. -/
def checkAgainst (v : NodeView) (first : Nat) (expected : Layout) (i : Nat) : Outcome Unit := do
  let actual ← v.inputLayout i
  if actual.size ≠ expected.size then
    let id ← v.dependency i
    let firstId ← v.dependency first
    v.incompatible (.sizes i id actual.size first firstId expected.size)
  else if actual.format ≠ expected.format then
    v.incompatible (.formats i actual.format first expected.format)
  else .ok ()

def checkSameShape (v : NodeView) : (inputs : List Nat) → Outcome Unit
  | [] => .ok ()
  | first :: rest => do
    let expected ← v.inputLayout first
    rest.forM (v.checkAgainst first expected)

def checkSameType (v : NodeView) (inputs : List Nat) : Outcome Unit := do
  let types ← inputs.mapM fun i => return (← v.inputLayout i).type
  match types with
  | [] => .ok ()
  | first :: rest =>
    if rest.all (· = first) then .ok () else v.incompatible (.elementTypes inputs types)

def text (v : NodeView) (parameters : String) : String :=
  Text.record "TypedNode"
    [("id", v.id.quoted), ("index", nodeText v.index), ("params", parameters)]

/-- The usual description: `relu = activation(input) Activation {…} -> f32 bfyx [1x3x8x8]`. -/
def describe (v : NodeView) (kind parameters : String) : Outcome String := do
  let inputs := Text.joined ", " (v.inputs.map fun input => input.id.text)
  let layout ← v.outputLayout
  return v.id.text ++ " = " ++ kind ++ "(" ++ inputs ++ ") " ++ parameters ++ " -> " ++ layout.text

def allocate (v : NodeView) (allocator : Allocator) : Outcome Buffer := do
  allocator (← v.outputLayout)

end NodeView

/-- The rules of a kind whose parameters are of type `P`. -/
structure Rules (P : Type) where
  name : String
  /-- What the kind depends on besides the inputs of the primitive. -/
  ownDependencies : P → List PrimitiveId := fun _ => []
  validate : PrimitiveId → Nat → P → Except GraphError Unit := fun _ _ _ => .ok ()
  outputLayout : NodeView → P → Outcome Layout
  createBuffer : Allocator → NodeView → P → Outcome Buffer := fun allocator v _ => v.allocate allocator
  describe : NodeView → P → Outcome String
  text : P → String
  same : P → P → Bool

def expectDependencies (kind : String) (expected : Nat) (id : PrimitiveId) (actual : Nat) :
    Except GraphError Unit :=
  if actual = expected then .ok ()
  else .error (.invalidParameter id (.dependencyCount kind expected actual))

end InferenceGraph
