import InferenceGraph.Topology

/-!
# Sample kinds

An extension of four kinds that exercises what rules can do: `scale` is an ordinary kind,
`fakeEltwise` shares its name with a builtin kind, `nary` has as many dependencies as it likes, and
`odd` breaks the rules of allocation in several ways.
-/

set_option autoImplicit false

namespace InferenceGraph

inductive Sample where
  | scale | fakeEltwise | nary | odd
  deriving DecidableEq, Repr

namespace Sample

structure Scale where
  factor : Float32
  deriving DecidableEq

structure Nary where
  extra : List PrimitiveId
  checkSize : Bool
  checkType : Bool
  deriving DecidableEq

structure Odd where
  mode : Int32
  deriving DecidableEq, Repr

def Params : Sample → Type
  | scale => Scale
  | fakeEltwise => Unit
  | nary => Nary
  | odd => Odd

def Scale.rules : Rules Scale where
  name := "scale"
  validate id count _ := expectDependencies "scale" 1 id count
  outputLayout v _ := v.firstInputLayout "scale"
  describe v p := v.describe "scale" (Text.record "Scale" [("factor", Scalar.parameterText p.factor)])
  text p := Text.record "Scale" [("factor", Scalar.parameterText p.factor)]
  same p q := p.factor == q.factor

def fakeRules : Rules Unit where
  name := "eltwise"
  outputLayout v _ := v.firstInputLayout "eltwise"
  describe v _ := v.describe "eltwise" "FakeEltwise"
  text _ := "FakeEltwise"
  same _ _ := true

def Nary.text (p : Nary) : String :=
  Text.record "Nary"
    [("extra", Text.list (p.extra.map PrimitiveId.quoted)), ("check_size", Text.bool p.checkSize),
      ("check_dtype", Text.bool p.checkType)]

def Nary.rules : Rules Nary where
  name := "nary"
  ownDependencies p := p.extra
  outputLayout v p := do
    let inputs := List.range v.inputs.length
    if p.checkSize then v.checkSameShape inputs
    if p.checkType then v.checkSameType inputs
    v.firstInputLayout "nary"
  describe v p := v.describe "nary" p.text
  text := Nary.text
  same p q := p = q

def Odd.text (p : Odd) : String := Text.record "Odd" [("mode", toString p.mode.toInt)]

/-- Allocates as asked by the mode: as usual, a single element, or not at all. -/
def Odd.createBuffer (allocator : Allocator) (v : NodeView) (p : Odd) : Outcome Buffer := do
  if p.mode = 0 then v.allocate allocator
  else if p.mode = 1 then allocator { ← v.outputLayout with size := ⟨1, 1, 1, 1⟩ }
  else if p.mode = 2 then .fail (.unboundDependency v.id (← v.dependency 0))
  else if p.mode = 3 then v.incompatible (.other "odd refuses")
  else do
    let _ ← v.dependency 1000
    v.allocate allocator

def Odd.rules : Rules Odd where
  name := "odd"
  outputLayout v _ := v.firstInputLayout "odd"
  createBuffer := Odd.createBuffer
  describe v p := .ok ("odd " ++ v.text p.text)
  text := Odd.text
  same p q := p = q

/-- All sample kinds travel with a single number. -/
instance : Extension Sample where
  Params := Params
  Fields := Float32
  rules
    | scale => Scale.rules
    | fakeEltwise => fakeRules
    | nary => Nary.rules
    | odd => Odd.rules
  readFields
    | scale, factor => .ok ⟨factor⟩
    | fakeEltwise, _ => .ok ()
    | nary, _ => .ok ⟨[], true, true⟩
    | odd, _ => .ok ⟨0⟩
  writeFields
    | scale, p => Scale.factor p
    | fakeEltwise, _ => 0
    | nary, _ => 0
    | odd, _ => 0

end Sample

end InferenceGraph
