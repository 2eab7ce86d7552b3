import InferenceGraph.GraphError

set_option autoImplicit false

namespace InferenceGraph

inductive EltwiseMode where
  | sum | sub | max | prod
  deriving DecidableEq, Repr

namespace EltwiseMode

def all : List EltwiseMode := [sum, sub, max, prod]

def code : EltwiseMode → Int32
  | sum => 0
  | sub => 1
  | max => 2
  | prod => 3

def ofCode? (c : Int32) : Option EltwiseMode := all.find? fun m => m.code == c

def tag : EltwiseMode → String
  | sum => "Sum"
  | sub => "Sub"
  | max => "Max"
  | prod => "Prod"

def apply (m : EltwiseMode) (x y : Float32) : Float32 :=
  match m with
  | sum => x + y
  | sub => x - y
  | max => Scalar.max x y
  | prod => x * y

@[simp] theorem ofCode?_code (m : EltwiseMode) : ofCode? m.code = some m := by cases m <;> rfl

theorem code_of_ofCode? {c : Int32} {m : EltwiseMode} (h : ofCode? c = some m) : m.code = c := by
  simpa using List.find?_some h

end EltwiseMode

structure Eltwise where
  input2 : PrimitiveId
  mode : EltwiseMode
  withActivation : Bool
  slope : Float32
  deriving DecidableEq

namespace Eltwise

def plain (input2 : PrimitiveId) (mode : EltwiseMode) : Eltwise := ⟨input2, mode, false, 0⟩

def withSlope (p : Eltwise) (slope : Float32) : Eltwise :=
  { p with withActivation := true, slope := slope }

/-- Combines two values; the slope only bends negative results. -/
def apply (p : Eltwise) (x y : Float32) : Float32 :=
  let z := p.mode.apply x y
  if p.withActivation ∧ z < 0 then z * p.slope else z

def same (p q : Eltwise) : Bool :=
  p.input2 = q.input2 && p.mode = q.mode && p.withActivation = q.withActivation &&
    p.slope == q.slope

def text (p : Eltwise) : String :=
  Text.record "Eltwise"
    [("input2", p.input2.quoted), ("mode", p.mode.tag),
      ("with_activation", Text.bool p.withActivation),
      ("activation_negative_slope", Scalar.parameterText p.slope)]

end Eltwise

end InferenceGraph
