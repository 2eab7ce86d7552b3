import InferenceGraph.GraphError

set_option autoImplicit false

namespace InferenceGraph

inductive ActivationFunction where
  | relu | reluNegativeSlope | logistic | hyperbolicTan | elu | abs | sqrt | square | linear | clamp
  deriving DecidableEq, Repr

namespace ActivationFunction

def all : List ActivationFunction :=
  [relu, reluNegativeSlope, logistic, hyperbolicTan, elu, abs, sqrt, square, linear, clamp]

def code : ActivationFunction → Int32
  | relu => 0
  | reluNegativeSlope => 1
  | logistic => 2
  | hyperbolicTan => 3
  | elu => 4
  | abs => 5
  | sqrt => 6
  | square => 7
  | linear => 8
  | clamp => 9

def ofCode? (c : Int32) : Option ActivationFunction := all.find? fun f => f.code == c

def tag : ActivationFunction → String
  | relu => "Relu"
  | reluNegativeSlope => "ReluNegativeSlope"
  | logistic => "Logistic"
  | hyperbolicTan => "HyperbolicTan"
  | elu => "Elu"
  | abs => "Abs"
  | sqrt => "Sqrt"
  | square => "Square"
  | linear => "Linear"
  | clamp => "Clamp"

/-- The value at `x`. What is not a number counts as below the bounds of `relu` and `clamp`. -/
def apply (f : ActivationFunction) (x a b : Float32) : Float32 :=
  match f with
  | relu => Scalar.max x 0
  | reluNegativeSlope => if x > 0 then x else a * x
  | logistic => 1 / (1 + (-x).exp)
  | hyperbolicTan => x.tanh
  | elu => if x > 0 then x else a * (x.exp - 1)
  | abs => x.abs
  | sqrt => x.sqrt
  | square => x * x
  | linear => a * x + b
  | clamp => Scalar.min (Scalar.max x a) b

@[simp] theorem ofCode?_code (f : ActivationFunction) : ofCode? f.code = some f := by
  cases f <;> rfl

theorem code_of_ofCode? {c : Int32} {f : ActivationFunction} (h : ofCode? c = some f) :
    f.code = c := by
  simpa using List.find?_some h

end ActivationFunction

structure Activation where
  function : ActivationFunction
  a : Float32
  b : Float32
  deriving DecidableEq

namespace Activation

def apply (p : Activation) (x : Float32) : Float32 := p.function.apply x p.a p.b

def same (p q : Activation) : Bool := p.function = q.function && p.a == q.a && p.b == q.b

def text (p : Activation) : String :=
  Text.record "Activation"
    [("func", p.function.tag), ("a", Scalar.parameterText p.a), ("b", Scalar.parameterText p.b)]

/-- A clamp needs bounds in order; a bound that is not a number is in no order. -/
def check (p : Activation) : Except ParameterFault Unit :=
  if p.function = .clamp ∧ ¬ p.a ≤ p.b then .error (.clampBounds p.a p.b) else .ok ()

end Activation

end InferenceGraph
