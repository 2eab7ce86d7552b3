import InferenceGraph.Activation
import InferenceGraph.Detection.Parameters
import InferenceGraph.Eltwise
import InferenceGraph.Kind.Rules
import InferenceGraph.Reorder

set_option autoImplicit false

namespace InferenceGraph

def invalidUnless (id : PrimitiveId) : Except ParameterFault Unit → Except GraphError Unit
  | .ok () => .ok ()
  | .error fault => .error (.invalidParameter id fault)

/-- An input has the layout that it declares, whatever output padding it is given. -/
def InputLayout.rules : Rules InputLayout where
  name := "input_layout"
  validate id count p := do
    expectDependencies "input_layout" 0 id count
    match p.check with
    | .ok () => .ok ()
    | .error fault => .error (.layoutIncompatible id fault)
  outputLayout _ p := .ok p.layout
  describe v _ := do
    let layout ← v.outputLayout
    return v.id.text ++ " = input_layout() -> " ++ layout.text
  text := InputLayout.text
  same := InputLayout.same

def Activation.rules : Rules Activation where
  name := "activation"
  validate id count p := do
    expectDependencies "activation" 1 id count
    invalidUnless id p.check
  outputLayout v _ := v.firstInputLayout "activation"
  describe v p := v.describe "activation" p.text
  text := Activation.text
  same := Activation.same

def Eltwise.rules : Rules Eltwise where
  name := "eltwise"
  ownDependencies p := [p.input2]
  validate id count _ := expectDependencies "eltwise" 2 id count
  outputLayout v _ := do
    v.checkSameShape [0, 1]
    v.checkSameType [0, 1]
    v.firstInputLayout "eltwise"
  describe v p := do
    let input ← v.dependency 0
    let layout ← v.outputLayout
    let sum := v.id.text ++ " = eltwise(" ++ p.mode.tag ++ ", " ++ input.text ++ ", " ++
      p.input2.text ++ ") -> " ++ layout.text
    return if p.withActivation then sum ++ " relu(slope: " ++ Scalar.plainText p.slope ++ ")" else sum
  text := Eltwise.text
  same := Eltwise.same

def DetectionParameters.rules : Rules DetectionParameters where
  name := "detection_output"
  validate id count p := do
    expectDependencies "detection_output" 3 id count
    invalidUnless id p.check
  outputLayout v p := do
    let location ← v.inputLayout 0
    let confidence ← v.inputLayout 1
    let prior ← v.inputLayout 2
    v.ofFault (p.outputLayout location confidence prior v.padding)
  describe v p := do
    let location ← v.dependency 0
    let confidence ← v.dependency 1
    let prior ← v.dependency 2
    let layout ← v.outputLayout
    return v.id.text ++ " = detection_output(location: " ++ location.text ++ ", confidence: " ++
      confidence.text ++ ", prior_box: " ++ prior.text ++ ") classes: " ++
      Nat.repr p.classes.toNat ++ ", keep_top_k: " ++ Nat.repr p.keep.toNat ++ ", nms: " ++
      Scalar.plainText p.overlapThreshold ++ " -> " ++ layout.text
  text := DetectionParameters.text
  same := DetectionParameters.same

def Reorder.rules : Rules Reorder where
  name := "reorder"
  validate id count _ := expectDependencies "reorder" 1 id count
  outputLayout v p := do
    let input ← v.inputLayout 0
    v.ofFault (p.outputLayout input v.padding)
  describe v p := v.describe "reorder" p.text
  text := Reorder.text
  same p q := p = q

end InferenceGraph
