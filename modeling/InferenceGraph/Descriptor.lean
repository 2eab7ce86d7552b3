import InferenceGraph.Primitive

/-!
# Descriptors

A primitive travels as a descriptor: a tag, texts as byte strings that end at the first zero byte,
and the fields of its kind as plain words. A text may be absent. Codes and truth values are words,
so a descriptor can hold what no primitive has; reading checks that.
-/

set_option autoImplicit false

namespace InferenceGraph

/-- A text in memory, absent if the reference to it is. Only the bytes before the first zero count. -/
abbrev ForeignText := Option (List UInt8)

structure LayoutFields where
  type : Int32
  format : Int32
  size : TensorSize
  padding : Padding
  deriving DecidableEq

structure ActivationFields where
  function : Int32
  a : Float32
  b : Float32
  deriving DecidableEq

structure EltwiseFields where
  input2 : ForeignText
  mode : Int32
  withActivation : UInt32
  slope : Float32
  deriving DecidableEq

structure DetectionFields where
  classes : UInt32
  keep : UInt32
  sharedLocation : UInt32
  background : Int32
  overlapThreshold : Float32
  candidates : Int32
  decay : Float32
  boxCode : Int32
  varianceInTarget : UInt32
  scoreThreshold : Float32
  deriving DecidableEq

structure ReorderFields where
  format : Int32
  type : Int32
  deriving DecidableEq

inductive Fields (ε : Type) [Extension ε] where
  | inputLayout (layout : LayoutFields)
  | activation (fields : ActivationFields)
  | eltwise (fields : EltwiseFields)
  | detectionOutput (fields : DetectionFields)
  | reorder (fields : ReorderFields)
  | custom (fields : Extension.Fields ε)

structure Descriptor (ε : Type) [Extension ε] where
  tag : TypeTag
  id : ForeignText
  inputs : Option (List ForeignText)
  inputSize : Nat
  padding : Padding
  fields : Fields ε

def truthWord (b : Bool) : UInt32 := if b then 1 else 0

def ofTruthWord (w : UInt32) : Bool := w != 0

@[simp] theorem ofTruthWord_truthWord (b : Bool) : ofTruthWord (truthWord b) = b := by
  cases b <;> rfl

theorem truthWord_ofTruthWord (w : UInt32) : truthWord (ofTruthWord w) = if w = 0 then 0 else 1 := by
  by_cases h : w = 0 <;> simp [truthWord, ofTruthWord, h]

def readCode {α : Type} (vocabulary : Vocabulary) (ofCode? : Int32 → Option α) (code : Int32) :
    Except GraphError α :=
  match ofCode? code with
  | some a => .ok a
  | none => .error (.invalidDescriptor (.unknownCode vocabulary code))

def readId (field : String) : ForeignText → Except GraphError PrimitiveId
  | none => .error (.invalidDescriptor (.absentText field))
  | some memory =>
    match PrimitiveId.ofBytes memory with
    | .ok id => .ok id
    | .error refused => .error (.invalidIdentifier refused)

def readIdsFrom (field : String) (place : Nat) :
    List ForeignText → Except GraphError (List PrimitiveId)
  | [] => .ok []
  | text :: rest => do
    let id ← readId (field ++ "[" ++ Nat.repr place ++ "]") text
    let ids ← readIdsFrom field (place + 1) rest
    return id :: ids

/-- Reads an array of ids. An array of size zero is not looked at; otherwise the caller promises
that it has as many entries as its size says. -/
def readIds (field : String) (texts : Option (List ForeignText)) (size : Nat) :
    Outcome (List PrimitiveId) :=
  if size = 0 then .ok []
  else match texts with
    | none => .fail (.invalidDescriptor (.absentTexts field size))
    | some texts =>
      if texts.length < size then do
        let _ ← Outcome.ofExcept (readIdsFrom field 0 texts)
        .breach .outOfRange
      else Outcome.ofExcept (readIdsFrom field 0 (texts.take size))

namespace LayoutFields

def ofLayout (l : Layout) : LayoutFields := ⟨l.type.code, l.format.code, l.size, l.padding⟩

def read (f : LayoutFields) : Except GraphError Layout := do
  let type ← readCode .elementType ElementType.ofCode? f.type
  let format ← readCode .format Format.ofCode? f.format
  return ⟨type, format, f.size, f.padding⟩

end LayoutFields

namespace ActivationFields

def ofParams (p : Activation) : ActivationFields := ⟨p.function.code, p.a, p.b⟩

def read (f : ActivationFields) : Except GraphError Activation := do
  let function ← readCode .activationFunction ActivationFunction.ofCode? f.function
  return ⟨function, f.a, f.b⟩

end ActivationFields

namespace EltwiseFields

def ofParams (p : Eltwise) : EltwiseFields :=
  ⟨some p.input2.bytes, p.mode.code, truthWord p.withActivation, p.slope⟩

def read (f : EltwiseFields) : Except GraphError Eltwise := do
  let mode ← readCode .eltwiseMode EltwiseMode.ofCode? f.mode
  let input2 ← readId "input2" f.input2
  return ⟨input2, mode, ofTruthWord f.withActivation, f.slope⟩

end EltwiseFields

namespace DetectionFields

def ofParams (p : DetectionParameters) : DetectionFields where
  classes := p.classes
  keep := p.keep
  sharedLocation := truthWord p.sharedLocation
  background := p.background
  overlapThreshold := p.overlapThreshold
  candidates := p.candidates
  decay := p.decay
  boxCode := p.boxCode.code
  varianceInTarget := truthWord p.varianceInTarget
  scoreThreshold := p.scoreThreshold

def read (f : DetectionFields) : Except GraphError DetectionParameters := do
  let boxCode ← readCode .boxCode BoxCode.ofCode? f.boxCode
  return {
    classes := f.classes
    keep := f.keep
    sharedLocation := ofTruthWord f.sharedLocation
    background := f.background
    overlapThreshold := f.overlapThreshold
    candidates := f.candidates
    decay := f.decay
    boxCode := boxCode
    varianceInTarget := ofTruthWord f.varianceInTarget
    scoreThreshold := f.scoreThreshold }

end DetectionFields

namespace ReorderFields

def ofParams (p : Reorder) : ReorderFields := ⟨p.format.code, p.type.code⟩

def read (f : ReorderFields) : Except GraphError Reorder := do
  let format ← readCode .format Format.ofCode? f.format
  let type ← readCode .elementType ElementType.ofCode? f.type
  return ⟨format, type⟩

end ReorderFields

namespace Kind

variable {ε : Type} [Extension ε]

/-- Reads the parameters of a kind. The caller promises that the fields are those of the kind. -/
def readFields : (k : Kind ε) → Fields ε → Outcome k.Params
  | inputLayout, .inputLayout f => Outcome.ofExcept (f.read.map InputLayout.mk)
  | activation, .activation f => Outcome.ofExcept f.read
  | eltwise, .eltwise f => Outcome.ofExcept f.read
  | detectionOutput, .detectionOutput f => Outcome.ofExcept f.read
  | reorder, .reorder f => Outcome.ofExcept f.read
  | custom e, .custom f => Outcome.ofExcept (Extension.readFields e f)
  | _, _ => .breach .foreignFields

def writeFields : (k : Kind ε) → k.Params → Fields ε
  | inputLayout, p => .inputLayout (.ofLayout (InputLayout.layout p))
  | activation, p => .activation (.ofParams p)
  | eltwise, p => .eltwise (.ofParams p)
  | detectionOutput, p => .detectionOutput (.ofParams p)
  | reorder, p => .reorder (.ofParams p)
  | custom e, p => .custom (Extension.writeFields e p)

def readPrimitive (k : Kind ε) (d : Descriptor ε) : Outcome (Primitive ε) := do
  let id ← Outcome.ofExcept (readId "id" d.id)
  let inputs ← readIds "input" d.inputs d.inputSize
  let params ← k.readFields d.fields
  return ⟨id, inputs, d.padding, k, params⟩

variable [DecidableEq ε]

/-- Writes a primitive, which must be of this kind. Without inputs there is no array. -/
def writePrimitive (k : Kind ε) (p : Primitive ε) (tag : TypeTag) : Outcome (Descriptor ε) :=
  match p.paramsAs? k with
  | none => .breach (.exportedAs p.id p.kindName k.name)
  | some params => .ok {
      tag := tag
      id := some p.id.bytes
      inputs := if p.inputs = [] then none else some (p.inputs.map fun id => some id.bytes)
      inputSize := p.inputs.length
      padding := p.padding
      fields := k.writeFields params }

end Kind

end InferenceGraph
