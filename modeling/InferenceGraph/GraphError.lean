import InferenceGraph.FileTree.Fault
import InferenceGraph.Layout
import InferenceGraph.PrimitiveId
import InferenceGraph.Text.Record

/-!
# Errors

Every failure is a cause, and its wording is one function of the cause. There are two sorts. A
`GraphError` is reported to the caller: a topology that does not compile, a descriptor that cannot
be read, an input that was not set. A `Breach` means that a function was called against its
contract; the call is given up on the spot. `Outcome` is the result of what can end in either way.
-/

set_option autoImplicit false

namespace InferenceGraph

structure TypeTag where
  number : UInt32
  deriving DecidableEq, Repr

def TypeTag.text (t : TypeTag) : String := "TypeTag(" ++ Nat.repr t.number.toNat ++ ")"

inductive Vocabulary where
  | elementType | format | activationFunction | eltwiseMode | boxCode
  deriving DecidableEq, Repr

def Vocabulary.text : Vocabulary → String
  | elementType => "data type"
  | format => "format"
  | activationFunction => "activation function"
  | eltwiseMode => "eltwise mode"
  | boxCode => "prior box code type"

inductive DescriptorFault where
  | absent
  | absentText (field : String)
  | absentTexts (field : String) (size : Nat)
  | unknownCode (vocabulary : Vocabulary) (code : Int32)
  deriving DecidableEq, Repr

def DescriptorFault.message : DescriptorFault → String
  | absent => "descriptor pointer is null"
  | absentText field => s!"field {field} is null"
  | absentTexts field size => s!"field {field} has size {size} but no data"
  | unknownCode vocabulary code => s!"unknown {vocabulary.text} {code.toInt}"

inductive ParameterFault where
  | dependencyCount (kind : String) (expected actual : Nat)
  | clampBounds (low high : Float32)
  | noClasses
  | nothingKept
  | background (label : Int32) (classes : UInt32)
  | overlapThreshold (threshold : Float32)
  | candidateLimit (limit : Int32)
  | decay (factor : Float32)
  | scoreThreshold
  deriving DecidableEq

def ParameterFault.message : ParameterFault → String
  | dependencyCount kind expected actual => s!"{kind} expects {expected} dependencies, got {actual}"
  | clampBounds low high =>
    s!"clamp needs min <= max, got {Scalar.plainText low} and {Scalar.plainText high}"
  | noClasses => "num_classes must be positive"
  | nothingKept => "keep_top_k must be positive"
  | background label classes =>
    s!"background_label_id {label.toInt} out of range for {classes.toNat} classes"
  | overlapThreshold threshold =>
    s!"nms_threshold must be in [0, 1], got {Scalar.plainText threshold}"
  | candidateLimit limit => s!"top_k must be positive or -1, got {limit.toInt}"
  | decay factor => s!"eta must be in (0, 1], got {Scalar.plainText factor}"
  | scoreThreshold => "confidence_threshold is NaN"

inductive LayoutFault where
  | noInput (kind : String)
  | sizes (input : Nat) (id : PrimitiveId) (size : TensorSize)
      (first : Nat) (firstId : PrimitiveId) (expected : TensorSize)
  | formats (input : Nat) (format : Format) (first : Nat) (expected : Format)
  | elementTypes (inputs : List Nat) (types : List ElementType)
  | spatialInput (size : TensorSize)
  | spatialOutput (size : TensorSize)
  | priorBoxes (size : TensorSize)
  | noImages (size : TensorSize)
  | imageCounts (location confidence : Nat)
  | locationCount (actual expected priors : Nat)
  | confidenceCount (actual expected priors : Nat) (classes : UInt32)
  | other (text : String)
  deriving DecidableEq

def LayoutFault.message : LayoutFault → String
  | noInput kind => s!"{kind} needs at least one input to derive its layout from"
  | sizes input id size first firstId expected =>
    s!"input {input} ({id.text}) has size {size.text} but input {first} ({firstId.text}) has size {expected.text}"
  | formats input format first expected =>
    s!"input {input} has format {format.text} but input {first} has format {expected.text}"
  | elementTypes inputs types =>
    let indices := Text.list (inputs.map Nat.repr)
    let tags := Text.list (types.map ElementType.tag)
    s!"inputs {indices} have different data types {tags}"
  | spatialInput size => s!"bf input needs spatial dimensions of 1, got size {size.text}"
  | spatialOutput size =>
    s!"input size {size.text} has spatial dimensions, bf output needs them to be 1"
  | priorBoxes size => s!"prior boxes must have size 1x2x1x(4*n), got {size.text}"
  | noImages size => s!"location {size.text} has no images"
  | imageCounts location confidence =>
    s!"location has {location} images but confidence has {confidence}"
  | locationCount actual expected priors =>
    s!"location has {actual} values per image, expected {expected} for {priors} priors"
  | confidenceCount actual expected priors classes =>
    s!"confidence has {actual} values per image, expected {expected} for {priors} priors and {classes.toNat} classes"
  | other text => text

def TensorSize.spatialAxes (s : TensorSize) : List Axis := [Axis.y, Axis.x].filter fun a => s.get a ≠ 1

def LayoutFault.axes : LayoutFault → List Axis
  | sizes _ _ size _ _ expected => expected.differingAxes size
  | spatialInput size => size.spatialAxes
  | spatialOutput size => size.spatialAxes
  | noImages _ => [.batch]
  | imageCounts _ _ => [.batch]
  | _ => []

def LayoutFault.axesText (f : LayoutFault) : String :=
  match f.axes with
  | [] => ""
  | axes => " (mismatching axes: " ++ Text.list (axes.map Axis.text) ++ ")"

inductive ExecutionFault where
  | notInHostMemory (layout : Layout)
  | wrongKernel (kernel actual : String)
  | refused (number : Nat)
  deriving DecidableEq

def ExecutionFault.message : ExecutionFault → String
  | notInHostMemory layout => s!"buffer with layout {layout.text} is not in host memory"
  | wrongKernel kernel actual => s!"kernel for {kernel} called on {actual}"
  | refused number => s!"refused at {number}"

inductive GraphError where
  | duplicateType (name : String) (tag : TypeTag)
  | unknownType (tag : TypeTag)
  | unknownTypeName (name : String)
  | duplicatePrimitiveId (id : PrimitiveId)
  | invalidIdentifier (refused : RefusedId)
  | invalidDescriptor (fault : DescriptorFault)
  | invalidParameter (node : PrimitiveId) (fault : ParameterFault)
  | unresolvedDependency (node missing : PrimitiveId)
  | graphCycle (cycle : List PrimitiveId)
  | layoutIncompatible (node : PrimitiveId) (fault : LayoutFault)
  | unboundDependency (node dependency : PrimitiveId)
  | unknownPrimitive (id : PrimitiveId)
  | notAnInput (id : PrimitiveId)
  | inputNotSet (id : PrimitiveId)
  | inputLayoutMismatch (id : PrimitiveId) (expected actual : Layout)
  | missingKernel (kind : String)
  | unsupportedType (node : PrimitiveId) (type : ElementType)
  | execution (node : PrimitiveId) (fault : ExecutionFault)
  | unsaved (path : String) (fault : FileFault)
  deriving DecidableEq

def GraphError.message : GraphError → String
  | duplicateType name tag =>
    s!"primitive kind {Text.quoted name} is already registered as {tag.text}"
  | unknownType tag => s!"type tag {tag.text} is not registered"
  | unknownTypeName name => s!"primitive kind {Text.quoted name} is not registered"
  | duplicatePrimitiveId id => s!"primitive id {id.text} is used more than once in the topology"
  | invalidIdentifier refused =>
    s!"invalid primitive id {Text.quoted refused.text}: {refused.fault.message}"
  | invalidDescriptor fault => s!"invalid descriptor: {fault.message}"
  | invalidParameter node fault => s!"invalid parameter for {node.text}: {fault.message}"
  | unresolvedDependency node missing =>
    s!"{node.text} depends on {missing.text}, which is not part of the topology"
  | graphCycle cycle => "dependency cycle: " ++ Text.joined " -> " (cycle.map PrimitiveId.text)
  | layoutIncompatible node fault =>
    s!"incompatible layouts for {node.text}: {fault.message}{fault.axesText}"
  | unboundDependency node dependency =>
    s!"dependency {dependency.text} of {node.text} has no instance yet"
  | unknownPrimitive id => s!"primitive {id.text} is not part of the network"
  | notAnInput id => s!"primitive {id.text} is not an input_layout"
  | inputNotSet id => s!"no data was set for input {id.text}"
  | inputLayoutMismatch id expected actual =>
    s!"input {id.text} expects {expected.text}, got a buffer of {actual.text}"
  | missingKernel kind => s!"no kernel registered for primitive kind {Text.quoted kind}"
  | unsupportedType node type => s!"{node.text}: data type {type.text} is not supported"
  | execution node fault => s!"execution of {node.text} failed: {fault.message}"
  | unsaved path fault => s!"io error for {Text.quoted path}: {fault.message}"

/-- A call against the contract of the function called. -/
inductive Breach where
  | outOfRange
  | divisionByZero
  | coordinate (place : Coordinate) (layout : Layout)
  | valueCount (layout : Layout) (actual : Nat)
  | inputValueCount (id : PrimitiveId) (layout : Layout)
  | notSingle (layout : Layout)
  | unequalLengths
  | identifier (refused : RefusedId)
  | tooManyKinds
  | foreignFields
  | dispatchedAs (id : PrimitiveId) (actual kind : String)
  | exportedAs (id : PrimitiveId) (actual kind : String)
  | notOfKind (id : PrimitiveId) (actual kind : String)
  | layoutNotInferred (id : PrimitiveId)
  | dependencyOutOfRange (index : Nat) (id : PrimitiveId) (count : Nat)
  | inputOutOfRange (index : Nat) (id : PrimitiveId) (count : Nat)
  | repeatedInOrder (node : Nat)
  | prunedDependency (id : PrimitiveId) (dependency : Nat)
  | notInOrder (error : GraphError)
  | wrongBuffer (id : PrimitiveId)
  | beforeDependency (id : PrimitiveId) (dependency : Nat)
  | notExecuted (id : PrimitiveId)
  | eventOrder (event now : Nat)
  deriving DecidableEq

def nodeText (index : Nat) : String := "Node(" ++ Nat.repr index ++ ")"

def Breach.message : Breach → Option String
  | outOfRange => none
  | divisionByZero => none
  | coordinate c layout =>
    some s!"Coordinate ({c.batch}, {c.feature}, {c.y}, {c.x}) out of bounds for {layout.text}"
  | valueCount layout actual =>
    some s!"Expected {layout.count} values for {layout.text}, got {actual}"
  | inputValueCount id layout =>
    some s!"Expected {layout.count} values for input {id.text} with layout {layout.text}"
  | notSingle layout => some s!"Buffer of {layout.text} viewed as f32"
  | unequalLengths => none
  | identifier refused => some (GraphError.invalidIdentifier refused).message
  | tooManyKinds => some "Too many primitive kinds"
  | foreignFields => none
  | dispatchedAs id actual kind => some s!"Primitive {id.text} of kind {actual} dispatched as {kind}"
  | exportedAs id actual kind => some s!"Primitive {id.text} is of kind {actual}, expected {kind}"
  | notOfKind id actual kind => some s!"Node {id.text} is of kind {actual}, not {kind}"
  | layoutNotInferred id => some s!"Output layout of {id.text} requested before it was inferred"
  | dependencyOutOfRange index id count =>
    some s!"Dependency {index} out of range for {id.text} with {count} dependencies"
  | inputOutOfRange index id count =>
    some s!"Input {index} out of range for {id.text} with {count} inputs"
  | repeatedInOrder node => some s!"Node {nodeText node} appears twice in the processing order"
  | prunedDependency id dependency =>
    some s!"Kept node {id.text} depends on pruned node {nodeText dependency}"
  | notInOrder error => some s!"Program is not in processing order: {error.message}"
  | wrongBuffer id => some s!"Allocated buffer for {id.text} has the wrong layout"
  | beforeDependency id dependency =>
    some s!"Instance {id.text} executed before its dependency {nodeText dependency}"
  | notExecuted id => some s!"Output {id.text} was not executed"
  | eventOrder event now =>
    some s!"Event HostEvent \x7b index: {event} \x7d is not complete before {now}"

inductive Failure where
  | error (cause : GraphError)
  | breach (cause : Breach)
  deriving DecidableEq

abbrev Outcome (α : Type) := Except Failure α

namespace Outcome

def fail {α : Type} (e : GraphError) : Outcome α := .error (.error e)

def breach {α : Type} (b : Breach) : Outcome α := .error (.breach b)

def ofExcept {α : Type} : Except GraphError α → Outcome α
  | .ok a => .ok a
  | .error e => fail e

def get {α : Type} (b : Breach) : Option α → Outcome α
  | some a => .ok a
  | none => breach b

variable {α β : Type}

theorem bind_eq_ok_iff {x : Outcome α} {f : α → Outcome β} {b : β} :
    (x >>= f) = .ok b ↔ ∃ a, x = .ok a ∧ f a = .ok b := by
  cases x <;> simp [bind, Except.bind]

@[simp] theorem get_eq_ok_iff {c : Breach} {o : Option α} {a : α} :
    get c o = .ok a ↔ o = some a := by
  cases o <;> simp [get, breach]

@[simp] theorem ofExcept_eq_ok_iff {x : Except GraphError α} {a : α} :
    ofExcept x = .ok a ↔ x = .ok a := by
  cases x <;> simp [ofExcept, fail]

@[simp] theorem fail_ne_ok {e : GraphError} {a : α} : (fail e : Outcome α) ≠ .ok a := by
  simp [fail]

@[simp] theorem breach_ne_ok {b : Breach} {a : α} : (breach b : Outcome α) ≠ .ok a := by
  simp [breach]

end Outcome

end InferenceGraph
