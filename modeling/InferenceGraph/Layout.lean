import InferenceGraph.ElementType
import InferenceGraph.Scalar
import InferenceGraph.Scalar.Decimal
import InferenceGraph.TensorSize

/-!
# Layouts

A layout says how a tensor lies in memory: the type of its elements, its logical size, the order of
the axes, and the padding around it. Its elements are numbered through the padded box, the axes
nested in the order of the format, so `offset` is a number in a mixed radix.
-/

set_option autoImplicit false

namespace InferenceGraph

/-- The order of the axes in memory. `bf` is for data without rows and columns. -/
inductive Format where
  | bfyx | yxfb | byxf | fyxb | bf
  deriving DecidableEq, Repr

namespace Format

def all : List Format := [bfyx, yxfb, byxf, fyxb, bf]

def order : Format → List Axis
  | bfyx | bf => [.batch, .feature, .y, .x]
  | yxfb => [.y, .x, .feature, .batch]
  | byxf => [.batch, .y, .x, .feature]
  | fyxb => [.feature, .y, .x, .batch]

def text : Format → String
  | bfyx => "bfyx"
  | yxfb => "yxfb"
  | byxf => "byxf"
  | fyxb => "fyxb"
  | bf => "bf"

def tag : Format → String
  | bfyx => "Bfyx"
  | yxfb => "Yxfb"
  | byxf => "Byxf"
  | fyxb => "Fyxb"
  | bf => "Bf"

def code : Format → Int32
  | bfyx => 0
  | yxfb => 1
  | byxf => 2
  | fyxb => 3
  | bf => 4

def ofCode? (c : Int32) : Option Format := all.find? fun f => f.code == c

@[simp] theorem ofCode?_code (f : Format) : ofCode? f.code = some f := by cases f <;> rfl

theorem code_of_ofCode? {c : Int32} {f : Format} (h : ofCode? c = some f) : f.code = c := by
  simpa using List.find?_some h

end Format

/-- Extra elements before and after the tensor along each axis, all holding the filling value. -/
structure Padding where
  lower : TensorSize
  upper : TensorSize
  fill : Float32
  deriving DecidableEq

namespace Padding

def symmetric (size : TensorSize) (fill : Float32) : Padding := ⟨size, size, fill⟩

def none : Padding := symmetric .zero 0

def isNone (p : Padding) : Bool := p.lower = .zero && p.upper = .zero

def same (p q : Padding) : Bool :=
  p.lower = q.lower && p.upper = q.upper && Scalar.sameFill p.fill q.fill

end Padding

structure Layout where
  type : ElementType
  format : Format
  size : TensorSize
  padding : Padding
  deriving DecidableEq

namespace Layout

def unpadded (type : ElementType) (format : Format) (size : TensorSize) : Layout :=
  ⟨type, format, size, .none⟩

def withPadding (l : Layout) (p : Padding) : Layout := { l with padding := p }

/-- Layouts are compared part by part, filling values as `Scalar.sameFill` does, also when there
is nothing to fill. -/
def same (l m : Layout) : Bool :=
  l.type = m.type && l.format = m.format && l.size = m.size && l.padding.same m.padding

def isPadded (l : Layout) : Bool := !l.padding.isNone

def count (l : Layout) : Nat := l.size.count

def paddedSize (l : Layout) : TensorSize := l.size + l.padding.lower + l.padding.upper

def paddedCount (l : Layout) : Nat := l.paddedSize.count

def bytes (l : Layout) : Nat := l.paddedCount * l.type.bytes

def offset (l : Layout) (c : Coordinate) : Nat :=
  l.format.order.foldl
    (fun offset axis => offset * l.paddedSize.get axis + (c + l.padding.lower).get axis) 0

def offsets (l : Layout) : List Nat := l.size.coordinates.map l.offset

/-- Written as `f32 bfyx [1x3x8x8] pad(lower: 0x0x1x1, upper: 0x0x1x1, fill: 0)`; without padding
the last part is left out. -/
def text (l : Layout) : String :=
  let box := l.type.text ++ " " ++ l.format.text ++ " [" ++ l.size.text ++ "]"
  if l.isPadded then
    box ++ " pad(lower: " ++ l.padding.lower.text ++ ", upper: " ++ l.padding.upper.text ++
      ", fill: " ++ Scalar.plainText l.padding.fill ++ ")"
  else box

def tag (l : Layout) : String := "Layout(" ++ l.text ++ ")"

@[simp] theorem length_offsets (l : Layout) : l.offsets.length = l.count := by
  simp [offsets, count]

end Layout

end InferenceGraph
