/-!
# Tensor sizes

A tensor has four named axes. A size counts the elements along each; the same four numbers name a
single element, the first along an axis being zero. `coordinates` lists the elements of a size in
logical order: images, then features, rows and columns, the last running fastest.
-/

set_option autoImplicit false

namespace InferenceGraph

inductive Axis where
  | batch | feature | y | x
  deriving DecidableEq, Repr

namespace Axis

def all : List Axis := [batch, feature, y, x]

def text : Axis → String
  | batch => "Batch"
  | feature => "Feature"
  | y => "Y"
  | x => "X"

theorem mem_all (a : Axis) : a ∈ all := by cases a <;> decide

end Axis

structure TensorSize where
  batch : Nat
  feature : Nat
  y : Nat
  x : Nat
  deriving DecidableEq, Repr

abbrev Coordinate := TensorSize

namespace TensorSize

def zero : TensorSize := ⟨0, 0, 0, 0⟩

def get (s : TensorSize) : Axis → Nat
  | .batch => s.batch
  | .feature => s.feature
  | .y => s.y
  | .x => s.x

@[ext] theorem ext_get {s t : TensorSize} (h : ∀ a, s.get a = t.get a) : s = t := by
  have hb := h .batch
  have hf := h .feature
  have hy := h .y
  have hx := h .x
  cases s
  cases t
  simp_all [get]

def count (s : TensorSize) : Nat := s.batch * s.feature * s.y * s.x

def perImage (s : TensorSize) : Nat := s.feature * s.y * s.x

def add (s t : TensorSize) : TensorSize :=
  ⟨s.batch + t.batch, s.feature + t.feature, s.y + t.y, s.x + t.x⟩

instance : Add TensorSize := ⟨add⟩

@[simp] theorem get_add (s t : TensorSize) (a : Axis) : (s + t).get a = s.get a + t.get a := by
  cases a <;> rfl

def differingAxes (s t : TensorSize) : List Axis := Axis.all.filter fun a => s.get a ≠ t.get a

def contains (s : TensorSize) (c : Coordinate) : Bool :=
  c.batch < s.batch && c.feature < s.feature && c.y < s.y && c.x < s.x

def coordinates (s : TensorSize) : List Coordinate :=
  (List.range s.batch).flatMap fun b =>
    (List.range s.feature).flatMap fun f =>
      (List.range s.y).flatMap fun y => (List.range s.x).map fun x => ⟨b, f, y, x⟩

theorem mem_coordinates (s : TensorSize) (c : Coordinate) :
    c ∈ s.coordinates ↔ s.contains c = true := by
  cases c
  simp [coordinates, contains]
  grind

@[simp] theorem length_coordinates (s : TensorSize) : s.coordinates.length = s.count := by
  simp [coordinates, count, List.length_flatMap, List.map_const', Nat.mul_assoc]

/-- Written as `1x3x8x8`. -/
def text (s : TensorSize) : String :=
  Nat.repr s.batch ++ "x" ++ Nat.repr s.feature ++ "x" ++ Nat.repr s.y ++ "x" ++ Nat.repr s.x

end TensorSize

end InferenceGraph
