import InferenceGraph.Detection.Parameters

/-!
# Boxes

Boxes with sides parallel to the axes, how much two of them overlap, and how a prediction moves a
prior box. Every formula is evaluated as written, one rounding per operation.
-/

set_option autoImplicit false

namespace InferenceGraph

structure Box where
  xmin : Float32
  ymin : Float32
  xmax : Float32
  ymax : Float32
  deriving DecidableEq

namespace Box

def ofList? : List Float32 → Option Box
  | xmin :: ymin :: xmax :: ymax :: _ => some ⟨xmin, ymin, xmax, ymax⟩
  | _ => none

def toList (b : Box) : List Float32 := [b.xmin, b.ymin, b.xmax, b.ymax]

@[simp] theorem ofList?_toList (b : Box) (rest : List Float32) :
    ofList? (b.toList ++ rest) = some b := rfl

def width (b : Box) : Float32 := b.xmax - b.xmin

def height (b : Box) : Float32 := b.ymax - b.ymin

/-- An inverted box has no area. -/
def area (b : Box) : Float32 :=
  if b.xmax < b.xmin ∨ b.ymax < b.ymin then 0 else b.width * b.height

def apart (a b : Box) : Bool :=
  b.xmin > a.xmax || b.xmax < a.xmin || b.ymin > a.ymax || b.ymax < a.ymin

def inter (a b : Box) : Box :=
  ⟨Scalar.max a.xmin b.xmin, Scalar.max a.ymin b.ymin,
    Scalar.min a.xmax b.xmax, Scalar.min a.ymax b.ymax⟩

def iou (a b : Box) : Float32 :=
  if a.apart b then 0
  else
    let common := (a.inter b).area
    let covered := a.area + b.area - common
    if covered ≤ 0 then 0 else common / covered

end Box

structure Scales where
  xmin : Float32
  ymin : Float32
  xmax : Float32
  ymax : Float32
  deriving DecidableEq

def Scales.one : Scales := ⟨1, 1, 1, 1⟩

namespace DetectionParameters

/-- The factors for a prior box: its variances, unless they are already part of the prediction. -/
def scales (p : DetectionParameters) (variances : List Float32) : Outcome Scales :=
  if p.varianceInTarget then .ok .one
  else match variances with
    | x :: y :: w :: h :: _ => .ok ⟨x, y, w, h⟩
    | _ => .breach .outOfRange

/-- The box that a prediction stands for, relative to its prior box. -/
def decode (p : DetectionParameters) (prior : Box) (s : Scales) (loc : Box) : Box :=
  match p.boxCode with
  | .corner =>
    ⟨prior.xmin + s.xmin * loc.xmin, prior.ymin + s.ymin * loc.ymin,
      prior.xmax + s.xmax * loc.xmax, prior.ymax + s.ymax * loc.ymax⟩
  | .centerSize =>
    let cx := s.xmin * loc.xmin * prior.width + (prior.xmin + prior.xmax) / 2
    let cy := s.ymin * loc.ymin * prior.height + (prior.ymin + prior.ymax) / 2
    let w := (s.xmax * loc.xmax).exp * prior.width
    let h := (s.ymax * loc.ymax).exp * prior.height
    ⟨cx - w / 2, cy - h / 2, cx + w / 2, cy + h / 2⟩
  | .cornerSize =>
    ⟨prior.xmin + s.xmin * loc.xmin * prior.width, prior.ymin + s.ymin * loc.ymin * prior.height,
      prior.xmax + s.xmax * loc.xmax * prior.width, prior.ymax + s.ymax * loc.ymax * prior.height⟩

end DetectionParameters

end InferenceGraph
