import InferenceGraph.GraphError

set_option autoImplicit false

namespace InferenceGraph

/-- How a location prediction is relative to its prior box. -/
inductive BoxCode where
  | corner | centerSize | cornerSize
  deriving DecidableEq, Repr

namespace BoxCode

def all : List BoxCode := [corner, centerSize, cornerSize]

def code : BoxCode → Int32
  | corner => 0
  | centerSize => 1
  | cornerSize => 2

def ofCode? (c : Int32) : Option BoxCode := all.find? fun b => b.code == c

def tag : BoxCode → String
  | corner => "Corner"
  | centerSize => "CenterSize"
  | cornerSize => "CornerSize"

@[simp] theorem ofCode?_code (b : BoxCode) : ofCode? b.code = some b := by cases b <;> rfl

theorem code_of_ofCode? {c : Int32} {b : BoxCode} (h : ofCode? c = some b) : b.code = c := by
  simpa using List.find?_some h

end BoxCode

structure DetectionParameters where
  classes : UInt32
  keep : UInt32
  /-- One location per prior for all classes, instead of one for each class. -/
  sharedLocation : Bool
  /-- The label that is never detected, `-1` if there is none. -/
  background : Int32
  overlapThreshold : Float32
  /-- How many candidates of a class are looked at, `-1` for all. -/
  candidates : Int32
  /-- The overlap threshold is multiplied by this after each kept box while it is above a half. -/
  decay : Float32
  boxCode : BoxCode
  /-- Otherwise the variances of the prior boxes scale the prediction. -/
  varianceInTarget : Bool
  scoreThreshold : Float32
  deriving DecidableEq

namespace DetectionParameters

def standard (classes keep : UInt32) : DetectionParameters where
  classes := classes
  keep := keep
  sharedLocation := true
  background := 0
  overlapThreshold := 0.3
  candidates := -1
  decay := 1
  boxCode := .corner
  varianceInTarget := false
  scoreThreshold := -Scalar.largest

def locationClasses (p : DetectionParameters) : Nat :=
  if p.sharedLocation then 1 else p.classes.toNat

def same (p q : DetectionParameters) : Bool :=
  p.classes = q.classes && p.keep = q.keep && p.sharedLocation = q.sharedLocation &&
    p.background = q.background && p.overlapThreshold == q.overlapThreshold &&
    p.candidates = q.candidates && p.decay == q.decay && p.boxCode = q.boxCode &&
    p.varianceInTarget = q.varianceInTarget && p.scoreThreshold == q.scoreThreshold

def text (p : DetectionParameters) : String :=
  Text.record "DetectionOutput"
    [("num_classes", Nat.repr p.classes.toNat), ("keep_top_k", Nat.repr p.keep.toNat),
      ("share_location", Text.bool p.sharedLocation),
      ("background_label_id", toString p.background.toInt),
      ("nms_threshold", Scalar.parameterText p.overlapThreshold),
      ("top_k", toString p.candidates.toInt), ("eta", Scalar.parameterText p.decay),
      ("code_type", p.boxCode.tag),
      ("variance_encoded_in_target", Text.bool p.varianceInTarget),
      ("confidence_threshold", Scalar.parameterText p.scoreThreshold)]

/-- The first parameter outside its range. The number of classes is compared as a signed word. -/
def check (p : DetectionParameters) : Except ParameterFault Unit :=
  if p.classes = 0 then .error .noClasses
  else if p.keep = 0 then .error .nothingKept
  else if p.background < -1 ∨ p.classes.toInt32 ≤ p.background then
    .error (.background p.background p.classes)
  else if ¬ (0 ≤ p.overlapThreshold ∧ p.overlapThreshold ≤ 1) then
    .error (.overlapThreshold p.overlapThreshold)
  else if p.candidates = 0 ∨ p.candidates < -1 then .error (.candidateLimit p.candidates)
  else if ¬ (0 < p.decay ∧ p.decay ≤ 1) then .error (.decay p.decay)
  else if p.scoreThreshold.isNaN then .error .scoreThreshold
  else .ok ()

/-- The values of a row: image, label, score and the four sides of the box. -/
def rowSize : Nat := 7

def outputLayout (p : DetectionParameters) (location confidence prior : Layout)
    (padding : Padding) : Except LayoutFault Layout :=
  if prior.size.batch ≠ 1 ∨ prior.size.feature ≠ 2 ∨ prior.size.y ≠ 1 ∨ prior.size.x % 4 ≠ 0 then
    .error (.priorBoxes prior.size)
  else
    let priors := prior.size.x / 4
    let images := location.size.batch
    let locations := priors * p.locationClasses * 4
    let confidences := priors * p.classes.toNat
    if images = 0 then .error (.noImages location.size)
    else if confidence.size.batch ≠ images then
      .error (.imageCounts images confidence.size.batch)
    else if location.size.perImage ≠ locations then
      .error (.locationCount location.size.perImage locations priors)
    else if confidence.size.perImage ≠ confidences then
      .error (.confidenceCount confidence.size.perImage confidences priors p.classes)
    else .ok ⟨location.type, .bfyx, ⟨1, 1, p.keep.toNat * images, rowSize⟩, padding⟩

end DetectionParameters

end InferenceGraph
