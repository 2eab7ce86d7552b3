import InferenceGraph.Detection.Suppression

set_option autoImplicit false

namespace InferenceGraph

/-- A box that was kept, with its class and score. -/
structure Detection where
  label : Nat
  score : Float32
  box : Box
  deriving DecidableEq

namespace DetectionParameters

def priorCount (prior : List Float32) : Nat := prior.length / 8

def decodedBox (p : DetectionParameters) (location prior : List Float32) (c k : Nat) :
    Outcome Box := do
  let priors := priorCount prior
  let box ← Outcome.get .outOfRange (Box.ofList? (prior.drop (k * 4)))
  let scales ← p.scales (prior.drop (priors * 4 + k * 4))
  let loc ← Outcome.get .outOfRange
    (Box.ofList? (location.drop ((k * p.locationClasses + c) * 4)))
  return p.decode box scales loc

def decodedClass (p : DetectionParameters) (location prior : List Float32) (c : Nat) :
    Outcome (List Box) :=
  (List.range (priorCount prior)).mapM fun k => p.decodedBox location prior c k

/-- Whether the label is the background, compared as a signed word. -/
def isBackground (p : DetectionParameters) (label : Nat) : Bool :=
  (UInt32.ofNat label).toInt32 = p.background

def labels (p : DetectionParameters) : List Nat :=
  (List.range p.classes.toNat).filter fun label => !p.isBackground label

def classScores (p : DetectionParameters) (confidence : List Float32) (priors label : Nat) :
    Outcome (List Float32) :=
  (List.range priors).mapM fun k =>
    Outcome.get .outOfRange confidence[k * p.classes.toNat + label]?

def classDetections (p : DetectionParameters) (boxes : List Box) (scores : List Float32)
    (label : Nat) : Outcome (List Detection) := do
  let kept ← p.survivors boxes scores
  kept.mapM fun k => do
    let score ← Outcome.get .outOfRange scores[k]?
    let box ← Outcome.get .outOfRange boxes[k]?
    return ⟨label, score, box⟩

def allDetections (p : DetectionParameters) (location confidence prior : List Float32) :
    Outcome (List Detection) := do
  let decoded ← (List.range p.locationClasses).mapM (p.decodedClass location prior)
  let perClass ← p.labels.mapM fun label => do
    let boxes ← Outcome.get .outOfRange decoded[if p.sharedLocation then 0 else label]?
    let scores ← p.classScores confidence (priorCount prior) label
    p.classDetections boxes scores label
  return perClass.flatten

/-- The best detections, by falling score, ties in the order found. -/
def best (p : DetectionParameters) (found : List Detection) : List Detection :=
  (found.mergeSort fun a b => scoreBefore a.score b.score).take p.keep.toNat

/-- The detections of an image. `prior` holds the prior boxes followed by their variances. -/
def detect (p : DetectionParameters) (location confidence prior : List Float32) :
    Outcome (List Detection) := do
  return p.best (← p.allDetections location confidence prior)

end DetectionParameters

end InferenceGraph
