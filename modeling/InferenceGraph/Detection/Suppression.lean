import InferenceGraph.Detection.Box

/-!
# Suppression of overlapping boxes

Candidates of one class are visited from the best score downwards. A candidate is kept if it
overlaps none of the boxes kept before it by more than the threshold, which may fall with every
kept box.
-/

set_option autoImplicit false

namespace InferenceGraph.DetectionParameters

def scoreBefore (a b : Float32) : Bool := Scalar.rank b ≤ Scalar.rank a

/-- The indices of the scores above the threshold, the best first, equal scores in the order of
their indices, cut to the number of candidates asked for. -/
def ranking (p : DetectionParameters) (scores : List Float32) : List Nat :=
  let above := scores.zipIdx.filter fun (score, _) => score > p.scoreThreshold
  let sorted := (above.mergeSort fun a b => scoreBefore a.1 b.1).map Prod.snd
  if p.candidates > -1 then sorted.take p.candidates.toInt.toNat else sorted

def lowered (p : DetectionParameters) (threshold : Float32) : Float32 :=
  if p.decay < 1 ∧ threshold > 0.5 then threshold * p.decay else threshold

/-- Whether a candidate overlaps none of the kept boxes too much. The kept boxes are compared in
order, and the first that is overlapped too much decides. -/
def fits (boxes : List Box) (threshold : Float32) (candidate : Nat) : List Nat → Outcome Bool
  | [] => .ok true
  | k :: kept => do
    let box ← Outcome.get .outOfRange boxes[candidate]?
    let other ← Outcome.get .outOfRange boxes[k]?
    if box.iou other ≤ threshold then fits boxes threshold candidate kept else .ok false

def suppress (p : DetectionParameters) (boxes : List Box) (threshold : Float32) (kept : List Nat) :
    List Nat → Outcome (List Nat)
  | [] => .ok kept
  | candidate :: rest => do
    if ← fits boxes threshold candidate kept then
      p.suppress boxes (p.lowered threshold) (kept ++ [candidate]) rest
    else
      p.suppress boxes threshold kept rest

def survivors (p : DetectionParameters) (boxes : List Box) (scores : List Float32) :
    Outcome (List Nat) :=
  p.suppress boxes p.overlapThreshold [] (p.ranking scores)

end InferenceGraph.DetectionParameters
