import InferenceGraph.Detection.Image

/-!
# The detection table

Every image has a block of `keep` rows: one for each detection, the rest marked as empty. A row
begins with the number of its image, an empty one with `-1`.
-/

set_option autoImplicit false

namespace InferenceGraph

def emptyRow : List Float32 := [-1, 0, 0, 0, 0, 0, 0]

def Detection.row (d : Detection) (image : Nat) : List Float32 :=
  [Scalar.ofNat image, Scalar.ofNat d.label, d.score, d.box.xmin, d.box.ymin, d.box.xmax,
    d.box.ymax]

namespace DetectionParameters

def block (p : DetectionParameters) (image : Nat) (found : List Detection) : List (List Float32) :=
  let rows := (found.map fun d => d.row image).take p.keep.toNat
  rows ++ List.replicate (p.keep.toNat - rows.length) emptyRow

@[simp] theorem length_block (p : DetectionParameters) (image : Nat) (found : List Detection) :
    (p.block image found).length = p.keep.toNat := by
  simp only [block, List.length_append, List.length_replicate, List.length_take, List.length_map]
  omega

def imagePart (values : List Float32) (images image : Nat) : List Float32 :=
  let size := values.length / images
  (values.drop (image * size)).take size

def table (p : DetectionParameters) (images : Nat) (location confidence prior : List Float32) :
    Outcome (List Float32) := do
  if images = 0 then .breach .divisionByZero
  else
    let blocks ← (List.range images).mapM fun image => do
      let found ← p.detect (imagePart location images image) (imagePart confidence images image)
        prior
      return (p.block image found).flatten
    return blocks.flatten

end DetectionParameters

end InferenceGraph
