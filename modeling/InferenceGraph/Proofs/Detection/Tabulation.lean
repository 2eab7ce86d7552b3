import InferenceGraph.Detection.Table
import InferenceGraph.Proofs.Sequence

set_option autoImplicit false

namespace InferenceGraph.DetectionParameters

/-- The values of one of several images of the same size. -/
def ofImage (values : List Float32) (images image : Nat) : List Float32 :=
  values.extract (image * (values.length / images)) ((image + 1) * (values.length / images))

def rowOf (image : Nat) : Option Detection → List Float32
  | some d => [Float32.ofNat image, Float32.ofNat d.label, d.score,
      d.box.xmin, d.box.ymin, d.box.xmax, d.box.ymax]
  | none => [-1, 0, 0, 0, 0, 0, 0]

def rowsOf (p : DetectionParameters) (image : Nat) (found : List Detection) :
    List (List Float32) :=
  (List.range p.keep.toNat).map fun j => rowOf image found[j]?

/-- The table said at once: for each image as many rows as are kept, and in the first of them what
is found in the values of the image. -/
def tabulation (p : DetectionParameters) (images : Nat) (location confidence prior : List Float32) :
    Option (List Float32) := do
  let blocks ← (List.range images).mapM fun image => do
    let found ← (p.detect (ofImage location images image) (ofImage confidence images image)
      prior).toOption
    return (p.rowsOf image found).flatten
  return blocks.flatten

theorem imagePart_eq (values : List Float32) (images image : Nat) :
    imagePart values images image = ofImage values images image := by
  rw [imagePart, ofImage, List.extract_eq_take_drop, Nat.succ_mul, Nat.add_sub_cancel_left]

theorem block_eq (p : DetectionParameters) (image : Nat) (found : List Detection) :
    p.block image found = p.rowsOf image found := by
  have hrows : ((found.map fun d => d.row image).take p.keep.toNat).length =
      min p.keep.toNat found.length := by
    rw [List.length_take, List.length_map]
  refine List.ext_getElem (by simp [rowsOf]) fun j hj hj' => ?_
  have hkeep : j < p.keep.toNat := by simpa using hj
  simp only [block, rowsOf, List.getElem_map, List.getElem_range]
  by_cases hfound : j < found.length
  · rw [List.getElem_append_left (by omega), List.getElem_take, List.getElem_map,
      List.getElem?_eq_getElem hfound]
    rfl
  · rw [List.getElem_append_right (by omega), List.getElem_replicate,
      List.getElem?_eq_none (by omega)]
    rfl

theorem table_eq_ok_iff {p : DetectionParameters} {images : Nat}
    {location confidence prior values : List Float32} (hi : images ≠ 0) :
    p.table images location confidence prior = .ok values ↔
      p.tabulation images location confidence prior = some values := by
  rw [table, if_neg hi, tabulation, bind_eq_ok_iff, Option.bind_eq_bind, Option.bind_eq_some_iff]
  refine exists_congr fun blocks => and_congr ?_ (by simp)
  rw [mapM_option_eq_some_iff]
  refine mapM_eq_ok_iff_of_option fun image rows => ?_
  simp only [imagePart_eq, block_eq, bind_eq_ok_iff, Option.bind_eq_bind, Option.bind_eq_some_iff,
    toOption_eq_some_iff, pure_eq_ok, Except.ok.injEq, Option.pure_def, Option.some.injEq]

end InferenceGraph.DetectionParameters
