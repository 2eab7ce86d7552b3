import InferenceGraph.Detection.Suppression
import InferenceGraph.Proofs.Scalar.Zeros

/-!
# Overlap is mutual

How much two boxes overlap does not depend on which of them comes first, whatever their corners are:
inverted, infinite or not numbers. The common box has the same corners up to the sign of zero, and
nothing after it tells the two zeros apart, since only a positive area divides.
-/

set_option autoImplicit false

namespace InferenceGraph.Box

open Scalar

variable {a b : Box}

theorem apart_comm (a b : Box) : a.apart b = b.apart a := by
  simp only [apart, gt_iff_lt, Bool.or_assoc, Bool.or_comm, Bool.or_left_comm]

/-- The corners differ in nothing but the sign of a zero. -/
structure Alike (a b : Box) : Prop where
  xmin : Scalar.Alike a.xmin b.xmin
  ymin : Scalar.Alike a.ymin b.ymin
  xmax : Scalar.Alike a.xmax b.xmax
  ymax : Scalar.Alike a.ymax b.ymax

theorem alike_inter_comm (a b : Box) : Alike (a.inter b) (b.inter a) :=
  ⟨alike_max_comm _ _, alike_max_comm _ _, alike_min_comm _ _, alike_min_comm _ _⟩

theorem Alike.area (h : Alike a b) : Scalar.Alike a.area b.area := by
  unfold Box.area
  simp only [h.xmax.lt_iff h.xmin, h.ymax.lt_iff h.ymin]
  split
  · exact .refl 0
  · exact (h.xmax.sub h.xmin).mul (h.ymax.sub h.ymin)

theorem alike_iou_comm (a b : Box) : Scalar.Alike (a.iou b) (b.iou a) := by
  have hcommon := (alike_inter_comm a b).area
  have hcovered : Scalar.Alike (a.area + b.area - (a.inter b).area)
      (b.area + a.area - (b.inter a).area) :=
    (alike_add_comm a.area b.area).sub hcommon
  unfold iou
  rw [apart_comm a b]
  split
  · exact .refl 0
  simp only [← hcovered.le_iff (.refl 0)]
  split
  · exact .refl 0
  · next hpos => exact hcommon.div hcovered hpos

theorem iou_le_comm (a b : Box) (threshold : Float32) :
    a.iou b ≤ threshold ↔ b.iou a ≤ threshold :=
  (alike_iou_comm a b).le_iff (.refl threshold)

end InferenceGraph.Box

namespace InferenceGraph.DetectionParameters

theorem fits_comm (boxes : List Box) (threshold : Float32) (i j : Nat) :
    fits boxes threshold i [j] = fits boxes threshold j [i] := by
  unfold fits
  cases hi : boxes[i]? with
  | none => cases hj : boxes[j]? <;> rfl
  | some a =>
    cases hj : boxes[j]? with
    | none => rfl
    | some b =>
      change (if a.iou b ≤ threshold then _ else _) = if b.iou a ≤ threshold then _ else _
      rw [if_congr (Box.iou_le_comm a b threshold) rfl rfl]
      rfl

end InferenceGraph.DetectionParameters

namespace InferenceGraph.Box

/-- Two boxes overlap each other by the same number, or by what is not one for both; so either of
them is kept next to the other at the same thresholds. -/
theorem iou_comm :
    (∀ a b : Box,
      ((a.iou b == b.iou a) = true ∨ (a.iou b).isNaN = true ∧ (b.iou a).isNaN = true) ∧
        ∀ threshold, a.iou b ≤ threshold ↔ b.iou a ≤ threshold) ∧
      ∀ boxes threshold i j, DetectionParameters.fits boxes threshold i [j] =
        DetectionParameters.fits boxes threshold j [i] := by
  refine ⟨fun a b => ⟨?_, iou_le_comm a b⟩, DetectionParameters.fits_comm⟩
  have h := (alike_iou_comm a b).sameFill
  simpa [Scalar.sameFill] using h

end InferenceGraph.Box
