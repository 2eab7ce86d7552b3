import InferenceGraph.Detection.Parameters
import InferenceGraph.Proofs.Scalar.Value

/-!
# The ranges of detection parameters

Which parameters are accepted, said of the numbers that they stand for. The check reads the number
of classes as a signed word. That makes no difference below `2^31`; a larger number is taken for a
negative one, which no label is below, so with so many classes every parameter is refused.
-/

set_option autoImplicit false

namespace InferenceGraph

theorem toInt_toInt32 (n : UInt32) :
    n.toInt32.toInt = if n.toNat < 2 ^ 31 then (n.toNat : Int) else n.toNat - 2 ^ 32 := by
  have h : n.toInt32.toInt = n.toBitVec.toInt := rfl
  rw [h, BitVec.toInt_eq_toNat_cond]
  change (if 2 * n.toNat < 2 ^ 32 then (n.toNat : Int) else n.toNat - (2 ^ 32 : Nat)) = _
  split <;> split <;> omega

theorem fault_eq_ok_iff {α : Type} {c : Prop} [Decidable c] {fault : α}
    {checks : Except α Unit} :
    (if c then .error fault else checks) = .ok () ↔ ¬ c ∧ checks = .ok () := by
  split <;> simp_all

namespace DetectionParameters

/-- The documented ranges. -/
structure InRange (p : DetectionParameters) : Prop where
  classes : 1 ≤ p.classes.toNat
  keep : 1 ≤ p.keep.toNat
  background_ge : -1 ≤ p.background.toInt
  background_lt : p.background.toInt < p.classes.toNat
  overlapThreshold : ∃ v, Scalar.value? p.overlapThreshold = some v ∧ 0 ≤ v ∧ v ≤ 1
  candidates : p.candidates.toInt = -1 ∨ 1 ≤ p.candidates.toInt
  decay : ∃ v, Scalar.value? p.decay = some v ∧ 0 < v ∧ v ≤ 1
  scoreThreshold : p.scoreThreshold.isNaN = false

theorem label_iff (n : UInt32) (label : Int32) :
    ¬ (label < -1 ∨ n.toInt32 ≤ label) ↔
      n.toNat < 2 ^ 31 ∧ -1 ≤ label.toInt ∧ label.toInt < n.toNat := by
  have hone : (-1 : Int32).toInt = -1 := rfl
  have hlt := n.toNat_lt
  rw [Int32.lt_iff_toInt_lt, Int32.le_iff_toInt_le, toInt_toInt32, hone]
  split <;> omega

theorem limit_iff (limit : Int32) :
    ¬ (limit = 0 ∨ limit < -1) ↔ limit.toInt = -1 ∨ 1 ≤ limit.toInt := by
  have hone : (-1 : Int32).toInt = -1 := rfl
  have hzero : (0 : Int32).toInt = 0 := rfl
  rw [Int32.lt_iff_toInt_lt, ← Int32.toInt_inj, hone, hzero]
  omega

theorem count_iff (n : UInt32) : ¬ n = 0 ↔ 1 ≤ n.toNat := by
  have hzero : (0 : UInt32).toNat = 0 := rfl
  rw [← UInt32.toNat_inj, hzero]
  omega

/-- Parameters are accepted exactly if they are in their ranges and the number of classes is none
that a signed word takes for a negative one. -/
theorem check_eq_ok_iff (p : DetectionParameters) :
    p.check = .ok () ↔ p.InRange ∧ p.classes.toNat < 2 ^ 31 := by
  have hlast : (if p.scoreThreshold.isNaN then Except.error ParameterFault.scoreThreshold
      else .ok ()) = .ok () ↔ p.scoreThreshold.isNaN = false := by
    rw [fault_eq_ok_iff, Bool.not_eq_true, and_iff_left rfl]
  rw [check, fault_eq_ok_iff, fault_eq_ok_iff, fault_eq_ok_iff, fault_eq_ok_iff, fault_eq_ok_iff,
    fault_eq_ok_iff, hlast, not_not, not_not, count_iff, count_iff, label_iff, limit_iff,
    Scalar.between_iff_value Scalar.value_zero Scalar.value_one,
    Scalar.above_iff_value Scalar.value_zero Scalar.value_one]
  constructor
  · rintro ⟨hclasses, hkeep, ⟨hlt, hge, hbelow⟩, hoverlap, hlimit, hdecay, hscore⟩
    exact ⟨⟨hclasses, hkeep, hge, hbelow, hoverlap, hlimit, hdecay, hscore⟩, hlt⟩
  · rintro ⟨h, hlt⟩
    exact ⟨h.classes, h.keep, ⟨hlt, h.background_ge, h.background_lt⟩, h.overlapThreshold,
      h.candidates, h.decay, h.scoreThreshold⟩

def manyClasses : DetectionParameters := { standard 0x80000000 1 with background := -1 }

/-- Parameters in their ranges are refused, with the report that a label that is none is no label
of so many classes. -/
theorem check_manyClasses : manyClasses.InRange ∧
    manyClasses.check = .error (.background (-1) 0x80000000) := by
  refine ⟨⟨by decide, by decide, by decide, by decide, ?_, by decide, ?_, by decide⟩, by rfl⟩
  · exact (Scalar.between_iff_value Scalar.value_zero Scalar.value_one).1 (by decide)
  · exact (Scalar.above_iff_value Scalar.value_zero Scalar.value_one).1 (by decide)

end DetectionParameters

end InferenceGraph
