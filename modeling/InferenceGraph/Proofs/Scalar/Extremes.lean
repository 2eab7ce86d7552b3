import InferenceGraph.Proofs.Scalar.Value

/-!
# The larger and the smaller of two numbers

If one of two operands is a number, so are the larger and the smaller of them, and each is on its
side of that operand. So the smaller of the upper bound and the larger of the lower bound and anything
at all is a number between the bounds, as long as these are numbers in order.
-/

set_option autoImplicit false

namespace InferenceGraph.Scalar

variable {x y z a b : Float32}

protected theorem le_refl (hx : x.isNaN = false) : x ≤ x := (le_iff_place hx hx).2 (Int.le_refl _)

theorem le_of_not_lt (hx : x.isNaN = false) (hy : y.isNaN = false) (h : ¬ y < x) : x ≤ y := by
  rw [lt_iff_place hy hx] at h
  exact (le_iff_place hx hy).2 (Int.not_lt.1 h)

theorem le_iff_not_lt :
    a ≤ b ↔ a.isNaN = false ∧ b.isNaN = false ∧ ¬ b < a := by
  constructor
  · intro h
    obtain ⟨ha, hb⟩ := isNaN_of_le h
    refine ⟨ha, hb, fun hlt => ?_⟩
    rw [lt_iff_place hb ha] at hlt
    exact Int.not_lt.2 ((le_iff_place ha hb).1 h) hlt
  · rintro ⟨ha, hb, h⟩
    exact le_of_not_lt ha hb h

theorem le_max_right (x : Float32) (hy : y.isNaN = false) : y ≤ max x y := by
  unfold max
  cases hx : x.isNaN with
  | true => exact Scalar.le_refl hy
  | false =>
    simp only [hy, Bool.false_eq_true, if_false]
    split
    · exact Scalar.le_refl hy
    · next h => exact le_of_not_lt hy hx h

theorem min_le_right (x : Float32) (hy : y.isNaN = false) : min x y ≤ y := by
  unfold min
  cases hx : x.isNaN with
  | true => exact Scalar.le_refl hy
  | false =>
    simp only [hy, Bool.false_eq_true, if_false]
    split
    · exact Scalar.le_refl hy
    · next h => exact le_of_not_lt hx hy h

theorem min_cases (x y : Float32) : min x y = x ∨ min x y = y := by
  unfold min
  repeat' split
  all_goals simp

theorem le_min (hx : z ≤ x) (hy : z ≤ y) : z ≤ min x y := by
  rcases min_cases x y with h | h
  · rw [h]
    exact hx
  · rw [h]
    exact hy

/-- Whatever is clamped comes out between the bounds, also what is not a number. -/
theorem clamp_between (h : a ≤ b) (x : Float32) :
    a ≤ min (max x a) b ∧ min (max x a) b ≤ b := by
  obtain ⟨ha, hb⟩ := isNaN_of_le h
  exact ⟨le_min (le_max_right x ha) h, min_le_right _ hb⟩

end InferenceGraph.Scalar
