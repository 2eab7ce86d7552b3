import InferenceGraph.Proofs.Scalar
import Mathlib.Algebra.Order.Field.Power
import Mathlib.Algebra.Order.Field.Rat
import Mathlib.Order.Monotone.Odd
import Mathlib.Order.SuccPred.Archimedean
import Mathlib.Tactic.NormNum

set_option autoImplicit false

namespace InferenceGraph.Scalar

open Float.Model Float.Model.UnpackedFloat

def valueOf? : UnpackedFloat → Option ℚ
  | .zero _ => some 0
  | .finite s m e _ => some (s.apply m * 2 ^ e)
  | .infinity _ => none
  | .notANumber => none

def value? (x : Float32) : Option ℚ := valueOf? x.toModel.unpack

def magnitude (w : Nat) : ℚ :=
  if w < 0x800000 then w * 2 ^ (-149 : ℤ)
  else (0x800000 + w % 0x800000 : Nat) * 2 ^ ((w / 0x800000 : Nat) - 150 : ℤ)

theorem Decodes.magnitude_eq {w m : Nat} {e : Int} (h : Decodes w m e) :
    magnitude w = m * 2 ^ e := by
  obtain ⟨-, -, ⟨hw, rfl, rfl⟩ | ⟨hw, rfl, rfl⟩⟩ := h
  · rw [magnitude, if_pos hw]
  · rw [magnitude, if_neg (by omega)]

theorem magnitude_zero : magnitude 0 = 0 := by simp [magnitude]

theorem scaled_lt {m m' : Nat} {e e' : Int} (h : e' = e ∧ m < m' ∨ e' = e + 1 ∧ m < 2 * m') :
    (m : ℚ) * 2 ^ e < m' * 2 ^ e' := by
  have hpos : (0 : ℚ) < 2 ^ e := zpow_pos (by norm_num) e
  rcases h with ⟨rfl, hm⟩ | ⟨rfl, hm⟩
  · exact mul_lt_mul_of_pos_right (by exact_mod_cast hm) hpos
  · rw [zpow_add_one₀ (by norm_num), mul_comm (2 ^ e : ℚ), ← mul_assoc]
    exact mul_lt_mul_of_pos_right (by rw [mul_comm]; exact_mod_cast hm) hpos

theorem strictMono_magnitude : StrictMono magnitude := by
  refine strictMono_nat_of_lt_succ fun w => ?_
  unfold magnitude
  by_cases hw : w < 0x800000
  · rw [if_pos hw]
    split
    · exact scaled_lt (.inl ⟨rfl, by omega⟩)
    · exact scaled_lt (.inl ⟨by omega, by omega⟩)
  · rw [if_neg hw, if_neg (by omega)]
    refine scaled_lt ?_
    omega

/-- The value of a number by its place. -/
def spread (i : Int) : ℚ := i.sign * magnitude i.natAbs

theorem spread_neg (i : Int) : spread (-i) = -spread i := by simp [spread]

theorem spread_natCast (w : Nat) : spread w = magnitude w := by
  rw [spread, Int.natAbs_natCast]
  cases w with
  | zero => simp [magnitude_zero]
  | succ w => simp [Int.sign_natCast_add_one]

theorem spread_lt_iff (i j : Int) : spread i < spread j ↔ i < j := by
  have hmono : StrictMono spread := by
    refine strictMono_of_odd_strictMonoOn_nonneg spread_neg fun i hi j hj hlt => ?_
    obtain ⟨v, rfl⟩ := Int.eq_ofNat_of_zero_le hi
    obtain ⟨w, rfl⟩ := Int.eq_ofNat_of_zero_le hj
    rw [spread_natCast, spread_natCast]
    exact strictMono_magnitude (Int.ofNat_lt.1 hlt)
  exact hmono.lt_iff_lt

theorem spread_le_iff (i j : Int) : spread i ≤ spread j ↔ i ≤ j := by
  rw [← Rat.not_lt, spread_lt_iff, Int.not_lt]

theorem At.value_eq {u : UnpackedFloat} {i : Int} {a : ℚ} (h : At u i)
    (ha : valueOf? u = some a) : a = spread i := by
  cases h with
  | zero s =>
    cases ha
    simp [spread]
  | infinity s => cases ha
  | finite s m e pos w h =>
    cases ha
    cases s with
    | positive => simp [Sign.apply, spread_natCast, h.magnitude_eq]
    | negative => simp [Sign.apply, spread_neg, spread_natCast, h.magnitude_eq]

theorem At.exists_value_iff {u : UnpackedFloat} {i : Int} (h : At u i) :
    (∃ a, valueOf? u = some a) ↔ -0x7f800000 < i ∧ i < 0x7f800000 := by
  cases h with
  | zero s => exact ⟨fun _ => by omega, fun _ => ⟨0, rfl⟩⟩
  | infinity s =>
    refine ⟨fun ⟨a, ha⟩ => (by cases ha), fun hi => ?_⟩
    cases s <;> simp [Sign.apply] at hi
  | finite s m e pos w h =>
    obtain ⟨hw, hw', -⟩ := h
    refine ⟨fun _ => ?_, fun _ => ⟨_, rfl⟩⟩
    cases s <;> simp only [Sign.apply] <;> omega

variable {x y low high : Float32} {a b : ℚ}

theorem isNaN_of_value (ha : value? x = some a) : x.isNaN = false := by
  change x.toModel.unpack.isNaN = false
  unfold value? at ha
  cases hx : x.toModel.unpack with
  | notANumber =>
    rw [hx] at ha
    cases ha
  | _ => rfl

theorem at_place (hx : x.isNaN = false) : At x.toModel.unpack (place x) := by
  rw [place_eq rfl]
  exact at_unpack _ hx

theorem spread_place (ha : value? x = some a) : spread (place x) = a :=
  ((at_place (isNaN_of_value ha)).value_eq ha).symm

theorem le_iff_value_le (ha : value? x = some a) (hb : value? y = some b) : x ≤ y ↔ a ≤ b := by
  rw [le_iff_place (isNaN_of_value ha) (isNaN_of_value hb), ← spread_place ha, ← spread_place hb,
    spread_le_iff]

theorem lt_iff_place (hx : x.isNaN = false) (hy : y.isNaN = false) :
    x < y ↔ place x < place y := by
  rw [lt_iff_compare, compare_eq hx hy, Option.some.injEq, compare_lt_iff_lt]

theorem lt_iff_value_lt (ha : value? x = some a) (hb : value? y = some b) : x < y ↔ a < b := by
  rw [lt_iff_place (isNaN_of_value ha) (isNaN_of_value hb), ← spread_place ha, ← spread_place hb,
    spread_lt_iff]

theorem isNaN_of_le (h : x ≤ y) : x.isNaN = false ∧ y.isNaN = false := by
  obtain ⟨o, ho, -⟩ := le_iff_compare.1 h
  exact isNaN_of_compare ho

theorem exists_value_of_between (ha : value? low = some a) (hb : value? high = some b)
    (hlow : low ≤ x) (hhigh : x ≤ high) : ∃ v, value? x = some v := by
  have hx := (isNaN_of_le hlow).2
  have hl := isNaN_of_value ha
  have hh := isNaN_of_value hb
  have hlow := (le_iff_place hl hx).1 hlow
  have hhigh := (le_iff_place hx hh).1 hhigh
  have hfrom := (at_place hl).exists_value_iff.1 ⟨a, ha⟩
  have hto := (at_place hh).exists_value_iff.1 ⟨b, hb⟩
  exact (at_place hx).exists_value_iff.2 (by omega)

theorem between_iff_value (ha : value? low = some a) (hb : value? high = some b) :
    low ≤ x ∧ x ≤ high ↔ ∃ v, value? x = some v ∧ a ≤ v ∧ v ≤ b := by
  constructor
  · rintro ⟨hlow, hhigh⟩
    obtain ⟨v, hv⟩ := exists_value_of_between ha hb hlow hhigh
    exact ⟨v, hv, (le_iff_value_le ha hv).1 hlow, (le_iff_value_le hv hb).1 hhigh⟩
  · rintro ⟨v, hv, hlow, hhigh⟩
    exact ⟨(le_iff_value_le ha hv).2 hlow, (le_iff_value_le hv hb).2 hhigh⟩

protected theorem le_of_lt (h : x < y) : x ≤ y := by
  obtain ⟨hx, hy⟩ := isNaN_of_lt h
  exact (le_iff_place hx hy).2 (Int.le_of_lt ((lt_iff_place hx hy).1 h))

theorem above_iff_value (ha : value? low = some a) (hb : value? high = some b) :
    low < x ∧ x ≤ high ↔ ∃ v, value? x = some v ∧ a < v ∧ v ≤ b := by
  constructor
  · rintro ⟨hlow, hhigh⟩
    obtain ⟨v, hv⟩ := exists_value_of_between ha hb (Scalar.le_of_lt hlow) hhigh
    exact ⟨v, hv, (lt_iff_value_lt ha hv).1 hlow, (le_iff_value_le hv hb).1 hhigh⟩
  · rintro ⟨v, hv, hlow, hhigh⟩
    exact ⟨(lt_iff_value_lt ha hv).2 hlow, (le_iff_value_le hv hb).2 hhigh⟩

theorem value_zero : value? 0 = some 0 := rfl

theorem value_one : value? 1 = some 1 := by
  change some ((0x800000 : Int) * 2 ^ (-23 : ℤ) : ℚ) = some 1
  norm_num

end InferenceGraph.Scalar
