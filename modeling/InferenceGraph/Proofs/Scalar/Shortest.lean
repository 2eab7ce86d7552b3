import InferenceGraph.Scalar.Decimal
import Mathlib.Algebra.Order.Field.Power
import Mathlib.Algebra.Order.Field.Rat
import Mathlib.Tactic.FieldSimp
import Mathlib.Tactic.NormNum
import Mathlib.Tactic.Ring

/-!
# Shortest decimals tell numbers apart

The rational numbers that round to a finite number lie between the middles to its neighbours, and a
middle itself rounds to the neighbour with the even mantissa. So no rational number rounds to two
numbers, and since the shortest decimal of a number rounds to it, two numbers never share one.
-/

set_option autoImplicit false

namespace InferenceGraph.Scalar

def Decimal.value (d : Decimal) : ℚ := d.digits * 10 ^ d.exponent

namespace Finite

variable {x y : Finite} {v : ℚ} {place : Int} {steps : Nat}

/-- What the bits of a finite number give: the leading bit of its mantissa is set, unless it has the
least exponent, and the gap below is narrow where the exponent changes. -/
structure Sound (x : Finite) : Prop where
  pos : 0 < x.mantissa
  lt : x.mantissa < 0x1000000
  least : -149 ≤ x.exponent
  leading : -149 < x.exponent → 0x800000 ≤ x.mantissa
  narrow : x.narrowBelow = true ↔ x.mantissa = 0x800000 ∧ -149 < x.exponent

/-- How far down the numbers reach that round to this one, in quarters of its last place. -/
def lowQuarters (x : Finite) : Nat := 4 * x.mantissa - if x.narrowBelow then 1 else 2

def low (x : Finite) : ℚ := x.lowQuarters * 2 ^ (x.exponent - 2)

def high (x : Finite) : ℚ := (4 * x.mantissa + 2 : Nat) * 2 ^ (x.exponent - 2)

/-- The rational number is rounded to this number. -/
structure Rounds (x : Finite) (v : ℚ) : Prop where
  low_le : x.low ≤ v
  le_high : v ≤ x.high
  even : v = x.low ∨ v = x.high → x.mantissa % 2 = 0

theorem low_eq {e : Int} (h : e ≤ y.exponent) :
    y.low = (y.lowQuarters * 2 ^ (y.exponent - e).toNat : Nat) * 2 ^ (e - 2) := by
  have he : y.exponent - 2 = ((y.exponent - e).toNat : Int) + (e - 2) := by omega
  rw [low, he, zpow_add₀ (by norm_num), zpow_natCast]
  push_cast
  ring

theorem Sound.lowQuarters_cases (hx : x.Sound) :
    (x.mantissa = 0x800000 ∧ -149 < x.exponent) ∧ x.lowQuarters = 4 * x.mantissa - 1 ∨
      ¬ (x.mantissa = 0x800000 ∧ -149 < x.exponent) ∧ x.lowQuarters = 4 * x.mantissa - 2 := by
  rw [← hx.narrow, lowQuarters]
  cases x.narrowBelow <;> simp

/-- Between two numbers there is at most one middle, and one of them is odd if there is. -/
theorem Sound.quarters_le (hx : x.Sound) (hy : y.Sound) (he : x.exponent ≤ y.exponent)
    (hm : x.exponent = y.exponent → x.mantissa < y.mantissa) :
    4 * x.mantissa + 2 ≤ y.lowQuarters * 2 ^ (y.exponent - x.exponent).toNat ∧
      (4 * x.mantissa + 2 = y.lowQuarters * 2 ^ (y.exponent - x.exponent).toNat →
        x.mantissa % 2 = 1 ∨ y.mantissa % 2 = 1) := by
  have hlt := hx.lt
  have hleast := hx.least
  have hquarters := hy.lowQuarters_cases
  rcases he.eq_or_lt with heq | hlower
  · have hm := hm heq
    have hleading := hx.leading
    rw [heq, Int.sub_self, Int.toNat_zero, Nat.pow_zero, Nat.mul_one]
    omega
  · have hleading := hy.leading (by omega)
    obtain ⟨k, hk⟩ : ∃ k, (y.exponent - x.exponent).toNat = k + 1 :=
      Nat.exists_eq_succ_of_ne_zero (by omega)
    have hpow : 0 < 2 ^ k := Nat.two_pow_pos k
    rw [hk, Nat.pow_succ]
    have hstep : y.lowQuarters * 2 ≤ y.lowQuarters * (2 ^ k * 2) :=
      Nat.mul_le_mul_left _ (by omega)
    omega

theorem Sound.high_le_low (hx : x.Sound) (hy : y.Sound) (he : x.exponent ≤ y.exponent)
    (hm : x.exponent = y.exponent → x.mantissa < y.mantissa) :
    x.high ≤ y.low ∧ (x.high = y.low → x.mantissa % 2 = 1 ∨ y.mantissa % 2 = 1) := by
  obtain ⟨hle, hodd⟩ := hx.quarters_le hy he hm
  have hunit : (0 : ℚ) < 2 ^ (x.exponent - 2) := zpow_pos (by norm_num) _
  rw [high, low_eq he]
  constructor
  · exact mul_le_mul_of_nonneg_right (by exact_mod_cast hle) hunit.le
  · exact fun h => hodd (by exact_mod_cast mul_right_cancel₀ hunit.ne' h)

theorem Rounds.not_of_lt (hx : x.Sound) (hy : y.Sound) (he : x.exponent ≤ y.exponent)
    (hm : x.exponent = y.exponent → x.mantissa < y.mantissa) (h : x.Rounds v) : ¬ y.Rounds v := by
  intro h'
  obtain ⟨hle, hodd⟩ := hx.high_le_low hy he hm
  have hhigh : v = x.high := le_antisymm h.le_high (hle.trans h'.low_le)
  have hlow : v = y.low := le_antisymm (h.le_high.trans hle) h'.low_le
  have hxe := h.even (.inr hhigh)
  have hye := h'.even (.inl hlow)
  rcases hodd (hhigh.symm.trans hlow) with ho | ho <;> omega

theorem Rounds.unique (hx : x.Sound) (hy : y.Sound) (h : x.Rounds v) (h' : y.Rounds v) : x = y := by
  have hexp : x.exponent = y.exponent := by
    rcases lt_trichotomy x.exponent y.exponent with hlt | heq | hgt
    · exact absurd h' (h.not_of_lt hx hy hlt.le fun he => absurd he hlt.ne)
    · exact heq
    · exact absurd h (h'.not_of_lt hy hx hgt.le fun he => absurd he hgt.ne)
  have hman : x.mantissa = y.mantissa := by
    rcases lt_trichotomy x.mantissa y.mantissa with hlt | heq | hgt
    · exact absurd h' (h.not_of_lt hx hy hexp.le fun _ => hlt)
    · exact heq
    · exact absurd h (h'.not_of_lt hy hx hexp.ge fun _ => hgt)
  have hnarrow : x.narrowBelow = y.narrowBelow := by
    rw [Bool.eq_iff_iff, hx.narrow, hy.narrow, hexp, hman]
  cases x
  cases y
  simp_all

theorem Sound.low_pos (hx : x.Sound) : 0 < x.low := by
  have hpos := hx.pos
  have hquarters : 0 < x.lowQuarters := by
    have hcases := hx.lowQuarters_cases
    omega
  exact mul_pos (by exact_mod_cast hquarters) (zpow_pos (by norm_num) _)

theorem pow_toNat {b : ℚ} (hb : b ≠ 0) (z : Int) : b ^ z.toNat = b ^ z * b ^ (-z).toNat := by
  rcases Int.le_total 0 z with h | h
  · obtain ⟨n, rfl⟩ := Int.eq_ofNat_of_zero_le h
    simp
  · obtain ⟨n, hn⟩ := Int.eq_ofNat_of_zero_le (Int.neg_nonneg_of_nonpos h)
    obtain rfl : z = -n := by omega
    simp [hb]

theorem exists_unit (x : Finite) (place : Int) : ∃ c : ℚ, 0 < c ∧
    ((x.scaled place).low : ℚ) = x.low * c ∧ ((x.scaled place).high : ℚ) = x.high * c ∧
      ((x.scaled place).unit : ℚ) = 10 ^ place * c := by
  have htwo := pow_toNat (b := 2) (by norm_num) (x.exponent - 2)
  have hten := pow_toNat (b := 10) (by norm_num) place
  rw [neg_sub] at htwo
  refine ⟨2 ^ (2 - x.exponent).toNat * 10 ^ (-place).toNat, by positivity, ?_, ?_, ?_⟩
  · simp only [scaled, low, lowQuarters, Nat.pow_eq, Nat.cast_mul, Nat.cast_pow, Nat.cast_ofNat,
      htwo]
    ring
  · simp only [scaled, high, Nat.pow_eq, Nat.cast_mul, Nat.cast_pow, Nat.cast_ofNat, htwo]
    ring
  · simp only [scaled, Nat.pow_eq, Nat.cast_mul, Nat.cast_pow, Nat.cast_ofNat, hten]
    ring

theorem rounds_of_contains (h : (x.scaled place).contains steps = true) :
    x.Rounds (steps * 10 ^ place) := by
  obtain ⟨c, hc, hlow, hhigh, hunit⟩ := x.exists_unit place
  have hclosed : (x.scaled place).closed = decide (x.mantissa % 2 = 0) := rfl
  have hsteps : ((steps * (x.scaled place).unit : Nat) : ℚ) = steps * 10 ^ place * c := by
    rw [Nat.cast_mul, hunit, mul_assoc]
  unfold Scaled.contains at h
  rw [hclosed] at h
  simp only [decide_eq_true_eq] at h
  split at h
  · next heven =>
    simp only [Bool.and_eq_true, decide_eq_true_eq] at h
    have hle : ((x.scaled place).low : ℚ) ≤ _ := Nat.cast_le.2 h.1
    have hge : _ ≤ ((x.scaled place).high : ℚ) := Nat.cast_le.2 h.2
    rw [hlow, hsteps] at hle
    rw [hhigh, hsteps] at hge
    exact ⟨le_of_mul_le_mul_right hle hc, le_of_mul_le_mul_right hge hc, fun _ => heven⟩
  · simp only [Bool.and_eq_true, decide_eq_true_eq] at h
    have hlt : ((x.scaled place).low : ℚ) < _ := Nat.cast_lt.2 h.1
    have hgt : _ < ((x.scaled place).high : ℚ) := Nat.cast_lt.2 h.2
    rw [hlow, hsteps] at hlt
    rw [hhigh, hsteps] at hgt
    have hlt := lt_of_mul_lt_mul_right hlt hc.le
    have hgt := lt_of_mul_lt_mul_right hgt hc.le
    exact ⟨hlt.le, hgt.le, fun h => absurd h (by rintro (h | h) <;> simp [h] at hlt hgt)⟩

/-- Every number is a multiple of the last power of ten, so the last grid has a hit. -/
theorem Sound.isSome_nearest (hx : x.Sound) : ((x.scaled (-149)).nearest?).isSome = true := by
  have hpos := hx.pos
  have hleast := hx.least
  have hup : 0 < Nat.pow 2 (x.exponent - 2).toNat * Nat.pow 10 149 :=
    Nat.mul_pos (Nat.two_pow_pos _) (Nat.pow_pos (by decide))
  have hdvd : (x.scaled (-149)).unit ∣ (x.scaled (-149)).value := by
    have hpow : 2 ^ (2 - x.exponent).toNat ∣ 2 ^ 151 := Nat.pow_dvd_pow 2 (by omega)
    have hten : 2 ^ 151 ∣ 4 * 10 ^ 149 := Dvd.intro (5 ^ 149) (by norm_num)
    change 2 ^ (2 - x.exponent).toNat * 1 ∣
      4 * x.mantissa * (2 ^ (x.exponent - 2).toNat * 10 ^ 149)
    rw [Nat.mul_one]
    refine (hpow.trans hten).trans ⟨x.mantissa * 2 ^ (x.exponent - 2).toNat, by ring⟩
  have hvalue : 0 < (x.scaled (-149)).value := Nat.mul_pos (by omega) hup
  have hlow : (x.scaled (-149)).low < (x.scaled (-149)).value :=
    Nat.mul_lt_mul_of_pos_right (by split <;> omega) hup
  have hhigh : (x.scaled (-149)).value < (x.scaled (-149)).high :=
    Nat.mul_lt_mul_of_pos_right (by omega) hup
  generalize x.scaled (-149) = s at hdvd hvalue hlow hhigh
  have hquotient : s.value / s.unit * s.unit = s.value := Nat.div_mul_cancel hdvd
  have hbelow : 0 < s.value / s.unit := by
    rcases Nat.eq_zero_or_pos (s.value / s.unit) with h | h
    · rw [h] at hquotient
      omega
    · exact h
  have hcontains : s.contains (s.value / s.unit) = true := by
    unfold Scaled.contains
    rw [hquotient]
    split <;> simp <;> omega
  unfold Scaled.nearest?
  simp only [hbelow, hcontains, decide_true, Bool.and_self, Bool.true_and, if_true]
  split
  · split <;> rfl
  · rfl

-- Stated of the function, not of its value at a number, where checking it would search the grids.
theorem shortest_eq : shortest = fun x => match places.findSome?
      fun place => ((x.scaled place).nearest?).map (⟨·, place⟩) with
    | some d => d
    | none => ⟨0, 0⟩ := rfl

theorem last_mem_places : -149 ∈ places :=
  List.mem_map.2 ⟨188, List.mem_range.2 (by decide), by decide⟩

/-- The shortest decimal of a number rounds to it. -/
theorem Sound.rounds_shortest (hx : x.Sound) : x.Rounds x.shortest.value := by
  obtain ⟨d, hd⟩ : ∃ d : Decimal, places.findSome?
      (fun place => ((x.scaled place).nearest?).map (⟨·, place⟩)) = some d := by
    refine Option.isSome_iff_exists.1 (List.findSome?_isSome_iff.2 ⟨-149, last_mem_places, ?_⟩)
    rw [Option.isSome_map]
    exact hx.isSome_nearest
  obtain ⟨place, -, hplace⟩ := List.exists_of_findSome?_eq_some hd
  obtain ⟨steps, hsteps, rfl⟩ := Option.map_eq_some_iff.1 hplace
  rw [shortest_eq]
  dsimp only
  rw [hd]
  exact rounds_of_contains (Scaled.contains_of_nearest? hsteps)

end Finite

end InferenceGraph.Scalar
