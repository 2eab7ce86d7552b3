import InferenceGraph.Scalar
import Mathlib.Algebra.Order.Ring.Int
import Mathlib.Order.Compare

set_option autoImplicit false

namespace InferenceGraph.Scalar

open Float.Model Float.Model.UnpackedFloat

/-- The mantissa and the exponent of a finite number other than zero, by its bits without the
sign. Below `0x800000` the bits have no exponent of their own. -/
def Decodes (w m : Nat) (e : Int) : Prop :=
  0 < w ∧ w < 0x7f800000 ∧
    (w < 0x800000 ∧ m = w ∧ e = -149 ∨
      0x800000 ≤ w ∧ m = 0x800000 + w % 0x800000 ∧ e = (w / 0x800000 : Nat) - 150)

theorem Decodes.lt {w w' m m' : Nat} {e e' : Int} (h : Decodes w m e) (h' : Decodes w' m' e')
    (hlt : w < w') : e < e' ∨ e = e' ∧ m < m' := by
  obtain ⟨-, -, h⟩ := h
  obtain ⟨-, -, h'⟩ := h'
  omega

theorem Decodes.compare_eq {w w' m m' : Nat} {e e' : Int} (h : Decodes w m e)
    (h' : Decodes w' m' e') : (compare e e').then (compare m m') = compare (w : Int) w' := by
  rcases lt_trichotomy w w' with hlt | rfl | hgt
  · rw [compare_lt_iff_lt.2 (Int.ofNat_lt.2 hlt)]
    rcases h.lt h' hlt with he | ⟨rfl, hm⟩
    · rw [compare_lt_iff_lt.2 he]
      rfl
    · rw [compare_eq_iff_eq.2 rfl, compare_lt_iff_lt.2 hm]
      rfl
  · obtain ⟨rfl, rfl⟩ : e = e' ∧ m = m' := by
      obtain ⟨-, -, h⟩ := h
      obtain ⟨-, -, h'⟩ := h'
      omega
    simp
  · rw [compare_gt_iff_gt.2 (Int.ofNat_lt.2 hgt)]
    rcases h'.lt h hgt with he | ⟨rfl, hm⟩
    · rw [compare_gt_iff_gt.2 he]
      rfl
    · rw [compare_eq_iff_eq.2 rfl, compare_gt_iff_gt.2 hm]
      rfl

theorem compare_neg (i j : Int) : compare (-i) (-j) = (compare i j).swap := by
  rcases lt_trichotomy i j with h | rfl | h
  · rw [compare_lt_iff_lt.2 h, compare_gt_iff_gt.2 (by omega)]
    rfl
  · simp
  · rw [compare_gt_iff_gt.2 h, compare_lt_iff_lt.2 (by omega)]
    rfl

/-- The integer that a number stands at: the magnitude of its bits with its sign. -/
inductive At : UnpackedFloat → Int → Prop
  | zero (s : Sign) : At (.zero s) 0
  | finite (s : Sign) (m : Nat) (e : Int) (pos : 0 < m) (w : Nat) (h : Decodes w m e) :
      At (.finite s m e pos) (s.apply w)
  | infinity (s : Sign) : At (.infinity s) (s.apply 0x7f800000)

theorem At.compare_eq {a b : UnpackedFloat} {i j : Int} (ha : At a i) (hb : At b j) :
    a.compare b = some (compare i j) := by
  have hlt : ∀ {i j : Int}, i < j → some Ordering.lt = some (compare i j) := fun h =>
    congrArg some (compare_lt_iff_lt.2 h).symm
  have hgt : ∀ {i j : Int}, j < i → some Ordering.gt = some (compare i j) := fun h =>
    congrArg some (compare_gt_iff_gt.2 h).symm
  cases ha with
  | zero s =>
    cases hb with
    | zero s' => rfl
    | infinity s' => cases s' <;> rfl
    | finite s' m e pos w h =>
      have hw := h.1
      cases s' with
      | positive => exact hlt (by simp only [Sign.apply]; omega)
      | negative => exact hgt (by simp only [Sign.apply]; omega)
  | infinity s =>
    cases hb with
    | zero s' => cases s <;> rfl
    | infinity s' => cases s <;> cases s' <;> rfl
    | finite s' m e pos w h =>
      obtain ⟨hw, hw', -⟩ := h
      cases s with
      | positive => exact hgt (by cases s' <;> simp only [Sign.apply] <;> omega)
      | negative => exact hlt (by cases s' <;> simp only [Sign.apply] <;> omega)
  | finite s m e pos w h =>
    cases hb with
    | zero s' =>
      have hw := h.1
      cases s with
      | positive => exact hgt (by simp only [Sign.apply]; omega)
      | negative => exact hlt (by simp only [Sign.apply]; omega)
    | infinity s' =>
      obtain ⟨hw, hw', -⟩ := h
      cases s' with
      | positive => exact hlt (by cases s <;> simp only [Sign.apply] <;> omega)
      | negative => exact hgt (by cases s <;> simp only [Sign.apply] <;> omega)
    | finite s' m' e' pos' w' h' =>
      -- Of one sign, the magnitudes decide, and the other way round below zero.
      have hw := h.1
      have hw' := h'.1
      have he := h.compare_eq h'
      cases s <;> cases s'
      · exact congrArg some ((congrArg Ordering.swap he).trans (compare_neg _ _).symm)
      · exact hlt (by simp only [Sign.apply]; omega)
      · exact hgt (by simp only [Sign.apply]; omega)
      · exact congrArg some he

section Bits

variable (b : BitVec Format.binary32.numBits)

theorem toNat_unpackMantissa : (unpackMantissa b).toNat = b.toNat % 0x800000 := by
  simp [unpackMantissa, BitVec.extractLsb, BitVec.extractLsb']

theorem toNat_unpackExponent : (unpackExponent b).toNat = b.toNat / 0x800000 % 0x100 := by
  simp [unpackExponent, BitVec.extractLsb, BitVec.extractLsb', Nat.shiftRight_eq_div_pow]

theorem unpackSign_eq_zero_iff : unpackSign b = 0#1 ↔ b.toNat < 0x80000000 := by
  have h : (unpackSign b).toNat = b.toNat / 0x80000000 % 2 := by
    change ((b.toNat >>> 31) % 2 ^ 1) = _
    rw [Nat.shiftRight_eq_div_pow]
  have hlt : b.toNat < 0x100000000 := b.isLt
  rw [← BitVec.toNat_inj, h]
  simp
  omega

theorem toNat_one_append {n : Nat} (v : BitVec n) : (1#1 ++ v).toNat = 2 ^ n + v.toNat := by
  rw [BitVec.toNat_append, ← Nat.shiftLeft_add_eq_or_of_lt v.isLt]
  simp [Nat.shiftLeft_eq]

theorem at_unpack (h : (unpack .binary32 b).isNaN = false) :
    At (unpack .binary32 b)
      ((Sign.ofBitVec (unpackSign b)).apply (b.toNat % 0x80000000 : Nat)) := by
  have hm := toNat_unpackMantissa b
  have he := toNat_unpackExponent b
  have hbias : ((Format.exponentBias .binary32 : Nat) : Int) = 127 := rfl
  have hbits : ((Format.mantissaBitsWithoutImplicit .binary32 : Nat) : Int) = 23 := rfl
  generalize hw : b.toNat % 0x80000000 = w
  unfold UnpackedFloat.unpack at h ⊢
  dsimp only at h ⊢
  -- An exponent of ones stands for an infinity, and one of zeros for a number without a leading
  -- one; the bits without the sign are the magnitude in each case.
  by_cases hexp : unpackExponent b = -1#8
  · rw [if_pos hexp] at h ⊢
    have hexp : (unpackExponent b).toNat = 255 := by rw [hexp]; rfl
    by_cases hman : unpackMantissa b = 0#23
    · rw [if_pos hman]
      have hman : (unpackMantissa b).toNat = 0 := by rw [hman]; rfl
      obtain rfl : w = 0x7f800000 := by omega
      exact .infinity _
    · rw [if_neg hman] at h
      cases h
  rw [if_neg hexp]
  have hexp : (unpackExponent b).toNat ≠ 255 := fun hn => hexp (BitVec.toNat_inj.1 hn)
  by_cases hzero : unpackExponent b = 0#8
  · rw [if_pos hzero]
    have hzero : (unpackExponent b).toNat = 0 := by rw [hzero]; rfl
    by_cases hman : unpackMantissa b = 0#23
    · rw [dif_pos hman]
      have hman : (unpackMantissa b).toNat = 0 := by rw [hman]; rfl
      obtain rfl : w = 0 := by omega
      cases Sign.ofBitVec (unpackSign b) <;> exact .zero _
    · rw [dif_neg hman]
      have hman : (unpackMantissa b).toNat ≠ 0 := fun hn => hman (BitVec.toNat_inj.1 hn)
      refine .finite _ _ _ _ w ⟨by omega, by omega, .inl ⟨by omega, by omega, ?_⟩⟩
      rw [hzero, hbias, hbits]
      rfl
  · rw [if_neg hzero]
    have hzero : (unpackExponent b).toNat ≠ 0 := fun hn => hzero (BitVec.toNat_inj.1 hn)
    refine .finite _ _ _ _ w ⟨by omega, by omega, .inr ⟨by omega, ?_, ?_⟩⟩
    · rw [toNat_one_append, hm]
      change 0x800000 + b.toNat % 0x800000 = _
      omega
    · rw [he, hbias, hbits]
      omega

end Bits

/-- The place of a number on the number line, where both zeros stand at the same place. -/
def place (x : Float32) : Int := if rank x < 0 then rank x + 1 else rank x

variable {x y : Float32}

theorem place_mono (h : rank x ≤ rank y) : place x ≤ place y := by
  unfold place
  split <;> split <;> omega

theorem place_eq {b : BitVec Format.binary32.numBits} (hb : x.toBits.toBitVec = b) :
    place x = (Sign.ofBitVec (unpackSign b)).apply (b.toNat % 0x80000000 : Nat) := by
  have hs := unpackSign_eq_zero_iff b
  have hlt : b.toNat < 0x100000000 := b.isLt
  have hn : x.toBits.toNat = b.toNat := hb ▸ rfl
  unfold place rank Sign.ofBitVec
  simp only [hn]
  by_cases h : b.toNat < 0x80000000
  · rw [if_pos h, if_pos (hs.2 h), if_neg (by omega)]
    change (b.toNat : Int) = ((b.toNat % 0x80000000 : Nat) : Int)
    omega
  · rw [if_neg h, if_neg fun h' => h (hs.1 h'), if_pos (by omega)]
    change _ = -((b.toNat % 0x80000000 : Nat) : Int)
    omega

theorem compare_eq (hx : x.isNaN = false) (hy : y.isNaN = false) :
    x.toModel.unpack.compare y.toModel.unpack = some (compare (place x) (place y)) := by
  refine At.compare_eq ?_ ?_
  · rw [place_eq rfl]
    exact at_unpack _ hx
  · rw [place_eq rfl]
    exact at_unpack _ hy

theorem compare_of_isNaN (h : x.isNaN = true ∨ y.isNaN = true) :
    x.toModel.unpack.compare y.toModel.unpack = none := by
  change x.toModel.unpack.isNaN = true ∨ y.toModel.unpack.isNaN = true at h
  generalize x.toModel.unpack = a at h
  generalize y.toModel.unpack = b at h
  rcases h with h | h
  · cases a with
    | notANumber => rfl
    | _ => cases h
  · cases b with
    | notANumber => rcases a with (_ | _) | _ | _ | ⟨(_ | _), m, e, -⟩ <;> rfl
    | _ => cases h

theorem isNaN_of_compare {o : Ordering}
    (h : x.toModel.unpack.compare y.toModel.unpack = some o) :
    x.isNaN = false ∧ y.isNaN = false := by
  rw [← Bool.not_eq_true, ← Bool.not_eq_true, ← not_or]
  intro hn
  cases h.symm.trans (compare_of_isNaN hn)

theorem lt_iff_compare : x < y ↔ x.toModel.unpack.compare y.toModel.unpack = some .lt := by
  change decide ((x.toModel.unpack.compare y.toModel.unpack == some .lt) = true) = true ↔ _
  simp

theorem le_iff_compare :
    x ≤ y ↔ ∃ o, x.toModel.unpack.compare y.toModel.unpack = some o ∧ o.isLE = true := by
  change decide ((x.toModel.unpack.compare y.toModel.unpack).any (·.isLE) = true) = true ↔ _
  rw [decide_eq_true_eq, Option.any_eq_true]

theorem isNaN_of_lt (h : x < y) : x.isNaN = false ∧ y.isNaN = false :=
  isNaN_of_compare (lt_iff_compare.1 h)

theorem le_iff_place (hx : x.isNaN = false) (hy : y.isNaN = false) :
    x ≤ y ↔ place x ≤ place y := by
  rw [le_iff_compare, compare_eq hx hy]
  simp only [Option.some.injEq, exists_eq_left', Ordering.isLE_iff_ne_gt, compare_gt_iff_gt,
    not_lt]

theorem le_of_rank_le (hx : x.isNaN = false) (hy : y.isNaN = false) (h : rank x ≤ rank y) :
    x ≤ y :=
  (le_iff_place hx hy).2 (place_mono h)

end InferenceGraph.Scalar
