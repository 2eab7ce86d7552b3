import InferenceGraph.Proofs.Scalar

set_option autoImplicit false

namespace InferenceGraph.Scalar

open Float.Model Float.Model.UnpackedFloat

inductive Unsigned : UnpackedFloat → Prop
  | notANumber : Unsigned .notANumber
  | infinity : Unsigned (.infinity .positive)
  | zero : Unsigned (.zero .positive)
  | finite (m : Nat) (e : Int) (pos : 0 < m) : Unsigned (.finite .positive m e pos)

section Operations

variable (spec : Format) (m : Nat) (e : Int)

theorem unsigned_roundWithAccuracy (acc : Accuracy) :
    Unsigned (roundWithAccuracy spec .positive m e acc) := by
  unfold roundWithAccuracy
  dsimp only
  generalize shiftToTargetExponent spec m e acc = shifted
  generalize shiftToTargetExponent spec shifted.1.roundedMantissa shifted.2 .exact = rounded
  by_cases hm : rounded.1.mantissa = 0
  · rw [dif_pos hm]
    exact .zero
  · rw [dif_neg hm]
    exact .finite _ _ _

theorem unsigned_ofNat : Unsigned (UnpackedFloat.ofNat spec m) := by
  unfold UnpackedFloat.ofNat UnpackedFloat.ofInt UnpackedFloat.normalize
  split
  · next h =>
    have hlt : (m : Int) < 0 := compare_lt_iff_lt.1 h
    omega
  · exact .zero
  · exact unsigned_roundWithAccuracy spec _ _ .exact

variable {spec} in
theorem Unsigned.mul {a b : UnpackedFloat} (ha : Unsigned a) (hb : Unsigned b) :
    Unsigned (UnpackedFloat.mul spec a b) := by
  cases ha with
  | notANumber => exact .notANumber
  | infinity =>
    cases hb with
    | notANumber => exact .notANumber
    | infinity => exact .infinity
    | zero => exact .notANumber
    | finite => exact .infinity
  | zero =>
    cases hb with
    | notANumber => exact .notANumber
    | infinity => exact .notANumber
    | zero => exact .zero
    | finite => exact .zero
  | finite m e =>
    cases hb with
    | notANumber => exact .notANumber
    | infinity => exact .infinity
    | zero => exact .zero
    | finite m' e' => exact unsigned_roundWithAccuracy spec _ _ .exact

theorem unsigned_ofScientific : Unsigned (UnpackedFloat.ofScientific spec m e) := by
  unfold UnpackedFloat.ofScientific
  by_cases hm : m = 0
  · rw [dif_pos hm]
    exact .zero
  rw [dif_neg hm]
  by_cases hlarge : e > 2 ^ spec.exponentBits
  · rw [if_pos hlarge]
    exact .infinity
  rw [if_neg hlarge]
  by_cases hsmall : e < -(2 ^ spec.exponentBits + m.log2)
  · rw [if_pos hsmall]
    exact .zero
  rw [if_neg hsmall]
  by_cases he : 0 ≤ e
  · rw [if_pos he]
    exact unsigned_roundWithAccuracy spec _ _ .exact
  · rw [if_neg he]
    exact unsigned_roundWithAccuracy spec _ _ _

end Operations

theorem toNat_packComponents (e : BitVec 8) (m : BitVec 23) :
    (packComponents .binary32 .positive e m).toNat < 0x80000000 := by
  change (0#1 ++ e ++ m).toNat < 2 ^ 31
  have he : (0#1 ++ e).toNat < 2 ^ 8 := by
    rw [BitVec.toNat_append]
    exact Nat.or_lt_two_pow (by decide) e.isLt
  rw [BitVec.toNat_append, Nat.shiftLeft_eq]
  exact Nat.or_lt_two_pow (by omega) (by omega)

theorem Unsigned.toNat_pack {a : UnpackedFloat} (h : Unsigned a) :
    (UnpackedFloat.pack .binary32 a).toNat < 0x80000000 := by
  cases h with
  | notANumber => exact toNat_packComponents _ _
  | infinity => exact toNat_packComponents _ _
  | zero => exact toNat_packComponents _ _
  | finite m e =>
    unfold UnpackedFloat.pack
    dsimp only
    split
    · exact toNat_packComponents _ _
    split
    · exact toNat_packComponents _ _
    · exact toNat_packComponents _ _

theorem unsigned_unpack {b : BitVec Format.binary32.numBits} (h : b.toNat < 0x80000000) :
    Unsigned (unpack .binary32 b) := by
  have hs : Sign.ofBitVec (unpackSign b) = .positive := if_pos ((unpackSign_eq_zero_iff b).2 h)
  unfold UnpackedFloat.unpack
  dsimp only
  rw [hs]
  by_cases hexp : unpackExponent b = -1#8
  · rw [if_pos hexp]
    split
    · exact .infinity
    · exact .notANumber
  rw [if_neg hexp]
  by_cases hzero : unpackExponent b = 0#8
  · rw [if_pos hzero]
    by_cases hman : unpackMantissa b = 0#23
    · rw [dif_pos hman]
      exact .zero
    · rw [dif_neg hman]
      exact .finite _ _ _
  · rw [if_neg hzero]
    exact .finite _ _ _

theorem toNat_ofNat_lt (n : Nat) : (ofNat n).toBits.toNat < 0x80000000 := by
  change (Float32.ofScientific n false 0).toBits.toNat < _
  unfold Float32.ofScientific
  split
  · change (UnpackedFloat.pack .binary32 _).toNat < _
    have hone : (Float32.ofBits 0x3f800000).toBits.toNat < 0x80000000 := by decide
    exact (Unsigned.mul (unsigned_unpack (unsigned_ofNat .binary32 _).toNat_pack)
      (unsigned_unpack hone)).toNat_pack
  · exact (unsigned_ofScientific .binary32 n 0).toNat_pack

theorem place_ofNat_nonneg (n : Nat) : 0 ≤ place (ofNat n) := by
  have hlt := toNat_ofNat_lt n
  simp only [place, rank, hlt, if_true]
  omega

/-- No natural number is taken for `-1`. -/
theorem ofNat_beq_neg_one (n : Nat) : (ofNat n == -1) = false := by
  change ((ofNat n).toModel.unpack.compare (-1 : Float32).toModel.unpack == some .eq) = false
  by_cases hn : (ofNat n).isNaN = true
  · rw [compare_of_isNaN (.inl hn)]
    rfl
  · have hneg : place (-1) < 0 := by decide
    have hlt : place (-1) < place (ofNat n) := Int.lt_of_lt_of_le hneg (place_ofNat_nonneg n)
    rw [compare_eq (Bool.not_eq_true _ ▸ hn) (by decide), compare_gt_iff_gt.2 hlt]
    rfl

end InferenceGraph.Scalar
