/-!
# Scalars

The numbers of the library are single precision: every operation rounds its result once, nothing is
fused. This module adds what the comparison operators of `Float32` leave open: the larger and the
smaller of two numbers when one of them is not a number, the total order that sorting needs, and
when two filling values count as the same.

`Float32` has one value that is not a number. Payloads are not told apart, not even where a
statement speaks of bits: such bits read and written again are those of that one value. Of `0` and
`-0`, where either would do, `max` and `min` give the first operand.
-/

set_option autoImplicit false

namespace InferenceGraph.Scalar

/-- The larger of two numbers; if one of them is not a number, the other. -/
def max (x y : Float32) : Float32 :=
  if x.isNaN then y else if y.isNaN then x else if x < y then y else x

/-- The smaller of two numbers; if one of them is not a number, the other. -/
def min (x y : Float32) : Float32 :=
  if x.isNaN then y else if y.isNaN then x else if y < x then y else x

/-- The place of a number in the total order: negative numbers by falling magnitude, `-0`, `0`,
positive numbers by magnitude. -/
def rank (x : Float32) : Int :=
  let bits := x.toBits.toNat
  if bits < 0x80000000 then bits else 0x7fffffff - (bits : Int)

/-- Filling values are the same if they are equal as numbers, so `0` and `-0` are, or if both are
not a number. -/
def sameFill (x y : Float32) : Bool :=
  x == y || (x.isNaN && y.isNaN)

theorem sameFill_self (x : Float32) (h : x.isNaN ∨ (x == x) = true) : sameFill x x = true := by
  rcases h with h | h <;> simp only [sameFill, h, Bool.and_self, Bool.or_true, Bool.true_or]

theorem sameFill_refl (x : Float32) : sameFill x x = true := by
  refine sameFill_self x ?_
  change x.toModel.unpack.isNaN = true ∨
    (x.toModel.unpack.compare x.toModel.unpack == some .eq) = true
  cases x.toModel.unpack with
  | notANumber => exact .inl rfl
  | infinity sign => cases sign <;> exact .inr rfl
  | zero sign => exact .inr rfl
  | finite sign mantissa exponent =>
    have he : compare exponent exponent = .eq := Std.ReflCmp.compare_self
    have hm : compare mantissa mantissa = .eq := Std.ReflCmp.compare_self
    refine .inr ?_
    cases sign with
    | positive =>
      change (some ((compare exponent exponent).then (compare mantissa mantissa)) == some .eq) = true
      rw [he, hm]
      rfl
    | negative =>
      change (some ((compare exponent exponent).then (compare mantissa mantissa)).swap ==
        some .eq) = true
      rw [he, hm]
      rfl

theorem magnitude_comm (e e' : Int) (m m' : Nat) :
    ((compare e e').then (compare m m') == .eq) = ((compare e' e).then (compare m' m) == .eq) := by
  have he : compare e e' = (compare e' e).swap := Std.OrientedCmp.eq_swap
  have hm : compare m m' = (compare m' m).swap := Std.OrientedCmp.eq_swap
  rw [he, hm]
  cases compare e' e <;> cases compare m' m <;> rfl

theorem beq_comm (x y : Float32) : (x == y) = (y == x) := by
  have hs : ∀ o : Ordering, (o.swap == .eq) = (o == .eq) := by decide
  change (x.toModel.unpack.compare y.toModel.unpack == some .eq) =
    (y.toModel.unpack.compare x.toModel.unpack == some .eq)
  -- All cases but two finite numbers of one sign are decided by the shapes alone.
  rcases x.toModel.unpack with (_ | _) | _ | _ | ⟨(_ | _), m, e, -⟩ <;>
    rcases y.toModel.unpack with (_ | _) | _ | _ | ⟨(_ | _), m', e', -⟩ <;> try rfl
  · change (((compare e e').then (compare m m')).swap == .eq) =
      (((compare e' e).then (compare m' m)).swap == .eq)
    rw [hs, hs, magnitude_comm]
  · exact magnitude_comm e e' m m'

theorem sameFill_comm (x y : Float32) : sameFill x y = sameFill y x := by
  rw [sameFill, sameFill, beq_comm, Bool.and_comm]

def largest : Float32 := Float32.ofBits 0x7f7fffff

def ofNat (n : Nat) : Float32 := Float32.ofNat n

end InferenceGraph.Scalar
