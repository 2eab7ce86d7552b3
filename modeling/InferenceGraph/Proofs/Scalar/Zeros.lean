import InferenceGraph.Proofs.Scalar.Value

/-!
# Numbers up to the sign of zero

Two numbers are alike if they differ in nothing but the sign of a zero. Differences and products
of alike numbers are alike, and alike numbers compare in the same way. Only a division can tell one
zero from the other, and only as its divisor.
-/

set_option autoImplicit false

namespace InferenceGraph.Scalar

open Float.Model Float.Model.UnpackedFloat

/-- Nothing but the sign of a zero differs. -/
inductive SameShape : UnpackedFloat → UnpackedFloat → Prop
  | refl (a : UnpackedFloat) : SameShape a a
  | zero (s s' : Sign) : SameShape (.zero s) (.zero s')

namespace SameShape

variable {a a' b b' : UnpackedFloat}

theorem trans {c : UnpackedFloat} (h : SameShape a b) (h' : SameShape b c) : SameShape a c := by
  cases h with
  | refl => exact h'
  | zero s s' =>
    cases h' with
    | refl => exact .zero s s'
    | zero _ t => exact .zero s t

theorem eq_or_zero (h : SameShape a b) : a = b ∨ ∃ s, a = .zero s := by
  cases h with
  | refl => exact .inl rfl
  | zero s s' => exact .inr ⟨s, rfl⟩

theorem map₂ {f : UnpackedFloat → UnpackedFloat → UnpackedFloat}
    (hleft : ∀ s s' b, SameShape (f (.zero s) b) (f (.zero s') b))
    (hright : ∀ a s s', SameShape (f a (.zero s)) (f a (.zero s')))
    (ha : SameShape a a') (hb : SameShape b b') : SameShape (f a b) (f a' b') := by
  have hfirst : SameShape (f a b) (f a' b) := by
    cases ha with
    | refl => exact .refl _
    | zero s s' => exact hleft s s' b
  refine hfirst.trans ?_
  cases hb with
  | refl => exact .refl _
  | zero s s' => exact hright a' s s'

section Operations

variable {spec : Format} (ha : SameShape a a') (hb : SameShape b b')
include ha hb

theorem sub : SameShape (UnpackedFloat.sub spec a b) (UnpackedFloat.sub spec a' b') := by
  refine ha.map₂ (fun s s' b => ?_) (fun a s s' => ?_) hb
  · cases b with
    | zero t => cases s <;> cases s' <;> cases t <;> constructor
    | _ => exact .refl _
  · cases a with
    | zero t => cases s <;> cases s' <;> cases t <;> constructor
    | _ => exact .refl _

theorem mul : SameShape (UnpackedFloat.mul spec a b) (UnpackedFloat.mul spec a' b') := by
  refine ha.map₂ (fun s s' b => ?_) (fun a s s' => ?_) hb
  · cases b with
    | notANumber => exact .refl _
    | infinity => exact .refl _
    | zero => exact .zero _ _
    | finite => exact .zero _ _
  · cases a with
    | notANumber => exact .refl _
    | infinity => exact .refl _
    | zero => exact .zero _ _
    | finite => exact .zero _ _

theorem compare : a.compare b = a'.compare b' := by
  have hleft : a.compare b = a'.compare b := by
    cases ha with
    | refl => rfl
    | zero s s' => rcases b with (_ | _) | _ | _ | ⟨(_ | _), m, e, -⟩ <;> rfl
  refine hleft.trans ?_
  cases hb with
  | refl => rfl
  | zero s s' => rcases a' with (_ | _) | _ | _ | ⟨(_ | _), m, e, -⟩ <;> rfl

end Operations

theorem isNaN (h : SameShape a b) : a.isNaN = b.isNaN := by cases h <;> rfl

theorem div_left (spec : Format) (h : SameShape a a') (b : UnpackedFloat) :
    SameShape (UnpackedFloat.div spec a b) (UnpackedFloat.div spec a' b) := by
  cases h with
  | refl => exact .refl _
  | zero s s' =>
    cases b with
    | notANumber => exact .refl _
    | infinity => exact .zero _ _
    | zero => exact .refl _
    | finite => exact .zero _ _

theorem repack (h : SameShape a b) :
    SameShape (Float32.Model.pack a).unpack (Float32.Model.pack b).unpack := by
  cases h with
  | refl => exact .refl _
  | zero s s' =>
    have hzero : ∀ t : Sign, (Float32.Model.pack (.zero t)).unpack = .zero t := fun t => by
      cases t <;> rfl
    rw [hzero, hzero]
    exact .zero s s'

end SameShape

theorem unpacked_add_comm (spec : Format) (a b : UnpackedFloat) :
    UnpackedFloat.add spec a b = UnpackedFloat.add spec b a := by
  cases a with
  | notANumber => cases b <;> rfl
  | infinity s => cases b with
    | infinity s' => cases s <;> cases s' <;> rfl
    | _ => rfl
  | zero s => cases b with
    | zero s' => cases s <;> cases s' <;> rfl
    | _ => rfl
  | finite s m e => cases b with
    | finite s' m' e' =>
      unfold UnpackedFloat.add
      dsimp only
      rw [min_comm, Int.add_comm]
    | _ => rfl

theorem Decodes.unique {w m m' : Nat} {e e' : Int} (h : Decodes w m e) (h' : Decodes w m' e') :
    m = m' ∧ e = e' := by
  obtain ⟨-, -, h⟩ := h
  obtain ⟨-, -, h'⟩ := h'
  omega

/-- Two numbers at one place differ at most by the sign of a zero. -/
theorem At.sameShape {a b : UnpackedFloat} {i j : Int} (ha : At a i) (hb : At b j) (h : i = j) :
    SameShape a b := by
  cases ha with
  | zero s =>
    cases hb with
    | zero s' => exact .zero s s'
    | infinity s' => cases s' <;> cases h
    | finite s' m' e' pos' w' h' =>
      have hw' := h'.1
      cases s' <;> simp only [Sign.apply] at h <;> omega
  | infinity s =>
    cases hb with
    | zero s' => cases s <;> cases h
    | infinity s' =>
      cases s <;> cases s' <;> first | exact .refl _ | cases h
    | finite s' m' e' pos' w' h' =>
      have hw' := h'.2.1
      cases s <;> cases s' <;> simp only [Sign.apply] at h <;> omega
  | finite s m e pos w hd =>
    cases hb with
    | zero s' =>
      have hw := hd.1
      cases s <;> simp only [Sign.apply] at h <;> omega
    | infinity s' =>
      have hw := hd.2.1
      cases s <;> cases s' <;> simp only [Sign.apply] at h <;> omega
    | finite s' m' e' pos' w' hd' =>
      have hw := hd.1
      have hw' := hd'.1
      obtain ⟨rfl, rfl⟩ : s = s' ∧ w = w' := by
        cases s <;> cases s' <;> simp only [Sign.apply] at h <;> simp <;> omega
      obtain ⟨rfl, rfl⟩ := hd.unique hd'
      exact .refl _

def Alike (x y : Float32) : Prop := SameShape x.toModel.unpack y.toModel.unpack

namespace Alike

variable {x x' y y' : Float32}

theorem refl (x : Float32) : Alike x x := SameShape.refl _

theorem sub (hx : Alike x x') (hy : Alike y y') : Alike (x - y) (x' - y') :=
  (SameShape.sub hx hy).repack

theorem mul (hx : Alike x x') (hy : Alike y y') : Alike (x * y) (x' * y') :=
  (SameShape.mul hx hy).repack

theorem lt_iff (hx : Alike x x') (hy : Alike y y') : x < y ↔ x' < y' := by
  rw [lt_iff_compare, lt_iff_compare, SameShape.compare hx hy]

theorem le_iff (hx : Alike x x') (hy : Alike y y') : x ≤ y ↔ x' ≤ y' := by
  rw [le_iff_compare, le_iff_compare, SameShape.compare hx hy]

theorem isNaN_eq (h : Alike x y) : x.isNaN = y.isNaN := SameShape.isNaN h

theorem sameFill (h : Alike x y) : Scalar.sameFill x y = true := by
  change (x.toModel.unpack.compare y.toModel.unpack == some .eq || (x.isNaN && y.isNaN)) = true
  rw [← (SameShape.refl x.toModel.unpack).compare h, ← h.isNaN_eq]
  exact sameFill_refl x

theorem div (hx : Alike x x') (hy : Alike y y') (hpos : ¬ y ≤ 0) : Alike (x / y) (x' / y') := by
  have hy : y.toModel.unpack = y'.toModel.unpack := by
    rcases SameShape.eq_or_zero hy with he | ⟨s, hs⟩
    · exact he
    · have hzero : y ≤ 0 := by
        refine (le_iff_compare).2 ⟨.eq, ?_, rfl⟩
        rw [hs]
        rfl
      exact absurd hzero hpos
  have hd := (SameShape.div_left .binary32 hx y.toModel.unpack).repack
  nth_rewrite 2 [hy] at hd
  exact hd

end Alike

variable {x y : Float32}

theorem alike_add_comm (x y : Float32) : Alike (x + y) (y + x) := by
  have h : (x + y).toModel = (y + x).toModel :=
    congrArg Float32.Model.pack (unpacked_add_comm .binary32 x.toModel.unpack y.toModel.unpack)
  rw [Alike, h]
  exact .refl _

theorem alike_of_place (hx : x.isNaN = false) (hy : y.isNaN = false) (h : place x = place y) :
    Alike x y :=
  (at_place hx).sameShape (at_place hy) h

theorem alike_of_isNaN (hx : x.isNaN = true) (hy : y.isNaN = true) : Alike x y := by
  have hnan : ∀ {a : UnpackedFloat}, a.isNaN = true → a = .notANumber := fun {a} h => by
    cases a <;> first | rfl | cases h
  rw [Alike, hnan hx, hnan hy]
  exact .refl _

theorem lt_or_lt_or_alike (hx : x.isNaN = false) (hy : y.isNaN = false) :
    x < y ∧ ¬ y < x ∨ y < x ∧ ¬ x < y ∨ ¬ x < y ∧ ¬ y < x ∧ Alike x y := by
  have hplace := alike_of_place hx hy
  rw [lt_iff_place hx hy, lt_iff_place hy hx]
  rcases Int.lt_trichotomy (place x) (place y) with h | h | h
  · exact .inl ⟨h, by omega⟩
  · exact .inr (.inr ⟨by omega, by omega, hplace h⟩)
  · exact .inr (.inl ⟨h, by omega⟩)

theorem alike_pick_comm (hx : x.isNaN = false) (hy : y.isNaN = false) :
    Alike (if x < y then y else x) (if y < x then x else y) ∧
      Alike (if y < x then y else x) (if x < y then x else y) := by
  rcases lt_or_lt_or_alike hx hy with ⟨h, h'⟩ | ⟨h, h'⟩ | ⟨h, h', hlike⟩
  · simp only [if_pos h, if_neg h']
    exact ⟨.refl y, .refl x⟩
  · simp only [if_pos h, if_neg h']
    exact ⟨.refl x, .refl y⟩
  · simp only [if_neg h, if_neg h']
    exact ⟨hlike, hlike⟩

theorem alike_max_comm (x y : Float32) : Alike (max x y) (max y x) := by
  unfold max
  cases hx : x.isNaN <;> cases hy : y.isNaN <;> simp only [if_true, Bool.false_eq_true, if_false]
  · exact (alike_pick_comm hx hy).1
  · exact .refl x
  · exact .refl y
  · exact alike_of_isNaN hy hx

theorem alike_min_comm (x y : Float32) : Alike (min x y) (min y x) := by
  unfold min
  cases hx : x.isNaN <;> cases hy : y.isNaN <;> simp only [if_true, Bool.false_eq_true, if_false]
  · exact (alike_pick_comm hx hy).2
  · exact .refl x
  · exact .refl y
  · exact alike_of_isNaN hy hx

end InferenceGraph.Scalar
