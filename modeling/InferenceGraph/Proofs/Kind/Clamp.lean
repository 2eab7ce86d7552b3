import InferenceGraph.Proofs.Program.Linking
import InferenceGraph.Proofs.Scalar.Extremes

set_option autoImplicit false

namespace InferenceGraph

namespace Activation

variable {q : Activation}

/-- The bounds are numbers, and the upper one is not below the lower one. -/
structure Ordered (q : Activation) : Prop where
  lower : q.a.isNaN = false
  upper : q.b.isNaN = false
  not_below : ¬ q.b < q.a

structure Within (q : Activation) (y : Float32) : Prop where
  number : y.isNaN = false
  above : q.a ≤ y
  below : y ≤ q.b

theorem ordered_iff_le : q.Ordered ↔ q.a ≤ q.b := by
  rw [Scalar.le_iff_not_lt]
  exact ⟨fun h => ⟨h.lower, h.upper, h.not_below⟩, fun ⟨ha, hb, h⟩ => ⟨ha, hb, h⟩⟩

theorem check_clamp_iff (hf : q.function = .clamp) : q.check = .ok () ↔ q.Ordered := by
  rw [ordered_iff_le, check]
  split
  · next h => simp [h.2]
  · next h => simpa [hf] using h

theorem Ordered.within_apply (h : q.Ordered) (hf : q.function = .clamp) (x : Float32) :
    q.Within (q.apply x) := by
  obtain ⟨habove, hbelow⟩ := Scalar.clamp_between (ordered_iff_le.1 h) x
  rw [apply, hf]
  exact ⟨(Scalar.isNaN_of_le habove).2, habove, hbelow⟩

end Activation

namespace Primitive

variable {ε : Type} [Extension ε] [DecidableEq ε] {p : Primitive ε} {q : Activation}

structure IsClamp (p : Primitive ε) (q : Activation) : Prop where
  params : p.paramsAs? .activation = some q
  function : q.function = .clamp

theorem IsClamp.kind (h : p.IsClamp q) : p.kind = .activation :=
  (p.paramsAs?_isSome_iff .activation).1 (Option.isSome_iff_exists.2 ⟨q, h.params⟩)

theorem IsClamp.ordered (h : p.IsClamp q) (hv : p.validate = .ok ()) : q.Ordered := by
  obtain ⟨id, inputs, padding, kind, params⟩ := p
  obtain rfl : kind = .activation := h.kind
  obtain rfl := Option.some.inj h.params
  obtain ⟨_, -, hv⟩ := bind_eq_ok_iff.1 hv
  rw [← Activation.check_clamp_iff h.function]
  cases hc : Activation.check params with
  | ok u => rfl
  | error fault => simp [hc, invalidUnless] at hv

end Primitive

end InferenceGraph
