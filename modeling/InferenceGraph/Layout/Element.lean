import InferenceGraph.GraphError

set_option autoImplicit false

namespace InferenceGraph.Layout

def elementOffset (l : Layout) (c : Coordinate) : Outcome Nat :=
  if l.size.contains c then .ok (l.offset c) else .breach (.coordinate c l)

theorem elementOffset_eq_ok_iff (l : Layout) (c : Coordinate) (n : Nat) :
    l.elementOffset c = .ok n ↔ l.size.contains c = true ∧ l.offset c = n := by
  unfold elementOffset Outcome.breach
  split <;> simp_all

end InferenceGraph.Layout
