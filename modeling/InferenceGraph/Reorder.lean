import InferenceGraph.GraphError

set_option autoImplicit false

namespace InferenceGraph

structure InputLayout where
  layout : Layout
  deriving DecidableEq

namespace InputLayout

def same (p q : InputLayout) : Bool := p.layout.same q.layout

def text (p : InputLayout) : String := Text.record "InputLayout" [("layout", p.layout.tag)]

/-- The flat format has no room for rows and columns. -/
def check (p : InputLayout) : Except LayoutFault Unit :=
  if p.layout.format = .bf ∧ p.layout.size.spatialAxes ≠ [] then
    .error (.spatialInput p.layout.size)
  else .ok ()

end InputLayout

structure Reorder where
  format : Format
  type : ElementType
  deriving DecidableEq, Repr

namespace Reorder

def text (p : Reorder) : String :=
  Text.record "Reorder" [("output_format", p.format.tag), ("output_data_type", p.type.tag)]

def outputLayout (p : Reorder) (input : Layout) (padding : Padding) : Except LayoutFault Layout :=
  if p.format = .bf ∧ input.size.spatialAxes ≠ [] then .error (.spatialOutput input.size)
  else .ok ⟨p.type, p.format, input.size, padding⟩

end Reorder

end InferenceGraph
