import InferenceGraph.Kind

set_option autoImplicit false

namespace InferenceGraph

structure Primitive (ε : Type) [Extension ε] where
  id : PrimitiveId
  inputs : List PrimitiveId
  padding : Padding
  kind : Kind ε
  params : kind.Params

namespace Primitive

variable {ε : Type} [Extension ε]

def ofParams (id : PrimitiveId) (inputs : List PrimitiveId) (kind : Kind ε) (params : kind.Params) :
    Primitive ε :=
  ⟨id, inputs, .none, kind, params⟩

def withPadding (p : Primitive ε) (padding : Padding) : Primitive ε := { p with padding := padding }

def kindName (p : Primitive ε) : String := p.kind.name

/-- All dependencies in order: the inputs, then those of the kind. -/
def dependencies (p : Primitive ε) : List PrimitiveId :=
  p.inputs ++ p.kind.rules.ownDependencies p.params

def text (p : Primitive ε) : String := p.kind.rules.text p.params

variable [DecidableEq ε]

def paramsAs? (p : Primitive ε) (k : Kind ε) : Option k.Params :=
  if h : p.kind = k then some (h ▸ p.params) else none

def same (p q : Primitive ε) : Bool :=
  p.id = q.id && p.inputs = q.inputs && p.padding.same q.padding &&
    match q.paramsAs? p.kind with
    | some params => p.kind.rules.same p.params params
    | none => false

@[simp] theorem paramsAs?_kind (p : Primitive ε) : p.paramsAs? p.kind = some p.params := by
  simp [paramsAs?]

theorem paramsAs?_isSome_iff (p : Primitive ε) (k : Kind ε) :
    (p.paramsAs? k).isSome ↔ p.kind = k := by
  unfold paramsAs?
  split <;> simp_all

end Primitive

end InferenceGraph
