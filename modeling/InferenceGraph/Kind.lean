import InferenceGraph.Kind.Builtin

/-!
# Kinds

The set of kinds is open: besides the builtin ones there are those of an extension, about which
nothing is known but their rules. Two kinds are told apart by what they are, never by their name.
-/

set_option autoImplicit false

namespace InferenceGraph

/-- A family of further kinds, all described by one type of descriptor fields. -/
class Extension (ε : Type) where
  Params : ε → Type
  Fields : Type
  rules (e : ε) : Rules (Params e)
  readFields (e : ε) : Fields → Except GraphError (Params e)
  writeFields (e : ε) : Params e → Fields

instance : Extension Empty where
  Params e := e.elim
  Fields := Empty
  rules e := e.elim
  readFields e := e.elim
  writeFields e := e.elim

inductive Kind (ε : Type) where
  | inputLayout
  | activation
  | eltwise
  | detectionOutput
  | reorder
  | custom (e : ε)
  deriving DecidableEq

namespace Kind

variable {ε : Type} [Extension ε]

def Params : Kind ε → Type
  | inputLayout => InputLayout
  | activation => Activation
  | eltwise => Eltwise
  | detectionOutput => DetectionParameters
  | reorder => Reorder
  | custom e => Extension.Params e

def rules : (k : Kind ε) → Rules k.Params
  | inputLayout => InputLayout.rules
  | activation => Activation.rules
  | eltwise => Eltwise.rules
  | detectionOutput => DetectionParameters.rules
  | reorder => Reorder.rules
  | custom e => Extension.rules e

def name (k : Kind ε) : String := k.rules.name

def builtins : List (Kind ε) := [inputLayout, activation, eltwise, detectionOutput, reorder]

def isBuiltin : Kind ε → Bool
  | custom _ => false
  | _ => true

omit [Extension ε] in
theorem mem_builtins_iff (k : Kind ε) : k ∈ builtins ↔ k.isBuiltin = true := by
  cases k <;> simp [builtins, isBuiltin]

end Kind

end InferenceGraph
