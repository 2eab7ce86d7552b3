import InferenceGraph.Descriptor

/-!
# Registry

The registered types in the order of registration, and two maps: from the names of kinds and from
the kinds themselves to tags. A tag is the place of a type, counted from one, so tags are never
reused and zero is no tag. Names and kinds are registered at most once.
-/

set_option autoImplicit false

namespace InferenceGraph

structure PrimitiveType (ε : Type) where
  kind : Kind ε
  tag : TypeTag
  deriving DecidableEq

structure Registry (ε : Type) where
  types : List (PrimitiveType ε)
  tagsByName : List (String × TypeTag)
  tagsByKind : List (Kind ε × TypeTag)
  deriving DecidableEq

def TypeTag.ofPlace (place : Nat) : TypeTag := ⟨UInt32.ofNat (place + 1)⟩

namespace PrimitiveType

variable {ε : Type} [Extension ε]

def name (t : PrimitiveType ε) : String := t.kind.name

def text (t : PrimitiveType ε) : String :=
  "PrimitiveType \x7b name: " ++ Text.quoted t.name ++ ", tag: " ++ t.tag.text ++ ", .. \x7d"

end PrimitiveType

namespace Registry

variable {ε : Type} [Extension ε] [DecidableEq ε]

def empty : Registry ε := ⟨[], [], []⟩

def size (r : Registry ε) : Nat := r.types.length

def kinds (r : Registry ε) : List (Kind ε) := r.types.map PrimitiveType.kind

/-- The tag under which the name of a kind, or the kind itself, is taken. -/
def taken? (r : Registry ε) (kind : Kind ε) : Option TypeTag :=
  (r.tagsByName.lookup kind.name).orElse fun _ => r.tagsByKind.lookup kind

def push (r : Registry ε) (kind : Kind ε) : Registry ε where
  types := r.types ++ [⟨kind, .ofPlace r.size⟩]
  tagsByName := (kind.name, .ofPlace r.size) :: r.tagsByName
  tagsByKind := (kind, .ofPlace r.size) :: r.tagsByKind

/-- Registers a kind under the next tag, unless its name or the kind itself is taken. -/
def register (r : Registry ε) (kind : Kind ε) : Outcome (TypeTag × Registry ε) :=
  match r.taken? kind with
  | some tag => .fail (.duplicateType kind.name tag)
  | none =>
    if r.size + 1 < UInt32.size then .ok (.ofPlace r.size, r.push kind)
    else .breach .tooManyKinds

def registerAll (r : Registry ε) : List (Kind ε) → Outcome (Registry ε)
  | [] => .ok r
  | kind :: rest => do
    let (_, r) ← r.register kind
    r.registerAll rest

def standard : Registry ε := Kind.builtins.foldl push empty

def typeOfTag (r : Registry ε) (tag : TypeTag) : Except GraphError (PrimitiveType ε) :=
  match tag.number.toNat with
  | 0 => .error (.unknownType tag)
  | place + 1 =>
    match r.types[place]? with
    | some type => .ok type
    | none => .error (.unknownType tag)

def tagOfName (r : Registry ε) (name : String) : Except GraphError TypeTag :=
  match r.tagsByName.lookup name with
  | some tag => .ok tag
  | none => .error (.unknownTypeName name)

def tagOfKind (r : Registry ε) (kind : Kind ε) : Except GraphError TypeTag :=
  match r.tagsByKind.lookup kind with
  | some tag => .ok tag
  | none => .error (.unknownTypeName kind.name)

/-- The type of a primitive. A kind that only shares the name of a registered one is unknown. -/
def typeOfPrimitive (r : Registry ε) (p : Primitive ε) : Except GraphError (PrimitiveType ε) := do
  r.typeOfTag (← r.tagOfKind p.kind)

def importPrimitive (r : Registry ε) : Option (Descriptor ε) → Outcome (Primitive ε)
  | none => .fail (.invalidDescriptor .absent)
  | some d => do
    let type ← Outcome.ofExcept (r.typeOfTag d.tag)
    type.kind.readPrimitive d

def exportPrimitive (r : Registry ε) (p : Primitive ε) : Outcome (Descriptor ε) := do
  let type ← Outcome.ofExcept (r.typeOfPrimitive p)
  type.kind.writePrimitive p type.tag

theorem registerAll_builtins :
    (empty : Registry ε).registerAll Kind.builtins = .ok standard := by
  rfl

end Registry

end InferenceGraph
