import InferenceGraph.Registry

set_option autoImplicit false

namespace InferenceGraph

structure Topology (ε : Type) [Extension ε] where
  primitives : List (Primitive ε)
  ids_nodup : (primitives.map Primitive.id).Nodup

namespace Topology

variable {ε : Type} [Extension ε]

def empty : Topology ε := ⟨[], List.nodup_nil⟩

def ids (t : Topology ε) : List PrimitiveId := t.primitives.map Primitive.id

def size (t : Topology ε) : Nat := t.primitives.length

def get? (t : Topology ε) (id : PrimitiveId) : Option (Primitive ε) :=
  t.primitives.find? fun p => p.id = id

def contains (t : Topology ε) (id : PrimitiveId) : Bool := t.primitives.any fun p => p.id = id

theorem contains_iff (t : Topology ε) (id : PrimitiveId) :
    t.contains id = true ↔ id ∈ t.ids := by
  simp [contains, ids]

theorem get?_eq_some_iff (t : Topology ε) (id : PrimitiveId) (p : Primitive ε) :
    t.get? id = some p ↔ p ∈ t.primitives ∧ p.id = id := by
  constructor
  · intro h
    exact ⟨List.mem_of_find?_eq_some h, by simpa using List.find?_some h⟩
  · rintro ⟨hp, rfl⟩
    have h := t.ids_nodup
    unfold get?
    generalize t.primitives = ps at *
    induction ps with
    | nil => cases hp
    | cons q ps ih =>
      simp only [List.map_cons, List.nodup_cons, List.mem_map, not_exists, not_and] at h
      rcases List.mem_cons.1 hp with rfl | hp
      · simp
      · have hne : q.id ≠ p.id := fun he => h.1 p hp he.symm
        simp [hne, ih hp h.2]

def push (t : Topology ε) (p : Primitive ε) (h : p.id ∉ t.ids) : Topology ε where
  primitives := t.primitives ++ [p]
  ids_nodup := by
    rw [List.map_append, List.map_cons, List.map_nil, List.nodup_append]
    refine ⟨t.ids_nodup, by simp, ?_⟩
    intro a ha b hb hab
    simp only [List.mem_singleton] at hb
    subst hab hb
    exact h ha

def add (t : Topology ε) (p : Primitive ε) : Except GraphError (Topology ε) :=
  if h : p.id ∈ t.ids then .error (.duplicatePrimitiveId p.id) else .ok (t.push p h)

/-- Adds primitives up to the first whose id is used; those before it stay. -/
def addAll (t : Topology ε) : List (Primitive ε) → Topology ε × Except GraphError Unit
  | [] => (t, .ok ())
  | p :: rest =>
    match t.add p with
    | .ok t => t.addAll rest
    | .error e => (t, .error e)

/-- Removes a primitive and gives it back; those that depend on it are left as they are. -/
def remove (t : Topology ε) (id : PrimitiveId) : Option (Primitive ε) × Topology ε :=
  (t.get? id,
    { primitives := t.primitives.filter fun p => p.id ≠ id
      ids_nodup := t.ids_nodup.sublist (List.filter_sublist.map _) })

def addDescriptor [DecidableEq ε] (t : Topology ε) (r : Registry ε) (d : Option (Descriptor ε)) :
    Outcome (Topology ε) := do
  let p ← r.importPrimitive d
  Outcome.ofExcept (t.add p)

end Topology

end InferenceGraph
