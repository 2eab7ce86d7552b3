import InferenceGraph.GraphError

/-!
# Buffers

A host buffer holds one cell for every element of the padded box of its layout. A fresh buffer holds
the filling value everywhere; writing replaces the logical elements and leaves the padding alone,
so reading gives back what was written last. Only buffers of single precision can be read or
written. Other allocators may hand out buffers that are not in host memory: of these only the
layout is known.

Instances share buffers, so a network keeps the cells in a `Store` and refers to them by `Memory`
handles. A handle carries the layout, which never changes; only cells do.
-/

set_option autoImplicit false

namespace InferenceGraph

structure HostBuffer where
  layout : Layout
  cells : Array Float32
  deriving DecidableEq

namespace HostBuffer

/-- A fresh buffer. Cells of other types than single precision can never be seen and are left
out. -/
def fresh (l : Layout) : HostBuffer :=
  { layout := l
    cells := if l.type = .float32 then Array.replicate l.paddedCount l.padding.fill else #[] }

def raw (b : HostBuffer) : Outcome (List Float32) :=
  if b.layout.type = .float32 then .ok b.cells.toList else .breach (.notSingle b.layout)

def read (b : HostBuffer) : Outcome (List Float32) :=
  if b.layout.type = .float32 then
    b.layout.offsets.mapM fun offset => Outcome.get .outOfRange b.cells[offset]?
  else .breach (.notSingle b.layout)

def putCells (cells : Array Float32) (places : List (Nat × Float32)) : Array Float32 :=
  places.foldl (fun cells (offset, value) => cells.setIfInBounds offset value) cells

@[simp] theorem size_putCells (cells : Array Float32) (places : List (Nat × Float32)) :
    (putCells cells places).size = cells.size := by
  unfold putCells
  induction places generalizing cells with
  | nil => rfl
  | cons p places ih => simp [ih]

def write (b : HostBuffer) (values : List Float32) : Outcome HostBuffer :=
  if values.length ≠ b.layout.count then .breach (.valueCount b.layout values.length)
  else if b.layout.type = .float32 then
    .ok { b with cells := putCells b.cells (b.layout.offsets.zip values) }
  else .breach (.notSingle b.layout)

def ofValues (l : Layout) (values : List Float32) : Outcome HostBuffer := (fresh l).write values

@[simp] theorem layout_fresh (l : Layout) : (fresh l).layout = l := rfl

theorem layout_of_write {b c : HostBuffer} {values : List Float32} (h : b.write values = .ok c) :
    c.layout = b.layout := by
  unfold write Outcome.breach at h
  split at h
  · cases h
  · split at h
    · cases h
      rfl
    · cases h

end HostBuffer

inductive Buffer where
  | host (buffer : HostBuffer)
  | elsewhere (layout : Layout)
  deriving DecidableEq

def Buffer.layout : Buffer → Layout
  | host b => b.layout
  | elsewhere l => l

abbrev Allocator := Layout → Outcome Buffer

def Allocator.host : Allocator := fun l => .ok (.host (.fresh l))

def Allocator.elsewhere : Allocator := fun l => .ok (.elsewhere l)

inductive Place where
  | host (slot : Nat)
  | elsewhere
  deriving DecidableEq, Repr

structure Memory where
  layout : Layout
  place : Place
  deriving DecidableEq

structure Store where
  slots : Array (Array Float32)
  deriving DecidableEq

namespace Store

def empty : Store := ⟨#[]⟩

def insert (s : Store) : Buffer → Memory × Store
  | .host b => (⟨b.layout, .host s.slots.size⟩, ⟨s.slots.push b.cells⟩)
  | .elsewhere l => (⟨l, .elsewhere⟩, s)

def hostBuffer? (s : Store) (m : Memory) : Option HostBuffer :=
  match m.place with
  | .host slot => s.slots[slot]?.map fun cells => ⟨m.layout, cells⟩
  | .elsewhere => none

def setCells (s : Store) (m : Memory) (cells : Array Float32) : Store :=
  match m.place with
  | .host slot => ⟨s.slots.setIfInBounds slot cells⟩
  | .elsewhere => s

@[simp] theorem layout_insert (s : Store) (b : Buffer) : (s.insert b).1.layout = b.layout := by
  cases b <;> rfl

@[simp] theorem hostBuffer?_insert (s : Store) (b : HostBuffer) :
    (s.insert (.host b)).2.hostBuffer? (s.insert (.host b)).1 = some b := by
  simp [insert, hostBuffer?]

end Store

end InferenceGraph
