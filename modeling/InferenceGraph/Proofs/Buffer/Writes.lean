import InferenceGraph.Layout.Element
import InferenceGraph.Proofs.Buffer
import InferenceGraph.Proofs.Sequence.Blocks

set_option autoImplicit false

namespace InferenceGraph

namespace TensorSize

def position (s : TensorSize) (c : Coordinate) : Nat :=
  ((c.batch * s.feature + c.feature) * s.y + c.y) * s.x + c.x

theorem position_eq (s : TensorSize) (c : Coordinate) :
    s.position c = c.batch * (s.feature * (s.y * s.x)) +
      (c.feature * (s.y * s.x) + (c.y * s.x + c.x)) := by
  simp only [position, Nat.add_mul, Nat.mul_assoc, Nat.add_assoc]

theorem getElem?_coordinates {s : TensorSize} {c : Coordinate} (h : s.contains c = true) :
    s.coordinates[s.position c]? = some c := by
  obtain ⟨b, f, y, x⟩ := c
  simp only [contains, Bool.and_eq_true, decide_eq_true_eq] at h
  obtain ⟨⟨⟨hb, hf⟩, hy⟩, hx⟩ := h
  have hrow : ∀ b f y, ((List.range s.x).map fun x => (⟨b, f, y, x⟩ : Coordinate)).length = s.x :=
    fun b f y => by simp
  have hmap : ∀ b f, ((List.range s.y).flatMap fun y =>
      (List.range s.x).map fun x => (⟨b, f, y, x⟩ : Coordinate)).length = s.y * s.x :=
    fun b f => length_flatMap_range (hrow b f) s.y
  have himage : ∀ b, ((List.range s.feature).flatMap fun f => (List.range s.y).flatMap fun y =>
      (List.range s.x).map fun x => (⟨b, f, y, x⟩ : Coordinate)).length =
        s.feature * (s.y * s.x) :=
    fun b => length_flatMap_range (hmap b) s.feature
  have hyx := block_lt hy hx
  have hfyx := block_lt hf hyx
  rw [position_eq, coordinates, getElem?_flatMap_range himage hb hfyx,
    getElem?_flatMap_range (hmap b) hf hyx, getElem?_flatMap_range (hrow b f) hy hx,
    List.getElem?_map, List.getElem?_range hx]
  rfl

end TensorSize

namespace HostBuffer

/-- The buffer after a call that writes; one that is refused leaves it as it was. -/
def attempt (b : HostBuffer) (values : List Float32) : HostBuffer :=
  match b.write values with
  | .ok c => c
  | .error _ => b

/-- The elements that calls have left in a fresh buffer. -/
def lastAccepted (l : Layout) (calls : List (List Float32)) : List Float32 :=
  (calls.filter fun values => values.length = l.count).getLast?.getD
    (List.replicate l.count l.padding.fill)

/-- What calls preserve: some elements, and the padding of a fresh buffer around them. -/
structure Shows (l : Layout) (values : List Float32) (b : HostBuffer) : Prop where
  layout : b.layout = l
  proper : b.Proper
  read : b.read = .ok values

variable {l : Layout} {values : List Float32} {b c : HostBuffer}

theorem shows_fresh (ht : l.type = .float32) :
    (fresh l).Shows l (List.replicate l.count l.padding.fill) := by
  refine ⟨rfl, proper_fresh l, read_eq_ok_iff.2 ⟨ht, ?_⟩⟩
  rw [List.map_replicate, ← l.length_offsets]
  refine List.map_eq_replicate_iff.2 fun o ho => ?_
  exact getElem?_fresh ht (Layout.lt_of_mem_offsets ho)

theorem Shows.write {written : List Float32} (h : b.Shows l values)
    (hw : b.write written = .ok c) : c.Shows l written :=
  ⟨(layout_of_write hw).trans h.layout, h.proper.write hw, h.proper.sized.read_of_write hw⟩

theorem Shows.unique (h : b.Shows l values) (h' : c.Shows l values) : c = b := by
  obtain ⟨rfl, hb, hread⟩ := h
  obtain ⟨hl, hc, hread'⟩ := h'
  obtain ⟨ht, hr⟩ := read_eq_ok_iff.1 hread
  obtain ⟨ht', hr'⟩ := read_eq_ok_iff.1 hread'
  rw [hl, ← hr] at hr'
  have hcells : c.cells = b.cells := by
    refine Array.ext_getElem? fun o => ?_
    by_cases hm : o ∈ b.layout.offsets
    · exact List.map_inj_left.1 hr' o hm
    by_cases ho : o < b.layout.paddedCount
    · have hpad := hc.padding ht' o (hl.symm ▸ ho) (hl.symm ▸ hm)
      rw [hpad, hl, hb.padding ht o ho hm]
    · rw [Array.getElem?_eq_none (by rw [hc.sized ht', hl]; omega),
        Array.getElem?_eq_none (by rw [hb.sized ht]; omega)]
  obtain ⟨layout, cells⟩ := b
  obtain ⟨layout', cells'⟩ := c
  cases hl
  cases hcells
  rfl

theorem Shows.ofValues (h : b.Shows l values) : ofValues l values = .ok b := by
  obtain ⟨ht, -⟩ := read_eq_ok_iff.1 h.read
  rw [h.layout] at ht
  have hlen : values.length = l.count := h.layout ▸ length_of_read h.read
  obtain ⟨c, hc⟩ : ∃ c, HostBuffer.ofValues l values = .ok c :=
    ⟨_, write_eq_ok_iff.2 ⟨hlen, ht, rfl⟩⟩
  rw [hc, h.unique ((shows_fresh ht).write hc)]

theorem Shows.attempt (ht : l.type = .float32) (h : b.Shows l values) (written : List Float32) :
    (b.attempt written).Shows l (if written.length = l.count then written else values) := by
  obtain rfl := h.layout
  unfold HostBuffer.attempt
  by_cases hl : written.length = b.layout.count
  · obtain ⟨c, hw⟩ : ∃ c, b.write written = .ok c := ⟨_, write_eq_ok_iff.2 ⟨hl, ht, rfl⟩⟩
    rw [hw, if_pos hl]
    exact h.write hw
  · have hw : b.write written = .breach (.valueCount b.layout written.length) := if_pos hl
    rw [hw, if_neg hl]
    exact h

theorem Shows.foldl (ht : l.type = .float32) (h : b.Shows l values)
    (calls : List (List Float32)) : (calls.foldl HostBuffer.attempt b).Shows l
      ((calls.filter fun values => values.length = l.count).getLast?.getD values) := by
  induction calls generalizing b values with
  | nil => exact h
  | cons written calls ih =>
    have hr := ih (h.attempt ht written)
    rw [List.foldl_cons, List.filter_cons]
    by_cases hl : written.length = l.count
    · simpa [hl, List.getLast?_cons] using hr
    · simpa [hl] using hr

theorem Shows.element (h : b.Shows l values) {c : Coordinate} (hc : l.size.contains c = true) :
    ∃ v, values[l.size.position c]? = some v ∧ b.cells[l.offset c]? = some v := by
  obtain ⟨-, hr⟩ := read_eq_ok_iff.1 h.read
  rw [h.layout, Layout.offsets, List.map_map] at hr
  have hi := congrArg (·[l.size.position c]?) hr
  simp only [List.getElem?_map, TensorSize.getElem?_coordinates hc, Option.map_some,
    Function.comp_apply] at hi
  obtain ⟨v, hv, hcell⟩ := Option.map_eq_some_iff.1 hi.symm
  exact ⟨v, hv, hcell.symm⟩

/-- What a buffer holds: its elements in logical order, each in the cell of its offset, and the
filling value in all other cells. -/
structure Holds (l : Layout) (values : List Float32) (b : HostBuffer) : Prop where
  accepts : ∀ next, (∃ c, b.write next = .ok c) ↔ next.length = l.count
  read : b.read = .ok values
  cells : ∃ cells, b.raw = .ok cells ∧ cells.length = l.paddedCount ∧
    (∀ c, l.size.contains c = true → ∃ o v, l.elementOffset c = .ok o ∧ cells[o]? = some v ∧
      values[l.size.position c]? = some v) ∧
    ∀ o < l.paddedCount, (∀ c, l.elementOffset c ≠ .ok o) → cells[o]? = some l.padding.fill

theorem Shows.holds (ht : l.type = .float32) (h : b.Shows l values) : b.Holds l values := by
  have hb : b.layout.type = .float32 := h.layout ▸ ht
  refine ⟨fun next => ?_, h.read, b.cells.toList, if_pos hb, ?_, fun c hc => ?_,
    fun o ho hnot => ?_⟩
  · simp only [write_eq_ok_iff, h.layout, ht, true_and, exists_and_left, exists_eq, and_true]
  · rw [Array.length_toList, h.proper.sized hb, h.layout]
  · obtain ⟨v, hv, hcell⟩ := h.element hc
    exact ⟨l.offset c, v, (l.elementOffset_eq_ok_iff c _).2 ⟨hc, rfl⟩, by simpa using hcell, hv⟩
  · have hmem : o ∉ l.offsets := fun hm => by
      obtain ⟨c, hc, rfl⟩ := List.mem_map.1 hm
      exact hnot c ((l.elementOffset_eq_ok_iff c _).2 ⟨(l.size.mem_coordinates c).1 hc, rfl⟩)
    simpa [h.layout] using h.proper.padding hb o (h.layout.symm ▸ ho) (h.layout.symm ▸ hmem)

theorem holds_lastAccepted (ht : l.type = .float32) (calls : List (List Float32)) :
    (calls.foldl attempt (fresh l)).Holds l (lastAccepted l calls) :=
  ((shows_fresh ht).foldl ht calls).holds ht

theorem holds_lastAccepted_framed :
    let l : Layout := ⟨.float32, .yxfb, ⟨1, 2, 1, 2⟩, ⟨⟨0, 0, 1, 0⟩, ⟨0, 0, 0, 1⟩, -1⟩⟩
    l.type = .float32 ∧ ([[1, 2, 3, 4], [5]].foldl attempt (fresh l)).Holds l [1, 2, 3, 4] := by
  intro l
  have ht : l.type = .float32 := rfl
  exact ⟨ht, holds_lastAccepted ht [[1, 2, 3, 4], [5]]⟩

end HostBuffer

end InferenceGraph
