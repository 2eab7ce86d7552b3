import InferenceGraph.Buffer
import InferenceGraph.Proofs.Layout
import InferenceGraph.Proofs.Sequence

set_option autoImplicit false

namespace InferenceGraph

namespace HostBuffer

theorem getElem?_putCells_of_not_mem {places : List (Nat × Float32)} {o : Nat}
    (h : o ∉ places.map Prod.fst) (cells : Array Float32) :
    (putCells cells places)[o]? = cells[o]? := by
  induction places generalizing cells with
  | nil => rfl
  | cons place places ih =>
    rw [List.map_cons, List.mem_cons, not_or] at h
    have hr := ih h.2 (cells.setIfInBounds place.1 place.2)
    rw [Array.getElem?_setIfInBounds_ne (Ne.symm h.1)] at hr
    exact hr

theorem getElem?_putCells_of_mem {places : List (Nat × Float32)} (hn : (places.map Prod.fst).Nodup)
    {o : Nat} {v : Float32} (h : (o, v) ∈ places) {cells : Array Float32} (hl : o < cells.size) :
    (putCells cells places)[o]? = some v := by
  induction places generalizing cells with
  | nil => cases h
  | cons place places ih =>
    obtain ⟨hp, hn⟩ := List.nodup_cons.1 hn
    rcases List.mem_cons.1 h with rfl | h
    · have hr := getElem?_putCells_of_not_mem hp (cells.setIfInBounds o v)
      rw [Array.getElem?_setIfInBounds_self_of_lt hl] at hr
      exact hr
    · exact ih hn h (by simpa using hl)

def Sized (b : HostBuffer) : Prop :=
  b.layout.type = .float32 → b.cells.size = b.layout.paddedCount

theorem sized_fresh (l : Layout) : (fresh l).Sized := by
  intro h
  have h : l.type = .float32 := h
  simp [fresh, h]

theorem write_eq_ok_iff {b c : HostBuffer} {values : List Float32} :
    b.write values = .ok c ↔ values.length = b.layout.count ∧ b.layout.type = .float32 ∧
      c = { b with cells := putCells b.cells (b.layout.offsets.zip values) } := by
  unfold write Outcome.breach
  by_cases hl : values.length = b.layout.count
  · by_cases ht : b.layout.type = .float32
    · simp [hl, ht, eq_comm]
    · simp [hl, ht]
  · simp [hl]

theorem read_eq_ok_iff {b : HostBuffer} {values : List Float32} :
    b.read = .ok values ↔ b.layout.type = .float32 ∧
      b.layout.offsets.map (b.cells[·]?) = values.map some := by
  unfold read
  split
  · next ht =>
    rw [mapM_eq_ok_iff_of_option fun o v => Outcome.get_eq_ok_iff]
    simp [ht]
  · next ht => simp [ht, Outcome.breach]

theorem length_of_read {b : HostBuffer} {values : List Float32} (h : b.read = .ok values) :
    values.length = b.layout.count := by
  have hl := congrArg List.length (read_eq_ok_iff.1 h).2
  simpa using hl.symm

theorem Sized.exists_read {b : HostBuffer} (h : b.Sized) (ht : b.layout.type = .float32) :
    ∃ values, b.read = .ok values := by
  obtain ⟨values, hv⟩ : ∃ values : List Float32,
      b.layout.offsets.map (b.cells[·]?) = values.map some := by
    refine exists_map_some fun o ho => ?_
    have hlt : o < b.cells.size := h ht ▸ Layout.lt_of_mem_offsets ho
    exact ⟨_, Array.getElem?_eq_getElem hlt⟩
  exact ⟨values, read_eq_ok_iff.2 ⟨ht, hv⟩⟩

theorem Sized.write {b c : HostBuffer} {values : List Float32} (h : b.Sized)
    (hw : b.write values = .ok c) : c.Sized := by
  obtain ⟨-, -, rfl⟩ := write_eq_ok_iff.1 hw
  intro ht
  rw [← h ht]
  exact size_putCells _ _

theorem getElem?_of_write {b c : HostBuffer} {values : List Float32} (hw : b.write values = .ok c)
    {o : Nat} {v : Float32} (hm : (o, v) ∈ b.layout.offsets.zip values) (ho : o < c.cells.size) :
    c.cells[o]? = some v := by
  obtain ⟨hl, -, rfl⟩ := write_eq_ok_iff.1 hw
  have hfst : (b.layout.offsets.zip values).map Prod.fst = b.layout.offsets :=
    List.map_fst_zip (by simp [hl])
  have hn : ((b.layout.offsets.zip values).map Prod.fst).Nodup := by
    rw [hfst]
    exact b.layout.nodup_offsets
  exact getElem?_putCells_of_mem hn hm (by simpa using ho)

theorem eq_of_read_of_write {b c : HostBuffer} {values read : List Float32}
    (hw : b.write values = .ok c) (hr : c.read = .ok read) : read = values := by
  have hlayout := layout_of_write hw
  have hl := (write_eq_ok_iff.1 hw).1
  have hlen := length_of_read hr
  have hcells := (read_eq_ok_iff.1 hr).2
  rw [hlayout] at hlen hcells
  refine List.ext_getElem (by omega) fun i hi hi' => ?_
  have ho : i < b.layout.offsets.length := by simp; omega
  have hm : (b.layout.offsets[i], values[i]) ∈ b.layout.offsets.zip values :=
    List.mem_iff_getElem.2 ⟨i, by rw [List.length_zip]; omega, List.getElem_zip⟩
  have hcell := congrArg (·[i]?) hcells
  simp only [List.getElem?_map, List.getElem?_eq_getElem ho, List.getElem?_eq_getElem hi,
    Option.map_some, Option.some.injEq] at hcell
  have hwritten := getElem?_of_write hw hm (Array.getElem?_eq_some_iff.1 hcell).1
  exact Option.some.inj (hcell.symm.trans hwritten)

theorem Sized.read_of_write {b c : HostBuffer} {values : List Float32} (h : b.Sized)
    (hw : b.write values = .ok c) : c.read = .ok values := by
  have ht := (write_eq_ok_iff.1 hw).2.1
  obtain ⟨read, hr⟩ := (h.write hw).exists_read (layout_of_write hw ▸ ht)
  rw [hr, eq_of_read_of_write hw hr]

/-- The buffer differs from a fresh one in nothing but its elements. -/
structure Proper (b : HostBuffer) : Prop where
  sized : b.Sized
  padding : b.layout.type = .float32 → ∀ o < b.layout.paddedCount, o ∉ b.layout.offsets →
    b.cells[o]? = some b.layout.padding.fill

theorem getElem?_fresh {l : Layout} (ht : l.type = .float32) {o : Nat} (ho : o < l.paddedCount) :
    (fresh l).cells[o]? = some l.padding.fill := by
  simp [fresh, ht, ho]

theorem proper_fresh (l : Layout) : (fresh l).Proper :=
  ⟨sized_fresh l, fun ht _ ho _ => getElem?_fresh ht ho⟩

theorem Proper.write {b c : HostBuffer} {values : List Float32} (h : b.Proper)
    (hw : b.write values = .ok c) : c.Proper := by
  refine ⟨h.sized.write hw, fun ht o ho hnot => ?_⟩
  obtain ⟨hl, -, rfl⟩ := write_eq_ok_iff.1 hw
  have hfst : (b.layout.offsets.zip values).map Prod.fst = b.layout.offsets :=
    List.map_fst_zip (by simp [hl])
  exact (getElem?_putCells_of_not_mem (hfst.symm ▸ hnot) b.cells).trans (h.padding ht o ho hnot)

end HostBuffer

namespace Store

variable {s : Store} {m m' : Memory} {b : HostBuffer}

def values? (s : Store) (m : Memory) : Option (List Float32) :=
  (s.hostBuffer? m).bind fun b => b.read.toOption

theorem layout_of_hostBuffer? (h : s.hostBuffer? m = some b) : b.layout = m.layout := by
  unfold hostBuffer? at h
  cases hp : m.place with
  | elsewhere => simp [hp] at h
  | host slot =>
    simp only [hp, Option.map_eq_some_iff] at h
    obtain ⟨cells, -, rfl⟩ := h
    rfl

theorem hostBuffer?_setCells_self (h : s.hostBuffer? m = some b) (cells : Array Float32) :
    (s.setCells m cells).hostBuffer? m = some ⟨m.layout, cells⟩ := by
  unfold hostBuffer? at h
  cases hp : m.place with
  | elsewhere => simp [hp] at h
  | host slot =>
    simp only [hp, Option.map_eq_some_iff] at h
    obtain ⟨old, ho, -⟩ := h
    have hl := (Array.getElem?_eq_some_iff.1 ho).1
    simp [setCells, hostBuffer?, hp, Array.getElem?_setIfInBounds_self_of_lt hl]

theorem hostBuffer?_setCells_of_ne (h : m.place ≠ m'.place) (cells : Array Float32) :
    (s.setCells m cells).hostBuffer? m' = s.hostBuffer? m' := by
  unfold setCells hostBuffer?
  cases hp : m.place with
  | elsewhere => rfl
  | host slot =>
    cases hp' : m'.place with
    | elsewhere => rfl
    | host slot' =>
      have hne : slot ≠ slot' := fun he => h (by rw [hp, hp', he])
      simp only [Array.getElem?_setIfInBounds_ne hne]

theorem hostBuffer?_insert_of_some (h : s.hostBuffer? m = some b) (c : Buffer) :
    (s.insert c).2.hostBuffer? m = some b := by
  cases c with
  | elsewhere l => exact h
  | host c =>
    unfold hostBuffer? at h ⊢
    cases hp : m.place with
    | elsewhere => simp [hp] at h
    | host slot =>
      simp only [hp, Option.map_eq_some_iff] at h ⊢
      obtain ⟨cells, hc, rfl⟩ := h
      have hl := (Array.getElem?_eq_some_iff.1 hc).1
      exact ⟨cells, by simp only [insert]; rw [Array.getElem?_push_lt hl, ← hc]; simp [hl], rfl⟩

theorem place_insert_ne (h : s.hostBuffer? m = some b) (c : HostBuffer) :
    (s.insert (.host c)).1.place ≠ m.place := by
  intro he
  unfold hostBuffer? at h
  rw [← he] at h
  simp [insert] at h

end Store

end InferenceGraph
