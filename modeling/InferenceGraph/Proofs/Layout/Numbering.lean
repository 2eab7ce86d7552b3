import InferenceGraph.Proofs.Layout
import InferenceGraph.Proofs.Sequence.Blocks
import Mathlib.Data.List.Perm.Subperm

/-!
# The numbering of elements

The offsets of a layout number its elements in the order of the axes of the format, the outermost
first. The numbers stay inside the padded box, and without padding none is left out. No value on the
way to an offset is larger than the last one may be, so offsets fit into the words in which the
padded box can be counted.
-/

set_option autoImplicit false

namespace InferenceGraph.Layout

section Radix

variable {base p q : Axis → Nat} {axes : List Axis}

theorem leading_lt_iff {b n m x y : Nat} (hx : x < b) (hy : y < b) :
    n * b + x < m * b + y ↔ n < m ∨ n = m ∧ x < y := by
  rcases Nat.lt_trichotomy n m with h | rfl | h
  · have hle := block_le b h
    omega
  · omega
  · have hle := block_le b h
    omega

theorem number_lt_iff (hp : ∀ a ∈ axes, p a < base a) (hq : ∀ a ∈ axes, q a < base a) {n m : Nat} :
    number base p axes n < number base q axes m ↔ n < m ∨ n = m ∧ axes.map p < axes.map q := by
  induction axes generalizing n m with
  | nil => simp [number]
  | cons a axes ih =>
    have ha := hp a (by simp)
    have hb := hq a (by simp)
    have hlt : n * base a + p a < m * base a + q a ↔ n < m ∨ n = m ∧ p a < q a :=
      leading_lt_iff ha hb
    have heq : n * base a + p a = m * base a + q a ↔ n = m ∧ p a = q a := by
      have hgt : m * base a + q a < n * base a + p a ↔ m < n ∨ m = n ∧ q a < p a :=
        leading_lt_iff hb ha
      omega
    have hr : number base p (a :: axes) n < number base q (a :: axes) m ↔ _ :=
      ih (fun b hb => hp b (by simp [hb])) (fun b hb => hq b (by simp [hb]))
    rw [hr, hlt, heq, List.map_cons, List.map_cons, List.cons_lt_cons_iff, or_assoc, and_assoc,
      ← and_or_left]

theorem map_add_lt_iff (k : Axis → Nat) :
    axes.map (fun a => p a + k a) < axes.map (fun a => q a + k a) ↔ axes.map p < axes.map q := by
  induction axes with
  | nil => simp
  | cons a axes ih =>
    simp only [List.map_cons, List.cons_lt_cons_iff, ih, Nat.add_lt_add_iff_right,
      Nat.add_right_cancel_iff]

theorem capacity_pos (h : ∀ a ∈ axes, p a < base a) : 0 < capacity base axes := by
  induction axes with
  | nil => exact Nat.one_pos
  | cons a axes ih =>
    have ha := Nat.zero_lt_of_lt (h a (by simp))
    exact Nat.mul_pos ha (ih fun b hb => h b (by simp [hb]))

theorem capacity_take_le (h : ∀ a ∈ axes, p a < base a) (k : Nat) :
    capacity base (axes.take k) ≤ capacity base axes := by
  induction axes generalizing k with
  | nil => simp
  | cons a axes ih =>
    cases k with
    | zero => exact capacity_pos h
    | succ k => exact Nat.mul_le_mul_left _ (ih (fun b hb => h b (by simp [hb])) k)

end Radix

variable {l : Layout} {c d : Coordinate}

theorem offset_lt_iff (hc : l.size.contains c = true) (hd : l.size.contains d = true) :
    l.offset c < l.offset d ↔ l.format.order.map c.get < l.format.order.map d.get := by
  have hget : ∀ e : Coordinate, (e + l.padding.lower).get = fun a => e.get a + l.padding.lower.get a :=
    fun e => funext fun a => TensorSize.get_add e l.padding.lower a
  rw [offset_eq_number, offset_eq_number,
    number_lt_iff (fun a _ => digit_lt hc a) (fun a _ => digit_lt hd a), hget, hget, map_add_lt_iff]
  simp

def offsetUpTo (l : Layout) (c : Coordinate) (axes : Nat) : Nat :=
  (l.format.order.take axes).foldl
    (fun offset axis => offset * l.paddedSize.get axis + (c + l.padding.lower).get axis) 0

theorem offsetUpTo_all (l : Layout) (c : Coordinate) :
    l.offsetUpTo c l.format.order.length = l.offset c := by
  rw [offsetUpTo, List.take_length, offset]

theorem offsetUpTo_lt (h : l.size.contains c = true) (axes : Nat) :
    l.offsetUpTo c axes < l.paddedCount := by
  have hdigit : ∀ a ∈ l.format.order, (c + l.padding.lower).get a < l.paddedSize.get a :=
    fun a _ => digit_lt h a
  have hn : l.offsetUpTo c axes < (0 + 1) * capacity l.paddedSize.get (l.format.order.take axes) :=
    number_lt (fun a ha => hdigit a (List.mem_of_mem_take ha)) 0
  rw [Nat.zero_add, Nat.one_mul] at hn
  have hle := capacity_take_le hdigit axes
  rw [capacity_order] at hle
  exact Nat.lt_of_lt_of_le hn hle

theorem offsets_perm_range (h : l.isPadded = false) : l.offsets.Perm (List.range l.count) := by
  have hnone : l.padding.lower = .zero ∧ l.padding.upper = .zero := by
    simpa [isPadded, Padding.isNone] using h
  have hsize : l.paddedSize = l.size := by
    refine TensorSize.ext_get fun a => ?_
    rw [paddedSize, hnone.1, hnone.2]
    cases a <;> rfl
  have hsub : l.offsets ⊆ List.range l.count := fun o ho => by
    have hlt := lt_of_mem_offsets ho
    rwa [paddedCount, hsize, ← count, ← List.mem_range] at hlt
  refine (List.subperm_of_subset l.nodup_offsets hsub).perm_of_length_le (Nat.le_of_eq ?_)
  rw [List.length_range, length_offsets]

/-- What the offsets of the elements of a layout are. -/
structure Numbered (l : Layout) : Prop where
  inside : ∀ c, l.size.contains c = true → ∃ o, l.elementOffset c = .ok o ∧ o < l.paddedCount
  outside : ∀ c, l.size.contains c = false → l.elementOffset c = .breach (.coordinate c l)
  upTo : ∀ c, l.size.contains c = true → (∀ axes, l.offsetUpTo c axes < l.paddedCount) ∧
    l.elementOffset c = .ok (l.offsetUpTo c l.format.order.length)
  lt_iff : ∀ c d o o', l.elementOffset c = .ok o → l.elementOffset d = .ok o' →
    (o < o' ↔ l.format.order.map c.get < l.format.order.map d.get)
  injective : ∀ c d o, l.elementOffset c = .ok o → l.elementOffset d = .ok o → c = d
  all : l.isPadded = false → ∀ o, (∃ c, l.elementOffset c = .ok o) ↔ o < l.count

theorem exists_elementOffset_iff {o : Nat} : (∃ c, l.elementOffset c = .ok o) ↔ o ∈ l.offsets := by
  simp only [elementOffset_eq_ok_iff, offsets, List.mem_map, TensorSize.mem_coordinates]

theorem numbered (l : Layout) : l.Numbered := by
  constructor
  case inside =>
    exact fun c hc => ⟨l.offset c, (l.elementOffset_eq_ok_iff c _).2 ⟨hc, rfl⟩, offset_lt hc⟩
  case outside =>
    intro c hc
    rw [elementOffset, hc]
    rfl
  case upTo =>
    intro c hc
    refine ⟨offsetUpTo_lt hc, ?_⟩
    rw [offsetUpTo_all]
    exact (l.elementOffset_eq_ok_iff c _).2 ⟨hc, rfl⟩
  case lt_iff =>
    intro c d o o' hc hd
    obtain ⟨hinc, rfl⟩ := (l.elementOffset_eq_ok_iff c o).1 hc
    obtain ⟨hind, rfl⟩ := (l.elementOffset_eq_ok_iff d o').1 hd
    exact offset_lt_iff hinc hind
  case injective =>
    intro c d o hc hd
    obtain ⟨hc, ho⟩ := (l.elementOffset_eq_ok_iff c o).1 hc
    obtain ⟨hd, ho'⟩ := (l.elementOffset_eq_ok_iff d o).1 hd
    exact offset_inj hc hd (ho.trans ho'.symm)
  case all =>
    intro h o
    rw [exists_elementOffset_iff, (offsets_perm_range h).mem_iff, List.mem_range]

end InferenceGraph.Layout
