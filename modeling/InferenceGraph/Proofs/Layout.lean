import InferenceGraph.Layout.Element
import Mathlib.Data.List.Nodup

set_option autoImplicit false

namespace InferenceGraph

theorem Padding.same_refl (p : Padding) : p.same p = true := by
  simp [same, Scalar.sameFill_refl]

theorem Padding.same_comm (p q : Padding) : p.same q = q.same p := by
  simp only [same, Scalar.sameFill_comm q.fill, eq_comm]

namespace Layout

theorem same_comm (l m : Layout) : l.same m = m.same l := by
  simp only [same, Padding.same_comm m.padding, eq_comm]

theorem same_refl (l : Layout) : l.same l = true := by
  simp [same, Padding.same_refl]

theorem shape_of_same {l m : Layout} (h : l.same m = true) : l.type = m.type ∧ l.size = m.size := by
  simp only [same, Bool.and_eq_true, decide_eq_true_eq] at h
  obtain ⟨⟨⟨htype, -⟩, hsize⟩, -⟩ := h
  exact ⟨htype, hsize⟩

section Radix

variable {base p q : Axis → Nat} {axes : List Axis}

/-- The number whose digits follow those of a first number. -/
def number (base digit : Axis → Nat) (axes : List Axis) (first : Nat) : Nat :=
  axes.foldl (fun n axis => n * base axis + digit axis) first

def capacity (base : Axis → Nat) (axes : List Axis) : Nat :=
  axes.foldr (fun axis n => base axis * n) 1

theorem number_lt (h : ∀ a ∈ axes, p a < base a) (first : Nat) :
    number base p axes first < (first + 1) * capacity base axes := by
  induction axes generalizing first with
  | nil => simp [number, capacity]
  | cons a axes ih =>
    have hr := ih (fun b hb => h b (by simp [hb])) (first * base a + p a)
    have ha := h a (by simp)
    have hm : first * base a + p a + 1 ≤ (first + 1) * base a := by
      rw [Nat.add_mul, Nat.one_mul]
      omega
    have hle := Nat.mul_le_mul_right (capacity base axes) hm
    rw [Nat.mul_assoc] at hle
    exact Nat.lt_of_lt_of_le hr hle

theorem number_inj (hp : ∀ a ∈ axes, p a < base a) (hq : ∀ a ∈ axes, q a < base a) {n m : Nat}
    (h : number base p axes n = number base q axes m) : n = m ∧ ∀ a ∈ axes, p a = q a := by
  induction axes generalizing n m with
  | nil => exact ⟨h, by simp⟩
  | cons a axes ih =>
    have ha := hp a (by simp)
    have hb := hq a (by simp)
    obtain ⟨hn, hr⟩ := ih (fun b hb => hp b (by simp [hb])) (fun b hb => hq b (by simp [hb])) h
    have hn : n * base a + p a = m * base a + q a := hn
    have hpos : 0 < base a := by omega
    have hmod := congrArg (· % base a) hn
    have hdiv := congrArg (· / base a) hn
    simp only [Nat.mul_add_mod_self_right, Nat.mod_eq_of_lt ha, Nat.mod_eq_of_lt hb] at hmod
    simp only [Nat.mul_comm n, Nat.mul_comm m, Nat.mul_add_div hpos, Nat.div_eq_of_lt ha,
      Nat.div_eq_of_lt hb] at hdiv
    refine ⟨by omega, fun b hb => ?_⟩
    rcases List.mem_cons.1 hb with rfl | hb
    · exact hmod
    · exact hr b hb

end Radix

variable {l : Layout} {c d : Coordinate}

theorem mem_order (f : Format) (a : Axis) : a ∈ f.order := by
  cases f <;> cases a <;> decide

theorem offset_eq_number (l : Layout) (c : Coordinate) :
    l.offset c = number l.paddedSize.get (c + l.padding.lower).get l.format.order 0 := rfl

theorem capacity_order (f : Format) (s : TensorSize) : capacity s.get f.order = s.count := by
  cases f <;>
    simp [capacity, Format.order, TensorSize.get, TensorSize.count, Nat.mul_comm,
      Nat.mul_left_comm]

theorem get_lt_of_contains {s : TensorSize} (h : s.contains c = true) (a : Axis) :
    c.get a < s.get a := by
  simp only [TensorSize.contains, Bool.and_eq_true, decide_eq_true_eq] at h
  cases a <;> simp only [TensorSize.get] <;> omega

theorem digit_lt (h : l.size.contains c = true) (a : Axis) :
    (c + l.padding.lower).get a < l.paddedSize.get a := by
  have hc := get_lt_of_contains h a
  simp only [paddedSize, TensorSize.get_add]
  omega

theorem offset_lt (h : l.size.contains c = true) : l.offset c < l.paddedCount := by
  have hn := number_lt (fun a (_ : a ∈ l.format.order) => digit_lt h a) 0
  rw [capacity_order, Nat.zero_add, Nat.one_mul] at hn
  rw [offset_eq_number]
  exact hn

theorem offset_inj (hc : l.size.contains c = true) (hd : l.size.contains d = true)
    (h : l.offset c = l.offset d) : c = d := by
  rw [offset_eq_number, offset_eq_number] at h
  have hn := (number_inj (fun a _ => digit_lt hc a) (fun a _ => digit_lt hd a) h).2
  refine TensorSize.ext_get fun a => ?_
  have ha := hn a (mem_order l.format a)
  simp only [TensorSize.get_add] at ha
  omega

end Layout

namespace TensorSize

theorem nodup_flatMap_of_key {α β : Type} {l : List α} {f : α → List β} (key : β → α)
    (hl : l.Nodup) (hf : ∀ x, (f x).Nodup) (hk : ∀ x, ∀ y ∈ f x, key y = x) :
    (l.flatMap f).Nodup := by
  rw [List.nodup_flatMap]
  refine ⟨fun x _ => hf x, hl.imp fun {x z} hne y hx hz => ?_⟩
  exact hne ((hk x y hx).symm.trans (hk z y hz))

theorem nodup_coordinates (s : TensorSize) : s.coordinates.Nodup := by
  refine nodup_flatMap_of_key batch List.nodup_range (fun b => ?_) fun b c hc => ?_
  · refine nodup_flatMap_of_key feature List.nodup_range (fun f => ?_) fun f c hc => ?_
    · refine nodup_flatMap_of_key y List.nodup_range (fun y => ?_) fun y c hc => ?_
      · refine List.Nodup.map (fun x x' h => ?_) List.nodup_range
        exact congrArg TensorSize.x h
      · obtain ⟨x, -, rfl⟩ := List.mem_map.1 hc
        rfl
    · obtain ⟨y, -, hc⟩ := List.mem_flatMap.1 hc
      obtain ⟨x, -, rfl⟩ := List.mem_map.1 hc
      rfl
  · obtain ⟨f, -, hc⟩ := List.mem_flatMap.1 hc
    obtain ⟨y, -, hc⟩ := List.mem_flatMap.1 hc
    obtain ⟨x, -, rfl⟩ := List.mem_map.1 hc
    rfl

end TensorSize

namespace Layout

theorem nodup_offsets (l : Layout) : l.offsets.Nodup := by
  refine List.Nodup.map_on (fun c hc d hd h => ?_) l.size.nodup_coordinates
  exact offset_inj ((l.size.mem_coordinates c).1 hc) ((l.size.mem_coordinates d).1 hd) h

theorem lt_of_mem_offsets {l : Layout} {o : Nat} (h : o ∈ l.offsets) : o < l.paddedCount := by
  obtain ⟨c, hc, rfl⟩ := List.mem_map.1 h
  exact offset_lt ((l.size.mem_coordinates c).1 hc)

end Layout

end InferenceGraph
