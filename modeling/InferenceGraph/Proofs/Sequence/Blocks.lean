set_option autoImplicit false

namespace InferenceGraph

theorem block_le (size : Nat) {k n : Nat} (h : k < n) : k * size + size ≤ n * size := by
  have hm := Nat.mul_le_mul_right size (Nat.succ_le_of_lt h)
  rwa [Nat.succ_mul] at hm

theorem block_lt {size k n j : Nat} (hk : k < n) (hj : j < size) : k * size + j < n * size :=
  Nat.lt_of_lt_of_le (Nat.add_lt_add_left hj _) (block_le size hk)

theorem exists_block {size n i : Nat} (h : i < n * size) :
    ∃ k < n, ∃ j < size, i = k * size + j := by
  have hsize : 0 < size := Nat.pos_of_mul_pos_left (Nat.zero_lt_of_lt h)
  exact ⟨i / size, Nat.div_lt_of_lt_mul (Nat.mul_comm n size ▸ h), i % size, Nat.mod_lt i hsize,
    (Nat.div_add_mod' i size).symm⟩

variable {α : Type}

theorem length_flatten_of_length {xss : List (List α)} {n : Nat}
    (h : ∀ xs ∈ xss, xs.length = n) : xss.flatten.length = xss.length * n := by
  rw [List.length_flatten, List.map_congr_left h, List.map_const', List.sum_replicate_nat]

theorem getElem?_flatten_of_length {xss : List (List α)} {n : Nat}
    (h : ∀ xs ∈ xss, xs.length = n) {k j : Nat} (hj : j < n) :
    xss.flatten[k * n + j]? = xss[k]?.bind fun xs => xs[j]? := by
  induction xss generalizing k with
  | nil => simp
  | cons xs xss ih =>
    have hl := h xs (by simp)
    rw [List.flatten_cons]
    cases k with
    | zero => simp [List.getElem?_append_left, hl, hj]
    | succ k =>
      have hle : xs.length ≤ (k + 1) * n + j := by
        rw [Nat.succ_mul]
        omega
      have he : (k + 1) * n + j - xs.length = k * n + j := by
        rw [Nat.succ_mul]
        omega
      rw [List.getElem?_append_right hle, he, List.getElem?_cons_succ]
      exact ih fun ys hy => h ys (by simp [hy])

theorem take_drop_flatten {xss : List (List α)} {n : Nat} (h : ∀ xs ∈ xss, xs.length = n) {k : Nat}
    {xs : List α} (hk : xss[k]? = some xs) : (xss.flatten.drop (k * n)).take n = xs := by
  have hl := h xs (List.mem_of_getElem? hk)
  refine List.ext_getElem? fun j => ?_
  by_cases hj : j < n
  · rw [List.getElem?_take_of_lt hj, List.getElem?_drop, getElem?_flatten_of_length h hj, hk,
      Option.bind_some]
  · have hle : ((xss.flatten.drop (k * n)).take n).length ≤ j := by
      have ht := List.length_take_le n (xss.flatten.drop (k * n))
      omega
    rw [List.getElem?_eq_none hle, List.getElem?_eq_none (by omega)]

def pickBlocks (size : Nat) (numbers : List Nat) (values : List α) : List α :=
  numbers.flatMap fun k => (values.drop (k * size)).take size

section Pick

variable {size : Nat} {numbers : List Nat} {values : List α}
variable (h : ∀ k ∈ numbers, k * size + size ≤ values.length)
include h

theorem length_of_mem_picked : ∀ xs ∈ numbers.map fun k => (values.drop (k * size)).take size,
    xs.length = size := by
  intro xs hx
  obtain ⟨k, hk, rfl⟩ := List.mem_map.1 hx
  have hle := h k hk
  rw [List.length_take, List.length_drop]
  omega

theorem length_pickBlocks : (pickBlocks size numbers values).length = numbers.length * size := by
  rw [pickBlocks, List.flatMap_def, length_flatten_of_length (length_of_mem_picked h),
    List.length_map]

theorem getElem?_pickBlocks {i j k : Nat} (hk : numbers[k]? = some i) (hj : j < size) :
    (pickBlocks size numbers values)[k * size + j]? = values[i * size + j]? := by
  rw [pickBlocks, List.flatMap_def, getElem?_flatten_of_length (length_of_mem_picked h) hj,
    List.getElem?_map, hk, Option.map_some, Option.bind_some, List.getElem?_take_of_lt hj,
    List.getElem?_drop]

end Pick

variable {f : Nat → List α} {n : Nat} (h : ∀ k, (f k).length = n)
include h

theorem length_of_mem_map_range {m : Nat} : ∀ xs ∈ (List.range m).map f, xs.length = n := by
  intro xs hx
  obtain ⟨k, -, rfl⟩ := List.mem_map.1 hx
  exact h k

theorem length_flatMap_range (m : Nat) : ((List.range m).flatMap f).length = m * n := by
  rw [List.flatMap_def, length_flatten_of_length (length_of_mem_map_range h), List.length_map,
    List.length_range]

theorem getElem?_flatMap_range {m k j : Nat} (hk : k < m) (hj : j < n) :
    ((List.range m).flatMap f)[k * n + j]? = (f k)[j]? := by
  rw [List.flatMap_def, getElem?_flatten_of_length (length_of_mem_map_range h) hj,
    List.getElem?_map, List.getElem?_range hk]
  rfl

end InferenceGraph
