import Mathlib.Data.List.Basic
import Mathlib.Logic.Function.Basic

set_option autoImplicit false

namespace InferenceGraph.Text

variable {α β : Type} {P : α → Prop} {Q : β → Prop} {f : α → String} {g : β → String}

/-- Among the values that are `P`, the written form tells the value and where it ends. -/
def Delimited (P : α → Prop) (f : α → String) : Prop :=
  ∀ ⦃x y : α⦄, P x → P y → ∀ ⦃r s : List Char⦄,
    (f x).toList ++ r = (f y).toList ++ s → x = y ∧ r = s

theorem Delimited.eq (h : Delimited P f) {x y : α} (hx : P x) (hy : P y) (he : f x = f y) :
    x = y :=
  (h hx hy (r := []) (s := []) (by rw [he])).1

theorem append_cons_inj {c : Char} {a b r s : List Char} (ha : c ∉ a) (hb : c ∉ b)
    (h : a ++ c :: r = b ++ c :: s) : a = b ∧ r = s := by
  induction a generalizing b with
  | nil =>
    cases b with
    | nil => exact ⟨rfl, (List.cons.inj h).2⟩
    | cons d b => exact absurd ((List.cons.inj h).1 ▸ List.mem_cons_self) hb
  | cons d a ih =>
    obtain ⟨hd, ha⟩ := not_or.1 (mt List.mem_cons.2 ha)
    cases b with
    | nil => exact absurd (List.cons.inj h).1.symm hd
    | cons e b =>
      obtain ⟨rfl, htail⟩ := List.cons.inj h
      obtain ⟨rfl, hrs⟩ := ih ha (not_or.1 (mt List.mem_cons.2 hb)).2 htail
      exact ⟨rfl, hrs⟩

theorem Delimited.congr (h : Delimited P f) {f' : α → String} (he : ∀ x, f' x = f x) :
    Delimited P f' := by
  rwa [funext he]

theorem Delimited.mono (h : Delimited P f) {P' : α → Prop} (hP : ∀ x, P' x → P x) :
    Delimited P' f :=
  fun _ _ hx hy => h (hP _ hx) (hP _ hy)

theorem delimited_field (ending : String) {c : Char} {rest : List Char}
    (he : ending.toList = c :: rest) :
    Delimited (fun text : String => c ∉ text.toList) fun text => text ++ ending := by
  intro x y hx hy r s h
  rw [String.toList_append, String.toList_append, he, List.append_assoc, List.append_assoc,
    List.cons_append, List.cons_append] at h
  obtain ⟨htext, hrest⟩ := append_cons_inj hx hy h
  exact ⟨String.toList_inj.1 htext, List.append_cancel_left hrest⟩

theorem Delimited.literal (h : Delimited P f) (start : String) :
    Delimited P fun x => start ++ f x := by
  intro x y hx hy r s he
  rw [String.toList_append, String.toList_append, List.append_assoc, List.append_assoc] at he
  exact h hx hy (List.append_cancel_left he)

theorem Delimited.pair (hf : Delimited P f) (hg : Delimited Q g) :
    Delimited (fun x : α × β => P x.1 ∧ Q x.2) fun x => f x.1 ++ g x.2 := by
  rintro ⟨x, x'⟩ ⟨y, y'⟩ ⟨hx, hx'⟩ ⟨hy, hy'⟩ r s he
  rw [String.toList_append, String.toList_append, List.append_assoc, List.append_assoc] at he
  obtain ⟨rfl, he⟩ := hf hx hy he
  obtain ⟨rfl, rfl⟩ := hg hx' hy' he
  exact ⟨rfl, rfl⟩

theorem Delimited.of_injective (h : Delimited P f) {k : β → α} (hk : Function.Injective k)
    (hP : ∀ x, Q x → P (k x)) : Delimited Q fun x => f (k x) := by
  intro x y hx hy r s he
  obtain ⟨hxy, hrs⟩ := h (hP x hx) (hP y hy) he
  exact ⟨hk hxy, hrs⟩

theorem toList_join_cons (f : α → String) (x : α) (xs : List α) (ending : String)
    (r : List Char) :
    (String.join ((x :: xs).map f) ++ ending).toList ++ r =
      (f x).toList ++ ((String.join (xs.map f) ++ ending).toList ++ r) := by
  rw [List.map_cons, String.join_cons, String.append_assoc, String.toList_append,
    List.append_assoc]

/-- Any number of items, and an ending that is not the start of one. -/
theorem Delimited.list (h : Delimited P f) (ending : String)
    (hend : ∀ x (r s : List Char), (f x).toList ++ r ≠ ending.toList ++ s) :
    Delimited (fun xs : List α => ∀ x ∈ xs, P x) fun xs => String.join (xs.map f) ++ ending := by
  have hnil (s : List Char) :
      (String.join (([] : List α).map f) ++ ending).toList ++ s = ending.toList ++ s := by simp
  intro xs
  induction xs with
  | nil =>
    rintro (_ | ⟨y, ys⟩) hx hy r s he
    · exact ⟨rfl, List.append_cancel_left he⟩
    · exact absurd ((toList_join_cons f y ys ending s).symm.trans (he.symm.trans (hnil r)))
        (hend y _ _)
  | cons x xs ih =>
    rintro (_ | ⟨y, ys⟩) hx hy r s he
    · exact absurd ((toList_join_cons f x xs ending r).symm.trans (he.trans (hnil s)))
        (hend x _ _)
    · obtain ⟨hx, hxs⟩ := List.forall_mem_cons.1 hx
      obtain ⟨hy, hys⟩ := List.forall_mem_cons.1 hy
      obtain ⟨rfl, hrest⟩ := h hx hy ((toList_join_cons f x xs ending r).symm.trans
        (he.trans (toList_join_cons f y ys ending s)))
      obtain ⟨rfl, hrs⟩ := ih hxs hys hrest
      exact ⟨rfl, hrs⟩

theorem isDigit_of_mem_repr {n : Nat} {c : Char} (h : c ∈ (Nat.repr n).toList) :
    c.isDigit = true := by
  rw [Nat.toList_repr] at h
  exact Nat.isDigit_of_mem_toDigits (by decide) (by decide) h

theorem not_mem_repr {c : Char} (hc : c.isDigit = false) (n : Nat) : c ∉ (Nat.repr n).toList :=
  fun h => absurd (isDigit_of_mem_repr h) (by simp [hc])

theorem repr_append_ne {c : Char} (hc : c.isDigit = false) (n : Nat) (r s : List Char) :
    (Nat.repr n).toList ++ r ≠ c :: s := by
  intro h
  obtain ⟨d, rest, hd⟩ := List.exists_cons_of_ne_nil (l := (Nat.repr n).toList) (by simp)
  rw [hd] at h
  obtain rfl : d = c := (List.cons.inj h).1
  exact not_mem_repr hc n (hd ▸ List.mem_cons_self)

theorem repr_injective : Function.Injective Nat.repr := by
  intro m n h
  have hdigits : Nat.toDigits 10 m = Nat.toDigits 10 n := by
    rw [← Nat.toList_repr, h, Nat.toList_repr]
  rw [← Nat.ofDigitChars_ten_toDigits (n := m), hdigits, Nat.ofDigitChars_ten_toDigits]

theorem delimited_number (ending : String) {c : Char} {rest : List Char}
    (he : ending.toList = c :: rest) (hc : c.isDigit = false) :
    Delimited (fun _ : Nat => True) fun n => Nat.repr n ++ ending :=
  (delimited_field ending he).of_injective repr_injective fun n _ => not_mem_repr hc n

end InferenceGraph.Text
