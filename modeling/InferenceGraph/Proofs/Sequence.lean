import InferenceGraph.GraphError
import Mathlib.Data.List.Nodup
import Mathlib.Data.List.Perm.Subperm

set_option autoImplicit false

namespace InferenceGraph

variable {α β γ : Type}

@[simp] theorem ok_bind (a : α) (f : α → Except γ β) : (Except.ok a >>= f) = f a := rfl

@[simp] theorem error_bind (e : γ) (f : α → Except γ β) : (Except.error e >>= f) = .error e := rfl

@[simp] theorem pure_eq_ok (a : α) : (pure a : Except γ α) = .ok a := rfl

@[simp] theorem Outcome.get_some (c : Breach) (a : α) : Outcome.get c (some a) = .ok a := rfl

theorem Outcome.get_eq_error_iff {c : Breach} {o : Option α} {e : Failure} :
    Outcome.get c o = .error e ↔ o = none ∧ e = .breach c := by
  cases o <;> simp [Outcome.get, Outcome.breach, eq_comm]

theorem Outcome.ofExcept_eq_error_iff {x : Except GraphError α} {e : Failure} :
    Outcome.ofExcept x = .error e ↔ ∃ cause, x = .error cause ∧ e = .error cause := by
  cases x <;> simp [Outcome.ofExcept, Outcome.fail, eq_comm]

theorem bind_eq_ok_iff {x : Except γ α} {f : α → Except γ β} {b : β} :
    (x >>= f) = .ok b ↔ ∃ a, x = .ok a ∧ f a = .ok b := by
  cases x <;> simp

theorem bind_eq_error_iff {x : Except γ α} {f : α → Except γ β} {e : γ} :
    (x >>= f) = .error e ↔ x = .error e ∨ ∃ a, x = .ok a ∧ f a = .error e := by
  cases x <;> simp

theorem toOption_eq_some_iff {x : Except γ α} {a : α} : x.toOption = some a ↔ x = .ok a := by
  cases x <;> simp [Except.toOption]

theorem mapM_eq_ok_iff {f : α → Except γ β} {xs : List α} {ys : List β} :
    xs.mapM f = .ok ys ↔ xs.map f = ys.map .ok := by
  induction xs generalizing ys with
  | nil => cases ys <;> simp [pure, Except.pure]
  | cons x xs ih =>
    rw [List.mapM_cons]
    cases hx : f x with
    | error e => cases ys <;> simp [bind, Except.bind, hx]
    | ok y =>
      cases hr : xs.mapM f with
      | error e =>
        have h : ∀ zs : List β, xs.map f ≠ zs.map .ok := fun zs hz => by
          simp [ih.2 hz] at hr
        cases ys <;> simp [bind, Except.bind, hx, h]
      | ok zs =>
        have h := ih.1 hr
        cases ys with
        | nil => simp [bind, Except.bind, pure, Except.pure]
        | cons w ws =>
          have hi : (zs.map (@Except.ok γ β) = ws.map .ok) ↔ zs = ws :=
            (List.map_injective_iff.2 fun a b hab => Except.ok.inj hab).eq_iff
          simp [bind, Except.bind, pure, Except.pure, hx, h, hi]

theorem map_eq_map_map {β' γ' : Type} {f : α → β'} {g : α → γ'} {i : β → β'} {j : γ → γ'}
    {h : β → γ} (hg : ∀ x y, f x = i y → g x = j (h y)) {xs : List α} {ys : List β}
    (he : xs.map f = ys.map i) : xs.map g = (ys.map h).map j := by
  induction xs generalizing ys with
  | nil => cases ys <;> simp_all
  | cons x xs ih =>
    cases ys with
    | nil => simp at he
    | cons y ys =>
      simp only [List.map_cons, List.cons.injEq] at he ⊢
      exact ⟨hg x y he.1, ih he.2⟩

theorem mapM_eq_ok_iff_of_option {f : α → Except γ β} {g : α → Option β}
    (h : ∀ x y, f x = .ok y ↔ g x = some y) {xs : List α} {ys : List β} :
    xs.mapM f = .ok ys ↔ xs.map g = ys.map some := by
  rw [mapM_eq_ok_iff]
  constructor
  · intro he
    have hm := map_eq_map_map (h := id) (fun x y => (h x y).1) he
    rwa [List.map_id] at hm
  · intro he
    have hm := map_eq_map_map (h := id) (fun x y => (h x y).2) he
    rwa [List.map_id] at hm

theorem map_inverse {f : α → Option β} {g : β → Option α}
    (h : ∀ x y, f x = some y → g y = some x) {xs : List α} {ys : List β}
    (he : xs.map f = ys.map some) : ys.map g = xs.map some := by
  have hm := map_eq_map_map (h := id) (fun y x hx => h x y hx.symm) he.symm
  rwa [List.map_id] at hm

theorem map_some_injective {xs ys : List α} (h : xs.map some = ys.map some) : xs = ys :=
  List.map_injective_iff.2 (fun _ _ h => Option.some.inj h) h

theorem filterMap_eq_of_map {f : α → Option β} {xs : List α} {ys : List β}
    (h : xs.map f = ys.map some) : xs.filterMap f = ys := by
  simpa [List.filterMap_map] using congrArg (List.filterMap id) h

theorem exists_map_some {f : α → Option β} {xs : List α} (h : ∀ x ∈ xs, ∃ y, f x = some y) :
    ∃ ys : List β, xs.map f = ys.map some := by
  induction xs with
  | nil => exact ⟨[], rfl⟩
  | cons x xs ih =>
    obtain ⟨y, hy⟩ := h x (by simp)
    obtain ⟨ys, hys⟩ := ih fun z hz => h z (by simp [hz])
    exact ⟨y :: ys, by rw [List.map_cons, List.map_cons, hy, hys]⟩

theorem mapM_option_eq_some_iff {f : α → Option β} {xs : List α} {ys : List β} :
    xs.mapM f = some ys ↔ xs.map f = ys.map some := by
  induction xs generalizing ys with
  | nil => cases ys <;> simp
  | cons x xs ih =>
    rw [List.mapM_cons]
    cases hx : f x with
    | none => cases ys <;> simp [hx]
    | some y => cases ys <;> simp [hx, Option.bind_eq_some_iff, ih, and_comm]

theorem mapM_congr_of_mem {m : Type → Type} [Monad m] [LawfulMonad m] {f g : α → m β} {xs : List α}
    (he : ∀ x ∈ xs, f x = g x) : xs.mapM f = xs.mapM g := by
  induction xs with
  | nil => rfl
  | cons x xs ih =>
    rw [List.mapM_cons, List.mapM_cons, he x (by simp), ih fun y hy => he y (by simp [hy])]

theorem getElem?_concat_eq_some_iff {xs : List α} {x y : α} {k : Nat} :
    (xs ++ [x])[k]? = some y ↔ xs[k]? = some y ∨ k = xs.length ∧ x = y := by
  grind

theorem getElem?_of_drop {xs rest : List α} {x : α} {k : Nat} (h : xs.drop k = x :: rest) :
    xs[k]? = some x ∧ xs.drop (k + 1) = rest := by
  refine ⟨?_, by rw [← List.drop_drop, h]; rfl⟩
  rw [← List.head?_drop, h]
  rfl

theorem length_of_mapM {f : α → Except γ β} {xs : List α} {ys : List β}
    (h : xs.mapM f = .ok ys) : ys.length = xs.length := by
  simpa using (congrArg List.length (mapM_eq_ok_iff.1 h)).symm

theorem getElem?_of_mapM {f : α → Except γ β} {xs : List α} {ys : List β}
    (h : xs.mapM f = .ok ys) {i : Nat} {x : α} (hx : xs[i]? = some x) :
    ∃ y, ys[i]? = some y ∧ f x = .ok y := by
  have hi := congrArg (·[i]?) (mapM_eq_ok_iff.1 h)
  simp only [List.getElem?_map, hx, Option.map_some] at hi
  cases hy : ys[i]? with
  | none => simp [hy] at hi
  | some y => exact ⟨y, rfl, by simpa [hy] using hi⟩

theorem getElem?_source_of_mapM {f : α → Except γ β} {xs : List α} {ys : List β}
    (h : xs.mapM f = .ok ys) {i : Nat} {y : β} (hy : ys[i]? = some y) :
    ∃ x, xs[i]? = some x ∧ f x = .ok y := by
  have hi := congrArg (·[i]?) (mapM_eq_ok_iff.1 h)
  simp only [List.getElem?_map, hy, Option.map_some] at hi
  cases hx : xs[i]? with
  | none => simp [hx] at hi
  | some x => exact ⟨x, rfl, by simpa [hx] using hi⟩

theorem exists_of_mapM {f : α → Except γ β} {xs : List α} {ys : List β}
    (h : xs.mapM f = .ok ys) {x : α} (hx : x ∈ xs) : ∃ y ∈ ys, f x = .ok y := by
  obtain ⟨i, hi⟩ := List.mem_iff_getElem?.1 hx
  obtain ⟨y, hy, hf⟩ := getElem?_of_mapM h hi
  exact ⟨y, List.mem_of_getElem? hy, hf⟩

theorem exists_source_of_mapM {f : α → Except γ β} {xs : List α} {ys : List β}
    (h : xs.mapM f = .ok ys) {y : β} (hy : y ∈ ys) : ∃ x ∈ xs, f x = .ok y := by
  obtain ⟨i, hi⟩ := List.mem_iff_getElem?.1 hy
  obtain ⟨x, hx, hf⟩ := getElem?_source_of_mapM h hi
  exact ⟨x, List.mem_of_getElem? hx, hf⟩

theorem mapM_ok_of_forall {f : α → Except γ β} {xs : List α} (h : ∀ x ∈ xs, ∃ y, f x = .ok y) :
    ∃ ys, xs.mapM f = .ok ys := by
  induction xs with
  | nil => exact ⟨[], rfl⟩
  | cons x xs ih =>
    obtain ⟨y, hy⟩ := h x (by simp)
    obtain ⟨ys, hys⟩ := ih fun z hz => h z (by simp [hz])
    exact ⟨y :: ys, by rw [List.mapM_cons, hy, hys]; rfl⟩

theorem mapM_ok_of_eq_ok {f : α → Except γ β} {g : α → β} {xs : List α}
    (h : ∀ x ∈ xs, f x = .ok (g x)) : xs.mapM f = .ok (xs.map g) := by
  rw [mapM_eq_ok_iff, List.map_map]
  exact List.map_congr_left h

theorem mapM_ok_map {δ ζ : Type} {f : α → Except γ β} {g : α → Except δ ζ} {h : β → ζ}
    (hg : ∀ x y, f x = .ok y → g x = .ok (h y)) {xs : List α} {ys : List β}
    (he : xs.mapM f = .ok ys) : xs.mapM g = .ok (ys.map h) := by
  rw [mapM_eq_ok_iff] at he ⊢
  exact map_eq_map_map hg he

/-- The first element that fails decides. -/
theorem mapM_eq_error {f : α → Except γ β} {xs : List α} {e : γ} (h : xs.mapM f = .error e) :
    ∃ before x after, xs = before ++ x :: after ∧ (∀ z ∈ before, ∃ y, f z = .ok y) ∧
      f x = .error e := by
  induction xs with
  | nil => cases h
  | cons x xs ih =>
    rw [List.mapM_cons] at h
    cases hx : f x with
    | error e' =>
      simp only [hx, bind, Except.bind, Except.error.injEq] at h
      subst h
      exact ⟨[], x, xs, rfl, by simp, hx⟩
    | ok y =>
      cases hr : xs.mapM f with
      | ok ys => simp [hx, hr, bind, Except.bind, pure, Except.pure] at h
      | error e' =>
        obtain ⟨before, z, after, rfl, hb, hz⟩ := ih (by
          simpa [hx, hr, bind, Except.bind] using h)
        refine ⟨x :: before, z, after, rfl, ?_, hz⟩
        intro w hw
        rcases List.mem_cons.1 hw with rfl | hw
        · exact ⟨y, hx⟩
        · exact hb w hw

/-- A loop over numbers: what each step preserves holds at the end, or up to the step that fails. -/
theorem foldlM_range_invariant {f : α → Nat → Except γ α} {P : Nat → α → Prop} {n : Nat} {a : α}
    (h : P 0 a) (step : ∀ k b c, k < n → P k b → f b k = .ok c → P (k + 1) c) :
    match (List.range n).foldlM f a with
    | .ok b => P n b
    | .error e => ∃ k < n, ∃ b, P k b ∧ f b k = .error e := by
  induction n with
  | zero => simpa [pure, Except.pure] using h
  | succ n ih =>
    have ih := ih fun k b c hk => step k b c (by omega)
    rw [List.range_succ, List.foldlM_append]
    cases hr : (List.range n).foldlM f a with
    | error e =>
      obtain ⟨k, hk, hb⟩ : ∃ k < n, ∃ b, P k b ∧ f b k = .error e := by simpa [hr] using ih
      exact ⟨k, by omega, hb⟩
    | ok b =>
      have hb : P n b := by simpa [hr] using ih
      simp only [bind, Except.bind, List.foldlM_cons, List.foldlM_nil]
      cases hs : f b n with
      | error e => exact ⟨n, by omega, b, hb, hs⟩
      | ok c => exact step n b c (by omega) hb hs

theorem nodup_eraseDups {α : Type} [BEq α] [LawfulBEq α] (xs : List α) : xs.eraseDups.Nodup := by
  induction hl : xs.length using Nat.strongRecOn generalizing xs with
  | ind l ih =>
    cases xs with
    | nil => simp
    | cons x xs =>
      have hf := List.length_filter_le (fun b => !b == x) xs
      simp only [List.length_cons] at hl
      rw [List.eraseDups_cons, List.nodup_cons, List.mem_eraseDups]
      exact ⟨by simp, ih _ (by omega) _ rfl⟩

theorem eraseDups_of_nodup [BEq α] [LawfulBEq α] {xs : List α} (h : xs.Nodup) :
    xs.eraseDups = xs := by
  induction xs with
  | nil => rfl
  | cons x xs ih =>
    obtain ⟨hx, h⟩ := List.nodup_cons.1 h
    have hf : (xs.filter fun b => !b == x) = xs := by
      rw [List.filter_eq_self]
      intro b hb
      simpa using ne_of_mem_of_not_mem hb hx
    rw [List.eraseDups_cons, hf, ih h]

theorem eraseDups_map_some [BEq α] [LawfulBEq α] [BEq β] [LawfulBEq β] {f : α → Option β}
    (hf : ∀ a a' b, f a = some b → f a' = some b → a = a') {xs : List α} {ys : List β}
    (h : xs.map f = ys.map some) : xs.eraseDups.map f = ys.eraseDups.map some := by
  induction hl : xs.length using Nat.strongRecOn generalizing xs ys with
  | ind l ih =>
    cases xs with
    | nil =>
      obtain rfl := List.map_eq_nil_iff.1 h.symm
      rfl
    | cons x xs =>
      obtain ⟨y, ys, rfl, hy, hys⟩ := List.map_eq_cons_iff.1 h.symm
      have hlen := List.length_filter_le (fun a => !a == x) xs
      rw [List.length_cons] at hl
      have hrest : (xs.filter fun a => !a == x).map f = (ys.filter fun b => !b == y).map some := by
        have hx : ∀ a, (!a == x) = !f a == some y := fun a => by
          rw [Bool.not_inj_iff, Bool.eq_iff_iff, beq_iff_eq, beq_iff_eq]
          exact ⟨fun h => h ▸ hy.symm, fun ha => hf a x y ha hy.symm⟩
        have hfilter := congrArg (List.filter fun b => !b == some y) hys.symm
        rw [List.filter_map, List.filter_map] at hfilter
        simpa only [Function.comp_def, hx, Option.some_beq_some] using hfilter
      rw [List.eraseDups_cons, List.eraseDups_cons, List.map_cons, List.map_cons, ← hy,
        ih _ (by omega) hrest rfl]

theorem filter_of_sublist [DecidableEq α] {xs ys : List α} (hn : ys.Nodup)
    (h : xs.Sublist ys) : ys.filter (· ∈ xs) = xs := by
  have hs := h.filter (· ∈ xs)
  rw [List.filter_eq_self.2 (by simp)] at hs
  refine (hs.eq_of_length_le ?_).symm
  refine (List.subperm_of_subset (hn.filter _) fun a ha => ?_).length_le
  simpa using (List.mem_filter.1 ha).2

section Lookup

variable [BEq α] [LawfulBEq α]

theorem lookup_eq_some_iff_mem {entries : List (α × β)} (hn : (entries.map Prod.fst).Nodup)
    {key : α} {value : β} : entries.lookup key = some value ↔ (key, value) ∈ entries := by
  induction entries with
  | nil => simp
  | cons e entries ih =>
    obtain ⟨k, v⟩ := e
    obtain ⟨hk, hn⟩ := List.nodup_cons.1 hn
    rw [List.lookup_cons]
    cases he : key == k with
    | true =>
      obtain rfl := eq_of_beq he
      have hm : (key, value) ∉ entries := fun hm => hk (List.mem_map.2 ⟨_, hm, rfl⟩)
      simp [hm, eq_comm]
    | false =>
      have hne : key ≠ k := fun h => by simp [h] at he
      simp [ih hn, hne]

theorem exists_lookup {entries : List (α × β)} {key : α} (h : key ∈ entries.map Prod.fst) :
    ∃ value, entries.lookup key = some value ∧ (key, value) ∈ entries := by
  induction entries with
  | nil => simp at h
  | cons e entries ih =>
    obtain ⟨k, v⟩ := e
    rw [List.lookup_cons]
    cases he : key == k with
    | true =>
      obtain rfl := eq_of_beq he
      exact ⟨v, rfl, by simp⟩
    | false =>
      have hne : key ≠ k := fun h => by simp [h] at he
      obtain ⟨value, hl, hm⟩ := ih (by simpa [hne] using h)
      exact ⟨value, hl, by simp [hm]⟩

theorem lookup_zipIdx_eq_some_iff {xs : List α} (hn : xs.Nodup) {x : α} {i : Nat} :
    xs.zipIdx.lookup x = some i ↔ xs[i]? = some x := by
  rw [lookup_eq_some_iff_mem (by simpa using hn), List.mk_mem_zipIdx_iff_getElem?]

theorem idxOf?_eq_some_iff_of_nodup {xs : List α} (hn : xs.Nodup) {x : α} {i : Nat} :
    xs.idxOf? x = some i ↔ xs[i]? = some x := by
  rw [List.idxOf?_eq_some_iff, List.getElem?_eq_some_iff]
  constructor
  · rintro ⟨h, hx, -⟩
    exact ⟨h, hx⟩
  · rintro ⟨h, hx⟩
    refine ⟨h, hx, fun j hj he => ?_⟩
    have hlt : j < xs.length := by omega
    have := (List.Nodup.getElem_inj_iff hn).1 (show xs[j] = xs[i] from he.trans hx.symm)
    omega

end Lookup

end InferenceGraph
