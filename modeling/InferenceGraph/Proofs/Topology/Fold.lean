import InferenceGraph.Proofs.Topology.Graph

set_option autoImplicit false

namespace InferenceGraph.Topology

variable {ε : Type} [Extension ε] {α : Type} {f : Primitive ε → List α → Option α}

def without (ps : List (Primitive ε)) (id : PrimitiveId) : List (Primitive ε) :=
  ps.filter fun q => q.id ≠ id

theorem length_without_lt {ps : List (Primitive ε)} {p : Primitive ε} {id : PrimitiveId}
    (hm : p ∈ ps) (h : p.id = id) : (without ps id).length < ps.length := by
  have hf : decide (p.id ≠ id) ≠ true := by simp [h]
  exact List.length_filter_lt_length_iff_exists.2 ⟨p, hm, hf⟩

def foldIn (f : Primitive ε → List α → Option α) (ps : List (Primitive ε)) (id : PrimitiveId) :
    Option α :=
  match _h : ps.find? fun p => p.id = id with
  | none => none
  | some p => (p.dependencies.mapM (foldIn f (without ps id))).bind (f p)
termination_by ps.length
decreasing_by
  exact length_without_lt (List.mem_of_find?_eq_some _h) (by simpa using List.find?_some _h)

def fold (t : Topology ε) (f : Primitive ε → List α → Option α) (id : PrimitiveId) : Option α :=
  foldIn f t.primitives id

theorem foldIn_eq (ps : List (Primitive ε)) (id : PrimitiveId) :
    foldIn f ps id = (ps.find? fun p => p.id = id).bind fun p =>
      (p.dependencies.mapM (foldIn f (without ps id))).bind (f p) := by
  unfold foldIn
  split
  · next h => rw [h, Option.bind_none]
  · next p h => rw [h, Option.bind_some]

theorem find?_without (ps : List (Primitive ε)) {a b : PrimitiveId} (h : b ≠ a) :
    ((without ps a).find? fun p => p.id = b) = ps.find? fun p => p.id = b := by
  rw [without, List.find?_filter]
  congr 1
  funext q
  by_cases hq : q.id = b
  · simp [hq, h]
  · simp [hq]

variable {t : Topology ε}

theorem DependsOn.of_get? {a b : PrimitiveId} {p : Primitive ε} (hp : t.get? a = some p)
    (hb : b ∈ p.dependencies) : t.DependsOn a b := by
  obtain ⟨hm, hid⟩ := (t.get?_eq_some_iff a p).1 hp
  exact ⟨p, hm, hid, hb⟩

theorem foldIn_congr (ha : t.Acyclic) {ps qs : List (Primitive ε)} {id : PrimitiveId}
    (hp : ∀ b, Relation.ReflTransGen t.DependsOn id b → (ps.find? fun p => p.id = b) = t.get? b)
    (hq : ∀ b, Relation.ReflTransGen t.DependsOn id b → (qs.find? fun p => p.id = b) = t.get? b) :
    foldIn f ps id = foldIn f qs id := by
  induction hl : ps.length using Nat.strongRecOn generalizing ps qs id with
  | ind l ih =>
    rw [foldIn_eq, foldIn_eq, hp id .refl, hq id .refl]
    cases hg : t.get? id with
    | none => rfl
    | some p =>
      rw [Option.bind_some, Option.bind_some]
      congr 1
      refine mapM_congr_of_mem fun d hd => ?_
      have hdep := DependsOn.of_get? hg hd
      have hne : ∀ b, Relation.ReflTransGen t.DependsOn d b → b ≠ id := by
        rintro b hb rfl
        exact ha b (.head' hdep hb)
      have hm := List.mem_of_find?_eq_some ((hp id .refl).trans hg)
      have hlt := length_without_lt hm ((t.get?_eq_some_iff id p).1 hg).2
      refine ih _ (hl ▸ hlt) (fun b hb => ?_) (fun b hb => ?_) rfl
      · rw [find?_without ps (hne b hb), hp b (.head hdep hb)]
      · rw [find?_without qs (hne b hb), hq b (.head hdep hb)]

theorem fold_eq (ha : t.Acyclic) (id : PrimitiveId) :
    t.fold f id = (t.get? id).bind fun p => (p.dependencies.mapM (t.fold f)).bind (f p) := by
  rw [fold, foldIn_eq]
  change (t.get? id).bind _ = _
  cases hg : t.get? id with
  | none => rfl
  | some p =>
    rw [Option.bind_some, Option.bind_some]
    congr 1
    refine mapM_congr_of_mem fun d hd => ?_
    have hdep := DependsOn.of_get? hg hd
    refine foldIn_congr ha (fun b hb => ?_) fun b _ => rfl
    refine find?_without t.primitives ?_
    rintro rfl
    exact ha b (.head' hdep hb)

theorem fold_eq_some_iff (ha : t.Acyclic) {p : Primitive ε} (hp : p ∈ t.primitives) {a : α} :
    t.fold f p.id = some a ↔
      ∃ as, p.dependencies.map (t.fold f) = as.map some ∧ f p as = some a := by
  rw [fold_eq ha, (t.get?_eq_some_iff p.id p).2 ⟨hp, rfl⟩, Option.bind_some,
    Option.bind_eq_some_iff]
  simp only [mapM_option_eq_some_iff]

theorem length_of_dependencies {g : PrimitiveId → Option α} {p : Primitive ε} {as : List α}
    (h : p.dependencies.map g = as.map some) : as.length = p.dependencies.length := by
  simpa using (congrArg List.length h).symm

section Part

variable {K : PrimitiveId → Prop} {f' : Primitive ε → List α → Option α}

theorem foldIn_congr_of_rule (ps : List (Primitive ε))
    (hK : ∀ p ∈ ps, K p.id → ∀ d ∈ p.dependencies, K d)
    (hf : ∀ p ∈ ps, K p.id → ∀ as, f p as = f' p as) {id : PrimitiveId} (hid : K id) :
    foldIn f ps id = foldIn f' ps id := by
  induction hl : ps.length using Nat.strongRecOn generalizing ps id with
  | ind l ih =>
    rw [foldIn_eq, foldIn_eq]
    cases hp : ps.find? fun p => p.id = id with
    | none => rfl
    | some p =>
      have hm := List.mem_of_find?_eq_some hp
      obtain rfl : p.id = id := by simpa using List.find?_some hp
      have hlt := length_without_lt hm rfl
      have hdeps : p.dependencies.mapM (foldIn f (without ps p.id)) =
          p.dependencies.mapM (foldIn f' (without ps p.id)) := by
        refine mapM_congr_of_mem fun d hd => ?_
        exact ih _ (hl ▸ hlt) _ (fun q hq => hK q (List.mem_of_mem_filter hq))
          (fun q hq => hf q (List.mem_of_mem_filter hq)) (hK p hm hid d hd) rfl
      rw [Option.bind_some, Option.bind_some, hdeps]
      exact Option.bind_congr fun as _ => hf p hm hid as

theorem fold_congr_of_rule (hK : ∀ a b, K a → t.DependsOn a b → K b)
    (hf : ∀ p ∈ t.primitives, K p.id → ∀ as, f p as = f' p as) {id : PrimitiveId} (hid : K id) :
    t.fold f id = t.fold f' id :=
  foldIn_congr_of_rule t.primitives (fun p hp hk d hd => hK p.id d hk ⟨p, hp, rfl, hd⟩) hf hid

end Part

section Map

variable {β : Type} {g : Primitive ε → List β → Option β} {π : α → β}

theorem foldIn_map (ps : List (Primitive ε)) (h : ∀ p ∈ ps, ∀ as a,
      as.length = p.dependencies.length → f p as = some a → g p (as.map π) = some (π a))
    {id : PrimitiveId} {a : α} (ha : foldIn f ps id = some a) : foldIn g ps id = some (π a) := by
  induction hl : ps.length using Nat.strongRecOn generalizing ps id a with
  | ind l ih =>
    rw [foldIn_eq, Option.bind_eq_some_iff] at ha ⊢
    obtain ⟨p, hp, ha⟩ := ha
    obtain ⟨as, has, ha⟩ := Option.bind_eq_some_iff.1 ha
    rw [mapM_option_eq_some_iff] at has
    have hm := List.mem_of_find?_eq_some hp
    have hlt : (without ps id).length < ps.length :=
      length_without_lt hm (by simpa using List.find?_some hp)
    have hg : p.dependencies.mapM (foldIn g (without ps id)) = some (as.map π) := by
      rw [mapM_option_eq_some_iff]
      refine map_eq_map_map (fun d b hb => ?_) has
      exact ih _ (hl ▸ hlt) (without ps id) (fun q hq => h q (List.mem_of_mem_filter hq)) hb rfl
    exact ⟨p, hp, by rw [hg, Option.bind_some]; exact h p hm as a (length_of_dependencies has) ha⟩

theorem fold_map (h : ∀ p ∈ t.primitives, ∀ as a, as.length = p.dependencies.length →
      f p as = some a → g p (as.map π) = some (π a)) {id : PrimitiveId} {a : α}
    (ha : t.fold f id = some a) : t.fold g id = some (π a) :=
  foldIn_map t.primitives h ha

end Map

end InferenceGraph.Topology
