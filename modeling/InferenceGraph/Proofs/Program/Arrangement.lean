import InferenceGraph.Proofs.Program.Linking

/-!
# Arranged programs

Arranging moves the kept nodes to their places in the processing order. If the kept nodes depend on
kept nodes only, every edge finds its new number, so the program is linked as before; and if the
order was sorted, every dependency has a smaller number than the node itself.
-/

set_option autoImplicit false

namespace InferenceGraph

namespace Order

theorem Sorted.filter {deps : Nat → List Nat} {order : List Nat} {keep : Nat → Bool}
    (h : Sorted deps order) (hc : ∀ a ∈ order.filter keep, ∀ d ∈ deps a, keep d = true) :
    Sorted deps (order.filter keep) := by
  intro i node hi d hd
  obtain ⟨hl, hn⟩ := List.getElem?_eq_some_iff.1 hi
  have hs : order.filter keep =
      (order.filter keep).take i ++ node :: (order.filter keep).drop (i + 1) := by
    rw [← hn, ← List.drop_eq_getElem_cons hl, List.take_append_drop]
  obtain ⟨before, after, ho, hb, ha⟩ := List.filter_eq_append_iff.1 hs
  obtain ⟨skipped, rest, rfl, hsk, -, -⟩ := List.filter_eq_cons_iff.1 ha
  have hp : order[(before ++ skipped).length]? = some node := by simp [ho]
  have hm := h _ node hp d hd
  rw [ho, ← List.append_assoc, List.take_left] at hm
  have hk := hc node (List.mem_of_getElem? hi) d hd
  rw [← hb, List.mem_filter]
  refine ⟨(List.mem_append.1 hm).resolve_right fun hm => ?_, hk⟩
  exact hsk d hm hk

end Order

namespace Program

variable {ε : Type} [Extension ε] {t : Topology ε} {p q : Program ε} {kept outputs : List Nat}

def moved (kept outputs : List Nat) (old : Nat) (n : Node ε) : Node ε :=
  { n with
    dependencies := n.dependencies.map fun dep => kept.idxOf dep
    users := n.users.filterMap fun user => kept.idxOf? user
    isOutput := outputs.contains old }

/-- The kept nodes exist, once each, and depend on kept nodes only. -/
structure Keepable (p : Program ε) (kept : List Nat) : Prop where
  nodup : kept.Nodup
  node : ∀ old ∈ kept, ∃ n, p.nodes[old]? = some n
  closed : ∀ old ∈ kept, ∀ n, p.nodes[old]? = some n → ∀ d ∈ n.dependencies, d ∈ kept

structure Arranged (p : Program ε) (kept outputs : List Nat) (q : Program ε) : Prop where
  node : ∀ i : Nat, q.nodes[i]? =
    kept[i]?.bind fun old => p.nodes[old]?.map (moved kept outputs old)
  index : q.index = reindex kept q.nodes
  outputs : q.outputs = outputs.filterMap fun output => kept.idxOf? output

theorem Keepable.idxOf?_eq (hk : p.Keepable kept) {d : Nat} (hd : d ∈ kept) :
    kept.idxOf? d = some (kept.idxOf d) :=
  (idxOf?_eq_some_iff_of_nodup hk.nodup).2 (List.getElem?_idxOf hd)

theorem Keepable.idxOf_eq (hk : p.Keepable kept) {i old : Nat} (ho : kept[i]? = some old) :
    kept.idxOf old = i := by
  have he := hk.idxOf?_eq (List.mem_of_getElem? ho)
  rw [(idxOf?_eq_some_iff_of_nodup hk.nodup).2 ho] at he
  exact (Option.some.inj he).symm

theorem renumber_eq (hk : p.Keepable kept) {place old : Nat} (ho : kept[place]? = some old)
    {n : Node ε} (hn : p.nodes[old]? = some n) :
    p.renumber kept outputs place old = .ok (moved kept outputs old n) := by
  have hnot : old ∉ kept.take place := by
    intro hm
    obtain ⟨i, hi, he⟩ := List.mem_take_iff_getElem.1 hm
    obtain ⟨hl, hp⟩ := List.getElem?_eq_some_iff.1 ho
    have hlt : i < kept.length := by omega
    have heq : kept[i] = kept[place] := he.trans hp.symm
    have := (List.Nodup.getElem_inj_iff hk.nodup).1 heq
    omega
  have hd : n.dependencies.mapM (fun dep =>
      Outcome.get (.prunedDependency n.id dep) (kept.idxOf? dep)) =
        .ok (n.dependencies.map fun dep => kept.idxOf dep) := by
    rw [mapM_eq_ok_iff, List.map_map]
    refine List.map_congr_left fun d hd => ?_
    have hm := hk.closed old (List.mem_of_getElem? ho) n hn d hd
    simp [hk.idxOf?_eq hm]
  simp [renumber, hnot, node, hn, hd, moved]

theorem arrange_ok (order keep outputs : List Nat) (hk : p.Keepable (order.filter keep.contains)) :
    ∃ q, p.arrange order keep outputs = .ok q ∧
      p.Arranged (order.filter keep.contains) outputs q := by
  generalize hkept : order.filter keep.contains = kept at *
  have hr : ∀ place old, kept[place]? = some old → ∃ n, p.nodes[old]? = some n ∧
      p.renumber kept outputs place old = .ok (moved kept outputs old n) := by
    intro place old ho
    obtain ⟨n, hn⟩ := hk.node old (List.mem_of_getElem? ho)
    exact ⟨n, hn, renumber_eq hk ho hn⟩
  have he : ∀ e ∈ kept.zipIdx, ∃ n, p.renumber kept outputs e.2 e.1 = .ok n := by
    rintro ⟨old, place⟩ hp
    obtain ⟨n, -, hn⟩ := hr place old (List.mk_mem_zipIdx_iff_getElem?.1 hp)
    exact ⟨_, hn⟩
  obtain ⟨nodes, hm⟩ := mapM_ok_of_forall he
  refine ⟨⟨nodes, reindex kept nodes, outputs.filterMap fun output => kept.idxOf? output⟩, ?_,
    ?_, rfl, rfl⟩
  · rw [arrange, hkept, hm]
    rfl
  · intro i
    cases ho : kept[i]? with
    | none =>
      rw [List.getElem?_eq_none_iff] at ho
      exact List.getElem?_eq_none (by rw [length_of_mapM hm]; simpa using ho)
    | some old =>
      obtain ⟨n, hn, hq⟩ := hr i old ho
      obtain ⟨m, hm, hf⟩ := getElem?_of_mapM hm (i := i) (x := (old, i)) (by
        simp [List.getElem?_zipIdx, ho])
      obtain rfl := Except.ok.inj (hq.symm.trans hf)
      simp [hm, hn]

theorem Keepable.nodup_users (hk : p.Keepable kept) {old : Nat} {n : Node ε} (hu : n.users.Nodup) :
    (moved kept outputs old n).users.Nodup := by
  refine hu.filterMap fun a b c hac hbc => ?_
  rw [Option.mem_def, idxOf?_eq_some_iff_of_nodup hk.nodup] at hac hbc
  exact Option.some.inj (hac.symm.trans hbc)

namespace Arranged

variable (ha : p.Arranged kept outputs q) (hk : p.Keepable kept)
include ha

theorem exists_old {i : Nat} {m : Node ε} (hm : q.nodes[i]? = some m) :
    ∃ old n, kept[i]? = some old ∧ p.nodes[old]? = some n ∧ m = moved kept outputs old n := by
  rw [ha.node, Option.bind_eq_some_iff] at hm
  obtain ⟨old, ho, hm⟩ := hm
  obtain ⟨n, hn, rfl⟩ := Option.map_eq_some_iff.1 hm
  exact ⟨old, n, ho, hn, rfl⟩

theorem getElem?_nodes {i old : Nat} {n : Node ε} (ho : kept[i]? = some old)
    (hn : p.nodes[old]? = some n) : q.nodes[i]? = some (moved kept outputs old n) := by
  simp [ha.node, ho, hn]

theorem getElem?_ids (i : Nat) : q.ids[i]? = kept[i]?.bind (p.ids[·]?) := by
  rw [q.getElem?_ids, ha.node]
  cases kept[i]? with
  | none => rfl
  | some old =>
    simp only [Option.bind_some, Program.getElem?_ids]
    cases p.nodes[old]? <;> rfl

theorem getElem?_idxOf {d : Nat} (hd : d ∈ kept) : q.ids[kept.idxOf d]? = p.ids[d]? := by
  rw [ha.getElem?_ids, List.getElem?_idxOf hd, Option.bind_some]

theorem ordered (hs : Order.Sorted (Order.dependenciesOf p.edges) kept) : q.Ordered := by
  intro i m hm d' hd'
  obtain ⟨old, n, ho, hn, rfl⟩ := ha.exists_old hm
  obtain ⟨d, hd, rfl⟩ := List.mem_map.1 hd'
  have ht := hs i old ho d (mem_dependenciesOf_edges_iff.2 ⟨n, hn, hd⟩)
  exact (List.mem_take_iff_idxOf_lt (List.mem_of_mem_take ht)).1 ht

include hk

theorem size_eq : q.size = kept.length := by
  refine Nat.le_antisymm (Nat.le_of_not_lt fun hl => ?_) (Nat.le_of_not_lt fun hl => ?_)
  · have hm := ha.node kept.length
    rw [List.getElem?_eq_none (Nat.le_refl _), List.getElem?_eq_getElem hl] at hm
    simp at hm
  · obtain ⟨n, hn⟩ := hk.node _ (List.getElem_mem hl)
    have hm := ha.getElem?_nodes (List.getElem?_eq_getElem hl) hn
    exact Nat.lt_irrefl _ (List.getElem?_eq_some_iff.1 hm).1

theorem primitives_eq :
    q.nodes.map Node.primitive = kept.filterMap fun old => p.nodes[old]?.map Node.primitive := by
  refine (filterMap_eq_of_map (List.ext_getElem? fun i => ?_)).symm
  simp only [List.getElem?_map, ha.node]
  cases ho : kept[i]? with
  | none => rfl
  | some old =>
    obtain ⟨n, hn⟩ := hk.node old (List.mem_of_getElem? ho)
    simp [hn, moved]

theorem ids_eq : q.ids = p.idsOf kept := by
  rw [ids_eq_map_primitives, ha.primitives_eq hk, List.map_filterMap, idsOf]
  refine List.filterMap_congr fun old _ => ?_
  rw [p.getElem?_ids]
  cases p.nodes[old]? <;> rfl

theorem index_eq : q.index = q.ids.zipIdx := by
  rw [ha.index, reindex]
  have hl : q.nodes.length = kept.length := ha.size_eq hk
  have he : ∀ e ∈ q.nodes.zip kept,
      ((kept.idxOf? e.2).map fun number => (e.1.id, number)) = some (e.1.id, kept.idxOf e.2) := by
    intro e he
    rw [hk.idxOf?_eq (List.of_mem_zip he).2, Option.map_some]
  rw [List.filterMap_congr he]
  refine List.ext_getElem (by simp [hl, size]) fun i h₁ h₂ => ?_
  have hi : i < kept.length := by simpa [hl, size] using h₂
  simp [ids, hk.idxOf_eq (List.getElem?_eq_getElem hi)]

theorem nodup_ids (h : p.Linked t) : q.ids.Nodup := by
  refine List.nodup_iff_getElem?_ne_getElem?.2 fun i j hij hj he => ?_
  obtain ⟨id, hid⟩ : ∃ id, q.ids[j]? = some id := ⟨_, List.getElem?_eq_getElem hj⟩
  rw [hid] at he
  rw [ha.getElem?_ids, Option.bind_eq_some_iff] at he hid
  obtain ⟨old, ho, hid⟩ := hid
  obtain ⟨old', ho', hid'⟩ := he
  have hold := ((h.index_iff id old).2 hid).symm.trans ((h.index_iff id old').2 hid')
  rw [← Option.some.inj hold, ← ho] at ho'
  exact (List.nodup_iff_getElem?_ne_getElem?.1 hk.nodup i j hij
    (List.getElem?_eq_some_iff.1 ho).1) ho'

theorem mem_users_iff (h : p.Linked t) {i old : Nat} {n : Node ε} (ho : kept[i]? = some old)
    (hn : p.nodes[old]? = some n) {user : Nat} : user ∈ (moved kept outputs old n).users ↔
      ∃ m, q.nodes[user]? = some m ∧ i ∈ m.dependencies := by
  simp only [moved, List.mem_filterMap, idxOf?_eq_some_iff_of_nodup hk.nodup, (h.users old n hn).2]
  constructor
  · rintro ⟨u, ⟨m, hm, hd⟩, hu⟩
    exact ⟨_, ha.getElem?_nodes hu hm, List.mem_map.2 ⟨old, hd, hk.idxOf_eq ho⟩⟩
  · rintro ⟨m', hm', hd⟩
    obtain ⟨u, m, hu, hm, rfl⟩ := ha.exists_old hm'
    obtain ⟨d, hd, he⟩ := List.mem_map.1 hd
    have hdk := List.getElem?_idxOf (hk.closed u (List.mem_of_getElem? hu) m hm d hd)
    rw [he, ho] at hdk
    exact ⟨u, ⟨m, hm, Option.some.inj hdk ▸ hd⟩, hu⟩

theorem linked (h : p.Linked t) : q.Linked t := by
  refine ⟨?_, ?_, ?_, ?_⟩
  · intro m hm
    obtain ⟨i, hm⟩ := List.mem_iff_getElem?.1 hm
    obtain ⟨old, n, -, hn, rfl⟩ := ha.exists_old hm
    exact h.primitive n (List.mem_of_getElem? hn)
  · intro id number
    rw [nodeIndex?, ha.index_eq hk]
    exact lookup_zipIdx_eq_some_iff (ha.nodup_ids hk h)
  · intro m hm
    obtain ⟨i, hm⟩ := List.mem_iff_getElem?.1 hm
    obtain ⟨old, n, ho, hn, rfl⟩ := ha.exists_old hm
    have hd := h.dependencies n (List.mem_of_getElem? hn)
    rw [moved, List.map_map, ← hd]
    refine List.map_congr_left fun d hd => ?_
    exact ha.getElem?_idxOf (hk.closed old (List.mem_of_getElem? ho) n hn d hd)
  · intro i m hm
    obtain ⟨old, n, ho, hn, rfl⟩ := ha.exists_old hm
    exact ⟨hk.nodup_users (h.users old n hn).1, fun user => ha.mem_users_iff hk h ho hn⟩

theorem mem_outputs_iff {i : Nat} :
    i ∈ q.outputs ↔ ∃ old ∈ outputs, kept[i]? = some old := by
  simp [ha.outputs, idxOf?_eq_some_iff_of_nodup hk.nodup]

theorem map_outputs (ho : ∀ output ∈ outputs, output ∈ kept) :
    q.outputs.map (q.ids[·]?) = outputs.map (p.ids[·]?) := by
  have he : ∀ output ∈ outputs, kept.idxOf? output = some (kept.idxOf output) :=
    fun output hm => hk.idxOf?_eq (ho output hm)
  rw [ha.outputs, List.filterMap_congr he, List.filterMap_eq_map', List.map_map]
  exact List.map_congr_left fun output hm => ha.getElem?_idxOf (ho output hm)

theorem nodup_outputs (hn : outputs.Nodup) : q.outputs.Nodup := by
  rw [ha.outputs]
  refine hn.filterMap fun a b c hac hbc => ?_
  rw [Option.mem_def, idxOf?_eq_some_iff_of_nodup hk.nodup] at hac hbc
  exact Option.some.inj (hac.symm.trans hbc)

theorem isOutput_iff {i : Nat} {m : Node ε} (hm : q.nodes[i]? = some m) :
    m.isOutput = true ↔ i ∈ q.outputs := by
  rw [ha.mem_outputs_iff hk]
  obtain ⟨old, n, ho, hn, rfl⟩ := ha.exists_old hm
  simp [moved, ho]

end Arranged

end Program

end InferenceGraph
