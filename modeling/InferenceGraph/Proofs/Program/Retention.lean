import InferenceGraph.Proofs.Program.Ascending
import Mathlib.Order.Bounds.Basic

set_option autoImplicit false

namespace InferenceGraph

variable {ε : Type} [Extension ε] {r : Registry ε} {t : Topology ε} {o : CompileOptions}

namespace Topology

/-- The ids that a compilation with these options gives out, in order. -/
def exposedIds (t : Topology ε) (o : CompileOptions) : List PrimitiveId :=
  match o.outputs, o.exposeAll with
  | none, true => t.ids
  | none, false => t.ids.filter fun id => ∀ q ∈ t.primitives, id ∈ q.dependencies → q.id = id
  | some targets, true => targets.eraseDups ++ t.ids.filter (· ∉ targets)
  | some targets, false => targets.eraseDups

/-- The ids have all targets among them, and with every primitive those it depends on. -/
structure Covers (t : Topology ε) (targets : List PrimitiveId) (ids : Set PrimitiveId) : Prop where
  target : ∀ id ∈ targets, id ∈ ids
  dependency : ∀ a ∈ ids, ∀ b, t.DependsOn a b → b ∈ ids

theorem isLeast_kept (t : Topology ε) (targets : List PrimitiveId) :
    IsLeast {ids | t.Covers targets ids} {id | t.Kept ⟨some targets, false⟩ id} := by
  constructor
  case left =>
    refine ⟨fun id hid => ⟨id, hid, .refl⟩, ?_⟩
    rintro a ⟨target, ht, hw⟩ b hab
    exact ⟨target, ht, hw.tail hab⟩
  case right =>
    rintro ids hc id ⟨target, ht, hw⟩
    induction hw with
    | refl => exact hc.target target ht
    | tail _ hd ih => exact hc.dependency _ ih _ hd

theorem Acyclic.unused_iff (ha : t.Acyclic) {id : PrimitiveId} :
    (∀ user, ¬ t.DependsOn user id) ↔
      ∀ q ∈ t.primitives, id ∈ q.dependencies → q.id = id := by
  constructor
  · intro hu q hq hd
    exact absurd ⟨q, hq, rfl, hd⟩ (hu q.id)
  · rintro hu user ⟨q, hq, rfl, hd⟩
    have he := hu q hq hd
    exact ha id (.single ⟨q, hq, he, hd⟩)

end Topology

namespace Program

variable {p q : Program ε} {kept outputs order : List Nat}

theorem map_range_ids (p : Program ε) :
    (List.range p.size).map (p.ids[·]?) = p.ids.map some :=
  List.ext_getElem (by simp) fun i _ _ => by simp

theorem map_filter_ids {c : Nat → Bool} {d : PrimitiveId → Bool}
    (h : ∀ (i : Nat) id, p.ids[i]? = some id → c i = d id) :
    ((List.range p.size).filter c).map (p.ids[·]?) = (p.ids.filter d).map some := by
  have hc : (List.range p.size).filter c =
      (List.range p.size).filter ((fun id? => id?.any d) ∘ (p.ids[·]?)) := by
    refine List.filter_congr fun i hi => ?_
    obtain ⟨id, hid⟩ : ∃ id, p.ids[i]? = some id :=
      ⟨_, List.getElem?_eq_getElem (p.length_ids.symm ▸ List.mem_range.1 hi)⟩
    rw [h i id hid, Function.comp_apply, hid, Option.any_some]
  rw [hc, ← List.filter_map, map_range_ids, List.filter_map]
  rfl

theorem map_selection (h : p.Linked t) (hids : p.ids = t.ids) (ha : t.Acyclic)
    {keep : List Nat} (hs : p.selection o = .ok (outputs, keep)) :
    outputs.map (p.ids[·]?) = (t.exposedIds o).map some := by
  obtain ⟨wanted, exposeAll⟩ := o
  cases wanted with
  | none =>
    cases exposeAll with
    | true =>
      cases hs
      rw [map_range_ids, hids]
      rfl
    | false =>
      cases hs
      rw [Topology.exposedIds, ← hids]
      refine map_filter_ids fun i id hi => ?_
      obtain ⟨n, hn, rfl⟩ := getElem?_ids_eq_some_iff.1 hi
      rw [hn, Option.any_some, Bool.eq_iff_iff, h.users_isEmpty_iff hids hn, decide_eq_true_eq]
      exact ha.unused_iff
  | some targets =>
    obtain ⟨requested, hr, hs⟩ := bind_eq_ok_iff.1 hs
    have hm := map_requested h hr
    cases exposeAll with
    | false =>
      cases hs
      exact hm
    | true =>
      cases hs
      rw [Topology.exposedIds, ← hids, List.map_append, List.map_append, hm]
      refine congrArg _ (map_filter_ids fun i id hi => ?_)
      have hmem : i ∈ requested ↔ id ∈ targets := by
        rw [(requested_ok h hr).2.1]
        constructor
        · rintro ⟨id', hid', hi'⟩
          exact Option.some.inj (hi.symm.trans hi') ▸ hid'
        · exact fun hid => ⟨id, hid, hi⟩
      rw [Bool.eq_iff_iff, Bool.not_eq_true', ← Bool.not_eq_true, List.contains_iff_mem, hmem,
        decide_eq_true_eq]

theorem filter_idsOf (h : p.Linked t) {ids : List PrimitiveId}
    (hm : ∀ id, id ∈ ids ↔ id ∈ p.idsOf kept) :
    (p.idsOf order).filter (· ∈ ids) = p.idsOf (order.filter (· ∈ kept)) := by
  rw [idsOf, idsOf, List.filter_filterMap, List.filterMap_filter]
  refine List.filterMap_congr fun old _ => ?_
  cases hid : p.ids[old]? with
  | none => simp
  | some id =>
    have hkept : id ∈ p.idsOf kept ↔ old ∈ kept := by
      rw [idsOf, List.mem_filterMap]
      constructor
      · rintro ⟨k, hk, hi⟩
        exact h.getElem?_injective hid hi ▸ hk
      · exact fun hk => ⟨old, hk, hid⟩
    by_cases hk : old ∈ kept <;> simp [hm, hkept, hk]

theorem SortedTo.ids_eq (h : p.SortedTo t o kept outputs q) (hl : p.Linked t) :
    ∃ order, p.order = .ok order ∧ order.Perm (List.range p.size) ∧
      q.ids = (p.idsOf order).filter (· ∈ q.ids) := by
  obtain ⟨order, ho, hs⟩ := h.order
  have hperm := (order_ok hl.resolved ho).1
  have hids := h.arranged.ids_eq h.keepable
  refine ⟨order, ho, hperm, ?_⟩
  rw [filter_idsOf hl fun id => by rw [hids],
    filter_of_sublist (hperm.nodup_iff.2 List.nodup_range) hs, hids]

/-- The nodes of a program and its outputs are those that the options ask for. -/
structure Retains [DecidableEq ε] (r : Registry ε) (t : Topology ε) (o : CompileOptions)
    (p : Program ε) : Prop where
  primitive : ∀ n ∈ p.nodes, t.get? n.id = some n.primitive
  nodup_ids : p.ids.Nodup
  all : o.outputs = none ∨ o.exposeAll = true →
    (p.nodes.map Node.primitive).Perm t.primitives
  least : ∀ targets, o = ⟨some targets, false⟩ →
    IsLeast {ids | t.Covers targets ids} {id | id ∈ p.ids}
  empty : o = ⟨some [], false⟩ → p.nodes = []
  order : ∃ first order, initial r t = .ok first ∧ first.ids = t.ids ∧ first.order = .ok order ∧
    order.Perm (List.range first.size) ∧ p.ids = (first.idsOf order).filter (· ∈ p.ids)
  outputIds : p.outputIds = .ok (t.exposedIds o)

variable [DecidableEq ε]

theorem isLeast_ids {targets : List PrimitiveId}
    (h : ofTopology r t ⟨some targets, false⟩ = .ok p) :
    IsLeast {ids | t.Covers targets ids} {id | id ∈ p.ids} := by
  have hids : {id | id ∈ p.ids} = {id | t.Kept ⟨some targets, false⟩ id} :=
    Set.ext fun id => ids_iff_of_ofTopology h
  rw [hids]
  exact t.isLeast_kept targets

theorem nodes_eq_nil (h : ofTopology r t ⟨some [], false⟩ = .ok p) : p.nodes = [] := by
  have hids : p.ids = [] := List.eq_nil_iff_forall_not_mem.2 fun id hid => by
    obtain ⟨target, ht, -⟩ := (ids_iff_of_ofTopology h).1 hid
    cases ht
  exact List.map_eq_nil_iff.1 hids

theorem Passes.outputIds_eq {first second last : Program ε}
    (h : Passes r t o first second last kept outputs) :
    last.outputIds = .ok (t.exposedIds o) := by
  obtain ⟨keep, hs⟩ := h.sortedTo.selection
  rw [outputIds_eq_ok_iff, h.map_outputs]
  exact map_selection (linked_of_initial h.initial) (ids_of_initial h.initial) h.sortedTo.acyclic hs

/-- A compilation keeps and gives out what its options ask for. Whether it succeeds or not, no kept
node is met twice and none depends on one that is left out, and the nodes to look at come to an
end. -/
theorem retains_of_ofTopology (r : Registry ε) (t : Topology ε) (o : CompileOptions) :
    (∀ p, ofTopology r t o = .ok p → p.Retains r t o) ∧
      ∀ first, initial r t = .ok first →
        (∀ b, first.sorted o ≠ .error (.breach b)) ∧
        WellFounded fun after before : Order.Worklist =>
          before.step first.edges = some after := by
  constructor
  case left =>
    intro p h
    obtain ⟨first, second, kept, outputs, hp⟩ := passes_of_ofTopology h
    have hl := hp.linked
    constructor
    case primitive =>
      exact fun n hn => (t.get?_eq_some_iff n.id n.primitive).2 ⟨hl.primitive n hn, rfl⟩
    case nodup_ids => exact hl.nodup_ids
    case all =>
      exact fun ho => primitives_perm h fun id hid => Topology.kept_of_mem_ids ho hid
    case least =>
      rintro targets rfl
      exact isLeast_ids h
    case empty =>
      rintro rfl
      exact nodes_eq_nil h
    case order =>
      obtain ⟨order, ho, hperm, he⟩ := hp.sortedTo.ids_eq (linked_of_initial hp.initial)
      rw [← hp.inferredTo.ids_eq] at he
      exact ⟨first, order, hp.initial, ids_of_initial hp.initial, ho, hperm, he⟩
    case outputIds => exact hp.outputIds_eq
  case right =>
    intro first hi
    refine ⟨fun b hb => ?_, Order.Worklist.wellFounded_step first.edges⟩
    obtain ⟨names, he, -⟩ | ⟨-, targets, id, -, -, -, he⟩ :=
      sorted_error (linked_of_initial hi) (primitives_of_initial hi) hb
    · cases he
    · cases he

theorem retains_of_ofTopology_copies :
    ∃ p, ofTopology .standard Topology.copies ⟨some [Topology.copy, Topology.copy], false⟩ = .ok p ∧
      p.Retains .standard Topology.copies ⟨some [Topology.copy, Topology.copy], false⟩ ∧
      p.outputIds = .ok [Topology.copy] := by
  have hr : Topology.copies.Requestable ⟨some [Topology.copy, Topology.copy], false⟩ := by
    rintro targets ⟨⟩
    decide
  obtain ⟨p, hp⟩ := Topology.exists_program_copies hr
  have hretains := (retains_of_ofTopology _ _ _).1 p hp
  exact ⟨p, hp, hretains, hretains.outputIds⟩

end Program

end InferenceGraph
