import InferenceGraph.Proofs.Program.Linking

set_option autoImplicit false

namespace InferenceGraph

variable {ε : Type} [Extension ε]

namespace Topology

def DependsOn (t : Topology ε) (a b : PrimitiveId) : Prop :=
  ∃ p ∈ t.primitives, p.id = a ∧ b ∈ p.dependencies

def Closed (t : Topology ε) : Prop := ∀ p ∈ t.primitives, ∀ d ∈ p.dependencies, d ∈ t.ids

instance (t : Topology ε) : Decidable t.Closed :=
  inferInstanceAs (Decidable (∀ p ∈ t.primitives, ∀ d ∈ p.dependencies, d ∈ t.ids))

def Acyclic (t : Topology ε) : Prop := Order.Acyclic t.DependsOn

/-- What a compilation with these options keeps: everything, or what a requested primitive leads
to. -/
def Kept (t : Topology ε) (o : CompileOptions) (id : PrimitiveId) : Prop :=
  match o.outputs, o.exposeAll with
  | some targets, false => ∃ target ∈ targets, Relation.ReflTransGen t.DependsOn target id
  | _, _ => id ∈ t.ids

theorem eq_of_id_eq {t : Topology ε} {p q : Primitive ε} (hp : p ∈ t.primitives)
    (hq : q ∈ t.primitives) (h : p.id = q.id) : p = q := by
  have he := (t.get?_eq_some_iff q.id p).2 ⟨hp, h⟩
  rw [(t.get?_eq_some_iff q.id q).2 ⟨hq, rfl⟩] at he
  exact (Option.some.inj he).symm

/-- Ranks that fall along dependencies leave no room for a cycle. -/
theorem acyclic_of_rank {t : Topology ε} (rank : PrimitiveId → Nat)
    (h : ∀ p ∈ t.primitives, ∀ d ∈ p.dependencies, rank d < rank p.id) : t.Acyclic := by
  have hlt : ∀ a b, Relation.TransGen t.DependsOn a b → rank b < rank a := by
    intro a b hab
    induction hab with
    | single hd =>
      obtain ⟨p, hp, rfl, hd⟩ := hd
      exact h p hp _ hd
    | tail _ hd ih =>
      obtain ⟨p, hp, rfl, hd⟩ := hd
      exact Nat.lt_trans (h p hp _ hd) ih
  exact fun a ha => Nat.lt_irrefl _ (hlt a a ha)

theorem DependsOn.mem_ids {t : Topology ε} {a b : PrimitiveId} (h : t.DependsOn a b) :
    a ∈ t.ids := by
  obtain ⟨p, hp, rfl, -⟩ := h
  exact List.mem_map_of_mem hp

end Topology

namespace Order

theorem IsCycle.rename {α β : Type} {r : α → α → Prop} {s : β → β → Prop} {f : α → Option β}
    {cycle : List α} {names : List β} (h : IsCycle r cycle)
    (hm : cycle.map f = names.map some)
    (hf : ∀ a a' b, f a = some b → f a' = some b → a = a')
    (hr : ∀ a a' b b', r a a' → f a = some b → f a' = some b' → s b b') : IsCycle s names := by
  obtain ⟨first, rest, rfl, hn, hc⟩ := h
  have hm' := hm
  rw [List.map_cons, List.map_append, List.map_singleton, eq_comm, List.map_eq_cons_iff] at hm'
  obtain ⟨x, tail, rfl, hx, ht⟩ := hm'
  obtain ⟨ys, last, rfl, hy, hl⟩ := List.map_eq_append_iff.1 ht
  obtain ⟨z, -, hz, rfl⟩ : ∃ z, True ∧ some z = f first ∧ last = [z] := by
    cases last with
    | nil => simp at hl
    | cons z last => cases last <;> simp_all
  obtain rfl : x = z := Option.some.inj (hx.trans hz.symm)
  refine ⟨x, ys, rfl, ?_, ?_⟩
  · have hu : ((first :: rest).map f).Nodup := by
      refine List.Nodup.map_on (fun a ha a' ha' he => ?_) hn
      have hs : f a ∈ (x :: ys).map some := by
        rw [List.map_cons, hx, hy, ← List.map_cons]
        exact List.mem_map_of_mem ha
      obtain ⟨b, -, hb⟩ := List.mem_map.1 hs
      exact hf a a' b hb.symm (he ▸ hb.symm)
    rw [List.map_cons, ← hx, ← hy, ← List.map_cons] at hu
    exact hu.of_map _
  · have hs : ((first :: (rest ++ [first])).map f).IsChain
        fun a b => ∀ c d, a = some c → b = some d → s c d := by
      rw [List.isChain_map]
      exact hc.imp fun a b hab c d hac hbd => hr a b c d hab hac hbd
    rw [hm, List.isChain_map] at hs
    exact hs.imp fun a b hab => hab a b rfl rfl

end Order

namespace Program.Linked

variable {t : Topology ε} {p : Program ε} (h : p.Linked t)
include h

theorem getElem?_injective {i j : Nat} {id : PrimitiveId} (hi : p.ids[i]? = some id)
    (hj : p.ids[j]? = some id) : i = j :=
  Option.some.inj (((h.index_iff id i).2 hi).symm.trans ((h.index_iff id j).2 hj))

theorem dependsOn_of_edge {i d : Nat} {a : PrimitiveId} (hi : p.ids[i]? = some a)
    (hd : d ∈ Order.dependenciesOf p.edges i) : ∃ b, p.ids[d]? = some b ∧ t.DependsOn a b := by
  obtain ⟨n, hn, hd⟩ := mem_dependenciesOf_edges_iff.1 hd
  have hm := List.mem_of_getElem? hn
  obtain ⟨m, hdm, hid⟩ := h.exists_dependency hm hd
  refine ⟨m.id, by simp [getElem?_ids, hdm], n.primitive, h.primitive n hm, ?_, hid⟩
  rw [getElem?_ids, hn] at hi
  exact Option.some.inj hi

theorem edge_of_dependsOn {i : Nat} {a b : PrimitiveId} (hi : p.ids[i]? = some a)
    (hd : t.DependsOn a b) :
    ∃ d, p.ids[d]? = some b ∧ d ∈ Order.dependenciesOf p.edges i := by
  obtain ⟨q, hq, rfl, hb⟩ := hd
  obtain ⟨n, hn, hid⟩ := getElem?_ids_eq_some_iff.1 hi
  have hm := List.mem_of_getElem? hn
  obtain rfl : n.primitive = q := Topology.eq_of_id_eq (h.primitive n hm) hq hid
  have hs := List.mem_map_of_mem (f := some) hb
  rw [← h.dependencies n hm] at hs
  obtain ⟨d, hd, hs⟩ := List.mem_map.1 hs
  exact ⟨d, hs, mem_dependenciesOf_edges_iff.2 ⟨n, hn, hd⟩⟩

theorem reflTransGen_of_edges {i j : Nat} {a : PrimitiveId} (hi : p.ids[i]? = some a)
    (hw : Relation.ReflTransGen (fun x y => y ∈ Order.dependenciesOf p.edges x) i j) :
    ∃ b, p.ids[j]? = some b ∧ Relation.ReflTransGen t.DependsOn a b := by
  induction hw with
  | refl => exact ⟨a, hi, .refl⟩
  | tail _ hd ih =>
    obtain ⟨b, hb, hw⟩ := ih
    obtain ⟨c, hc, hbc⟩ := h.dependsOn_of_edge hb hd
    exact ⟨c, hc, hw.tail hbc⟩

theorem edges_of_reflTransGen {i : Nat} {a b : PrimitiveId} (hi : p.ids[i]? = some a)
    (hw : Relation.ReflTransGen t.DependsOn a b) :
    ∃ j, p.ids[j]? = some b ∧
      Relation.ReflTransGen (fun x y => y ∈ Order.dependenciesOf p.edges x) i j := by
  induction hw with
  | refl => exact ⟨i, hi, .refl⟩
  | tail _ hd ih =>
    obtain ⟨j, hj, hw⟩ := ih
    obtain ⟨k, hk, hjk⟩ := h.edge_of_dependsOn hj hd
    exact ⟨k, hk, hw.tail hjk⟩

theorem acyclic_of_edges (ha : Order.Acyclic fun x y => y ∈ Order.dependenciesOf p.edges x)
    (hids : p.ids = t.ids) : t.Acyclic := by
  intro a hw
  obtain ⟨b, hab, hba⟩ := Relation.TransGen.head'_iff.1 hw
  obtain ⟨i, hi⟩ := List.mem_iff_getElem?.1 (hids ▸ hab.mem_ids)
  obtain ⟨j, hj, hij⟩ := h.edge_of_dependsOn hi hab
  obtain ⟨k, hk, hjk⟩ := h.edges_of_reflTransGen hj hba
  obtain rfl := h.getElem?_injective hi hk
  exact ha i (.head' hij hjk)

theorem isCycle_names {cycle : List Nat} {names : List PrimitiveId}
    (hc : Order.IsCycle (fun x y => y ∈ Order.dependenciesOf p.edges x) cycle)
    (hm : cycle.map (p.ids[·]?) = names.map some) : Order.IsCycle t.DependsOn names := by
  refine hc.rename hm (fun i j id hi hj => h.getElem?_injective hi hj) ?_
  intro i j a b hd hi hj
  obtain ⟨c, hc, hac⟩ := h.dependsOn_of_edge hi hd
  rw [hj] at hc
  cases hc
  exact hac

end Program.Linked

end InferenceGraph
