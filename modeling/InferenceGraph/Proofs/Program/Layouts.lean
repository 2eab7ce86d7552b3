import InferenceGraph.Proofs.Kind.Layouts
import InferenceGraph.Proofs.Program.Passes
import InferenceGraph.Proofs.Topology.Fold

set_option autoImplicit false

namespace InferenceGraph

variable {ε : Type} [Extension ε] {t : Topology ε}

namespace Topology

/-- The layout that the rules give to a primitive. -/
def layoutOf (t : Topology ε) : PrimitiveId → Option Layout :=
  t.fold fun p layouts => (p.layoutFrom layouts).toOption

def Builtin (t : Topology ε) : Prop := ∀ p ∈ t.primitives, p.kind.isBuiltin = true

instance (t : Topology ε) : Decidable t.Builtin :=
  inferInstanceAs (Decidable (∀ p ∈ t.primitives, p.kind.isBuiltin = true))

theorem layoutOf_eq_some_iff (ha : t.Acyclic) {p : Primitive ε} (hp : p ∈ t.primitives)
    {layout : Layout} : t.layoutOf p.id = some layout ↔
      ∃ layouts, p.dependencies.map t.layoutOf = layouts.map some ∧
        p.layoutFrom layouts = .ok layout := by
  rw [layoutOf, fold_eq_some_iff ha hp]
  simp only [toOption_eq_some_iff]

end Topology

namespace Program

variable {p q : Program ε}

def HasLayout (t : Topology ε) (p q : Program ε) (number : Nat) : Prop :=
  ∀ n : Node ε, p.nodes[number]? = some n → ∃ layout,
    q.nodes[number]? = some { n with layout? := some layout } ∧ t.layoutOf n.id = some layout

theorem exists_layouts {numbers : List Nat} {names : List PrimitiveId}
    (hn : numbers.map (p.ids[·]?) = names.map some) (hd : ∀ d ∈ numbers, HasLayout t p q d) :
    ∃ layouts, names.map t.layoutOf = layouts.map some ∧
      (numbers.filterMap fun d => q.nodes[d]?.map fun m => (⟨m.id, m.layout?⟩ : InputView)) =
        (names.zip layouts).map fun (id, layout) => ⟨id, some layout⟩ := by
  induction numbers generalizing names with
  | nil =>
    cases names with
    | nil => exact ⟨[], rfl, rfl⟩
    | cons name names => simp at hn
  | cons d numbers ih =>
    cases names with
    | nil => simp at hn
    | cons name names =>
      rw [List.map_cons, List.map_cons, List.cons.injEq, getElem?_ids_eq_some_iff] at hn
      obtain ⟨⟨m, hm, rfl⟩, hn⟩ := hn
      obtain ⟨layout, hq, ht⟩ := hd d (by simp) m hm
      obtain ⟨layouts, hls, hv⟩ := ih hn fun e he => hd e (by simp [he])
      refine ⟨layout :: layouts, by simp [ht, hls], ?_⟩
      rw [List.filterMap_cons, hq]
      simp only [Option.map_some, hv, List.zip_cons_cons, List.map_cons]
      rfl

theorem outputLayout_view (h : p.Linked t) (hb : t.Builtin) {n : Node ε} (hn : n ∈ p.nodes)
    (i : Nat) (hd : ∀ d ∈ n.dependencies, HasLayout t p q d) :
    ∃ layouts, n.primitive.dependencies.map t.layoutOf = layouts.map some ∧
      n.primitive.outputLayout (q.view i n) = n.primitive.layoutFrom layouts := by
  obtain ⟨layouts, hl, hv⟩ := exists_layouts (h.dependencies n hn) hd
  refine ⟨layouts, hl, ?_⟩
  exact Primitive.outputLayout_congr (hb n.primitive (h.primitive n hn)) rfl rfl hv

theorem InferredTo.hasLayout {bound : Nat} (hi : p.InferredTo bound q) (h : p.Linked t)
    (ho : p.Ordered) (hb : t.Builtin) (ha : t.Acyclic) {i : Nat} (hlt : i < bound) :
    HasLayout t p q i := by
  induction i using Nat.strongRecOn with
  | ind i ih =>
    intro n hn
    have hm := List.mem_of_getElem? hn
    obtain ⟨layout, hq, hr⟩ := hi.done i n hlt hn
    obtain ⟨layouts, hl, he⟩ := outputLayout_view h hb hm i fun d hd =>
      ih d (ho i n hn d hd) (Nat.lt_trans (ho i n hn d hd) hlt)
    refine ⟨layout, hq, ?_⟩
    exact (Topology.layoutOf_eq_some_iff ha (h.primitive n hm)).2 ⟨layouts, hl, he ▸ hr⟩

variable [DecidableEq ε]

theorem layoutFrom_of_infer_error {e : Failure} (h : p.Linked t) (ho : p.Ordered)
    (hb : t.Builtin) (ha : t.Acyclic) (hk : ∀ n ∈ p.nodes, n.type.kind = n.primitive.kind)
    (he : p.infer = .error e) :
    ∃ n ∈ p.nodes, ∃ layouts, n.primitive.dependencies.map t.layoutOf = layouts.map some ∧
      n.primitive.layoutFrom layouts = .error e := by
  obtain ⟨k, q, n, hi, hn, hr⟩ := refused_of_infer ho hk he
  have hm := List.mem_of_getElem? hn
  obtain ⟨layouts, hl, hv⟩ := outputLayout_view h hb hm k fun d hd =>
    hi.hasLayout h ho hb ha (ho k n hn d hd)
  exact ⟨n, hm, layouts, hl, hv ▸ hr⟩

end Program

end InferenceGraph
