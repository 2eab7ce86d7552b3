import InferenceGraph.Proofs.Kind.Derivation
import InferenceGraph.Proofs.Program.Compiled

/-!
# The layouts of a compiled program

Every node has the layout that its rule derives from the final layouts of its dependencies. What a
single rule keeps is carried along the processing order to every node: the flat format goes with
flat data, and a chain of nodes that choose no size of their own has as many elements at its end as
at its beginning.
-/

set_option autoImplicit false

namespace InferenceGraph.Program

variable {ε : Type} [Extension ε] {r : Registry ε} {t : Topology ε} {o : CompileOptions}
variable {p : Program ε}

def layout? (p : Program ε) (i : Nat) : Option Layout := p.nodes[i]?.bind Node.layout?

theorem inputs_eq {numbers : List Nat} {names : List PrimitiveId} {layouts : List Layout}
    (hn : numbers.map (p.ids[·]?) = names.map some)
    (hl : numbers.map p.layout? = layouts.map some) :
    (numbers.filterMap fun d => p.nodes[d]?.map fun m => (⟨m.id, m.layout?⟩ : InputView)) =
      (names.zip layouts).map fun (id, layout) => ⟨id, some layout⟩ := by
  induction numbers generalizing names layouts with
  | nil =>
    obtain rfl : names = [] := by simpa using hn.symm
    rfl
  | cons d numbers ih =>
    obtain ⟨name, names, rfl⟩ : ∃ name rest, names = name :: rest :=
      List.exists_cons_of_ne_nil (by rintro rfl; simp at hn)
    obtain ⟨layout, layouts, rfl⟩ : ∃ layout rest, layouts = layout :: rest :=
      List.exists_cons_of_ne_nil (by rintro rfl; simp at hl)
    rw [List.map_cons, List.map_cons, List.cons.injEq, getElem?_ids_eq_some_iff] at hn
    rw [List.map_cons, List.map_cons, List.cons.injEq] at hl
    obtain ⟨⟨m, hm, rfl⟩, hn⟩ := hn
    obtain ⟨hlayout, hl⟩ := hl
    rw [layout?, hm, Option.bind_some] at hlayout
    rw [List.filterMap_cons, hm, Option.map_some, ih hn hl, hlayout]
    rfl

theorem Ready.exists_inputs (h : p.Ready t) {n : Node ε} (hn : n ∈ p.nodes) :
    ∃ inputs : List Layout, n.dependencies.map p.layout? = inputs.map some := by
  refine exists_map_some fun d hd => ?_
  obtain ⟨m, hm, -⟩ := h.linked.exists_dependency hn hd
  obtain ⟨layout, hl⟩ := h.hasLayout m (List.mem_of_getElem? hm)
  exact ⟨layout, by rw [layout?, hm, Option.bind_some, hl]⟩

/-- The node has the layout that its rule derives. -/
def Derived (p : Program ε) (n : Node ε) : Prop :=
  ∃ (inputs : List Layout) (layout : Layout),
    n.dependencies.map p.layout? = inputs.map some ∧ n.layout? = some layout ∧
    n.primitive.kind.Derives n.primitive.params n.primitive.padding inputs layout

def PassesOn (p : Program ε) (i j : Nat) : Prop :=
  ∃ n, p.nodes[i]? = some n ∧ n.primitive.kind.keepsSize = true ∧ j ∈ n.dependencies

variable [DecidableEq ε]

theorem layoutFrom_of_ofTopology (h : ofTopology r t o = .ok p) {n : Node ε} (hn : n ∈ p.nodes)
    (hb : n.primitive.kind.isBuiltin = true) :
    ∃ (inputs : List Layout) (layout : Layout), n.dependencies.map p.layout? = inputs.map some ∧
      n.layout? = some layout ∧ inputs.length = n.primitive.dependencies.length ∧
      n.primitive.validate = .ok () ∧ n.primitive.layoutFrom inputs = .ok layout := by
  obtain ⟨first, second, kept, outputs, hp⟩ := passes_of_ofTopology h
  have hready := ready_of_ofTopology h
  obtain ⟨inputs, hi⟩ := hready.exists_inputs hn
  obtain ⟨i, hi'⟩ := List.mem_iff_getElem?.1 hn
  have hdeps := hready.linked.dependencies n hn
  obtain ⟨m, layout, hm, rfl, hf⟩ := hp.inferredTo.exists_before hi'
  have hv := (hp.sortedTo.created hp.initial m (List.mem_of_getElem? hm)).valid
  have hlen : inputs.length = m.primitive.dependencies.length := by
    have hd := congrArg List.length hdeps
    have hi := congrArg List.length hi
    simp only [List.length_map] at hd hi
    exact hi.symm.trans hd
  refine ⟨inputs, layout, hi, rfl, hlen, hv, ?_⟩
  rw [← hf]
  exact Primitive.outputLayout_congr hb rfl rfl (inputs_eq hdeps hi).symm

theorem derived_of_ofTopology (h : ofTopology r t o = .ok p) {n : Node ε} (hn : n ∈ p.nodes)
    (hb : n.primitive.kind.isBuiltin = true) : p.Derived n := by
  obtain ⟨inputs, layout, hi, hl, hlen, hv, hf⟩ := layoutFrom_of_ofTopology h hn hb
  exact ⟨inputs, layout, hi, hl, Primitive.derives_of_layoutFrom hb hv hlen hf⟩

section Builtin

variable (h : ofTopology r t o = .ok p)
variable (hb : ∀ n ∈ p.nodes, n.primitive.kind.isBuiltin = true)
include h hb

theorem flat_of_ofTopology {i : Nat} {layout : Layout} (hl : p.layout? i = some layout) :
    layout.Flat := by
  -- Nodes stand in processing order, so every dependency has a smaller number.
  induction i using Nat.strongRecOn generalizing layout with
  | ind i ih =>
    obtain ⟨n, hn, hl⟩ := Option.bind_eq_some_iff.1 hl
    have hm := List.mem_of_getElem? hn
    obtain ⟨inputs, layout', hi, hl', hd⟩ := derived_of_ofTopology h hm (hb n hm)
    obtain rfl := Option.some.inj (hl.symm.trans hl')
    refine hd.flat fun x hx => ?_
    have hs := List.mem_map_of_mem (f := some) hx
    rw [← hi] at hs
    obtain ⟨d, hdep, hs⟩ := List.mem_map.1 hs
    exact ih d ((ready_of_ofTopology h).ordered i n hn d hdep) hs

theorem size_eq_of_passesOn {i j : Nat} {a b : Layout} (hij : p.PassesOn i j)
    (ha : p.layout? i = some a) (hb' : p.layout? j = some b) : b.size = a.size := by
  obtain ⟨n, hn, hk, hj⟩ := hij
  have hm := List.mem_of_getElem? hn
  obtain ⟨inputs, layout, hi, hl, hd⟩ := derived_of_ofTopology h hm (hb n hm)
  rw [layout?, hn, Option.bind_some, hl] at ha
  obtain rfl := Option.some.inj ha
  have hs := List.mem_map_of_mem (f := p.layout?) hj
  rw [hi, hb'] at hs
  obtain ⟨x, hx, hxb⟩ := List.mem_map.1 hs
  obtain rfl := Option.some.inj hxb
  exact hd.size_eq hk x hx

theorem size_eq_of_chain {i j : Nat} {a b : Layout} (hij : Relation.ReflTransGen p.PassesOn i j)
    (ha : p.layout? i = some a) (hb' : p.layout? j = some b) : b.size = a.size := by
  induction hij generalizing b with
  | refl => rw [Option.some.inj (ha.symm.trans hb')]
  | tail hij hjk ih =>
    rename_i j k
    obtain ⟨n, hn, -, -⟩ := id hjk
    obtain ⟨layout, hl⟩ := (ready_of_ofTopology h).hasLayout n (List.mem_of_getElem? hn)
    have hj : p.layout? j = some layout := by rw [layout?, hn, Option.bind_some, hl]
    exact (size_eq_of_passesOn h hb hjk hj hb').trans (ih hj)

end Builtin

/-- The rules hold at every node, and so does what follows from them along its dependencies. -/
structure LaidOut (p : Program ε) : Prop where
  derived : ∀ n ∈ p.nodes, p.Derived n
  padding : ∀ n ∈ p.nodes, n.primitive.kind ≠ .inputLayout →
    ∃ layout, n.layout? = some layout ∧ layout.padding = n.primitive.padding
  flat : ∀ (i : Nat) (layout : Layout), p.layout? i = some layout → layout.format = .bf →
    layout.size.y = 1 ∧ layout.size.x = 1
  count : ∀ (i j : Nat) (a b : Layout), Relation.ReflTransGen p.PassesOn i j →
    p.layout? i = some a → p.layout? j = some b → b.count = a.count

theorem laidOut_of_ofTopology (h : ofTopology r t o = .ok p)
    (hb : ∀ n ∈ p.nodes, n.primitive.kind.isBuiltin = true) : p.LaidOut where
  derived := fun n hn => derived_of_ofTopology h hn (hb n hn)
  padding := by
    intro n hn hk
    obtain ⟨inputs, layout, -, hl, hd⟩ := derived_of_ofTopology h hn (hb n hn)
    exact ⟨layout, hl, hd.padding_eq hk⟩
  flat := fun _ _ hl => flat_of_ofTopology h hb hl
  count := fun _ _ _ _ hij ha hb' => congrArg TensorSize.count (size_eq_of_chain h hb hij ha hb')

theorem laidOut_of_ofTopology_copies :
    ∃ p, ofTopology .standard Topology.copies .standard = .ok p ∧
      (∀ n ∈ p.nodes, n.primitive.kind.isBuiltin = true) ∧ p.LaidOut := by
  obtain ⟨p, hp⟩ := Topology.exists_program_copies (o := .standard) nofun
  have hc : Topology.copies.Builtin := by decide
  have hb : ∀ n ∈ p.nodes, n.primitive.kind.isBuiltin = true := fun n hn =>
    (compiled_of_ofTopology hc hp).isBuiltin hn
  exact ⟨p, hp, hb, laidOut_of_ofTopology hp hb⟩

end InferenceGraph.Program
