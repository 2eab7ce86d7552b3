import InferenceGraph.Proofs.Program.Compiled

set_option autoImplicit false

namespace InferenceGraph

variable {ε : Type} [Extension ε]

/-- A valid primitive of a builtin kind can be described once its layout is known. -/
theorem Primitive.exists_describe {q : Primitive ε} (hb : q.kind.isBuiltin = true)
    (hv : q.validate = .ok ()) {v : NodeView} (hi : v.inputs.length = q.dependencies.length)
    {layout : Layout} (hl : v.layout? = some layout) :
    ∃ text, q.kind.rules.describe v q.params = .ok text := by
  have hlength := hi.trans (length_dependencies hb hv)
  have hout : v.outputLayout = .ok layout := by rw [NodeView.outputLayout, hl, Outcome.get_some]
  have hdep : ∀ i, i < v.inputs.length → ∃ id, v.dependency i = .ok id := fun i hi =>
    ⟨v.inputs[i].id, by rw [NodeView.dependency, List.getElem?_eq_getElem hi]⟩
  have hdescribe : ∀ kind parameters, ∃ text, v.describe kind parameters = .ok text :=
    fun kind parameters => ⟨_, by rw [NodeView.describe, hout, ok_bind]; rfl⟩
  obtain ⟨id, inputs, padding, kind, params⟩ := q
  simp only at hb hlength ⊢
  cases kind with
  | custom e => simp [Kind.isBuiltin] at hb
  | inputLayout => exact ⟨_, bind_eq_ok_iff.2 ⟨layout, hout, rfl⟩⟩
  | activation => exact hdescribe _ _
  | reorder => exact hdescribe _ _
  | eltwise =>
    obtain ⟨first, hfirst⟩ := hdep 0 (by simp [hlength, arity])
    exact ⟨_, bind_eq_ok_iff.2 ⟨first, hfirst, bind_eq_ok_iff.2 ⟨layout, hout, rfl⟩⟩⟩
  | detectionOutput =>
    obtain ⟨location, hlocation⟩ := hdep 0 (by simp [hlength, arity])
    obtain ⟨confidence, hconfidence⟩ := hdep 1 (by simp [hlength, arity])
    obtain ⟨prior, hprior⟩ := hdep 2 (by simp [hlength, arity])
    exact ⟨_, bind_eq_ok_iff.2 ⟨location, hlocation, bind_eq_ok_iff.2 ⟨confidence, hconfidence,
      bind_eq_ok_iff.2 ⟨prior, hprior, bind_eq_ok_iff.2 ⟨layout, hout, rfl⟩⟩⟩⟩⟩

namespace Program

variable {t : Topology ε} {p p' : Program ε}

theorem Linked.length_inputs_view (h : p.Linked t) {n : Node ε} (hn : n ∈ p.nodes) (i : Nat) :
    (p.view i n).inputs.length = n.primitive.dependencies.length := by
  obtain ⟨views, hviews⟩ : ∃ views : List InputView,
      n.dependencies.map (fun d => p.nodes[d]?.map fun m => ⟨m.id, m.layout?⟩) = views.map some :=
    exists_map_some fun d hd => by
      obtain ⟨m, hm, -⟩ := h.exists_dependency hn hd
      exact ⟨_, by rw [hm, Option.map_some]⟩
  have hlength : n.dependencies.length = n.primitive.dependencies.length := by
    simpa using congrArg List.length (h.dependencies n hn)
  rw [view, filterMap_eq_of_map hviews, ← hlength]
  simpa using (congrArg List.length hviews).symm

/-- The same program, but for the order in which the users of a node are listed. -/
structure Restates (p p' : Program ε) : Prop where
  size : p'.size = p.size
  node : ∀ (i : Nat) (n : Node ε), p.nodes[i]? = some n →
    ∃ users, users.Perm n.users ∧ p'.nodes[i]? = some { n with users := users }
  index : p'.index = p.index
  outputs : p'.outputs = p.outputs

variable [DecidableEq ε]

theorem Compiled.exists_describe (h : p.Compiled t) {i : Nat} (hi : i < p.size) :
    ∃ text, p.describe i = .ok text := by
  obtain ⟨n, hn⟩ : ∃ n, p.nodes[i]? = some n := ⟨_, List.getElem?_eq_getElem hi⟩
  have hm := List.mem_of_getElem? hn
  obtain ⟨layout, hl⟩ := h.hasLayout n hm
  obtain ⟨text, htext⟩ := Primitive.exists_describe (h.isBuiltin hm) (h.validate hm)
    (v := p.view i n) (h.linked.length_inputs_view hm i) hl
  have hk := h.kind n hm
  refine ⟨text, ?_⟩
  rw [describe, node, hn, Outcome.get_some, ok_bind]
  obtain ⟨primitive, ⟨kind, tag⟩, dependencies, users, layout?, isOutput⟩ := n
  simp only at hk
  subst hk
  simpa [Node.params] using htext

theorem Compiled.exists_text (h : p.Compiled t) : ∃ text, p.text = .ok text := by
  obtain ⟨ids, ho, -⟩ := h.exists_outputIds
  obtain ⟨lines, hl⟩ : ∃ lines, ((List.range p.size).mapM fun index =>
      return "    " ++ nodeText index ++ ": " ++ (← p.describe index) ++ ",\n") = Except.ok lines :=
    mapM_ok_of_forall fun i hi => by
      obtain ⟨text, htext⟩ := h.exists_describe (List.mem_range.1 hi)
      exact ⟨_, bind_eq_ok_iff.2 ⟨text, htext, rfl⟩⟩
  exact ⟨_, bind_eq_ok_iff.2 ⟨ids, ho, bind_eq_ok_iff.2 ⟨lines, hl, rfl⟩⟩⟩

namespace Restates

variable (h : p.Restates p')
include h

omit [DecidableEq ε] in
theorem map_getElem? {α : Type} {f : Node ε → α} (hf : ∀ n users, f { n with users := users } = f n)
    (i : Nat) : p'.nodes[i]?.map f = p.nodes[i]?.map f := by
  rcases Nat.lt_or_ge i p.size with hi | hi
  · obtain ⟨n, hn⟩ : ∃ n, p.nodes[i]? = some n := ⟨_, List.getElem?_eq_getElem hi⟩
    obtain ⟨users, -, hn'⟩ := h.node i n hn
    rw [hn, hn', Option.map_some, Option.map_some, hf]
  · rw [List.getElem?_eq_none (show p.nodes.length ≤ i from hi),
      List.getElem?_eq_none (show p'.nodes.length ≤ i from h.size.trans_le hi)]

omit [DecidableEq ε] in
theorem outputIds_eq : p'.outputIds = p.outputIds := by
  have hids : ∀ i, (do return (← p'.node i).id : Outcome PrimitiveId) =
      do return (← p.node i).id := by
    intro i
    have hid := h.map_getElem? (f := Node.id) (fun _ _ => rfl) i
    rw [Program.node, Program.node]
    cases hn : p.nodes[i]? <;> cases hn' : p'.nodes[i]? <;> simp_all [Outcome.get]
  rw [outputIds, outputIds, h.outputs]
  exact mapM_congr_of_mem fun i _ => hids i

theorem describe_eq (i : Nat) : p'.describe i = p.describe i := by
  have hview : ∀ n users, p'.view i { n with users := users } = p.view i n := fun n users => by
    simp only [view, h.map_getElem? (f := fun d => (⟨d.id, d.layout?⟩ : InputView))
      fun _ _ => rfl]
    rfl
  rcases Nat.lt_or_ge i p.size with hi | hi
  · obtain ⟨n, hn⟩ : ∃ n, p.nodes[i]? = some n := ⟨_, List.getElem?_eq_getElem hi⟩
    obtain ⟨users, -, hn'⟩ := h.node i n hn
    simp only [describe, Program.node, hn, hn', Outcome.get_some, ok_bind, hview]
    rfl
  · rw [describe, describe, Program.node, Program.node,
      List.getElem?_eq_none (show p.nodes.length ≤ i from hi),
      List.getElem?_eq_none (show p'.nodes.length ≤ i from h.size.trans_le hi)]
    rfl

theorem text_eq : p'.text = p.text := by
  rw [text, text, h.outputIds_eq, h.size]
  simp only [h.describe_eq]

end Restates

end Program

end InferenceGraph
