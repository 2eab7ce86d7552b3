import InferenceGraph.Proofs.Program.Recompilation
import InferenceGraph.Proofs.Session.Compilation

set_option autoImplicit false

namespace InferenceGraph.Session

variable {ε : Type} [Extension ε] [DecidableEq ε] {s : Session ε} {o : CompileOptions}
variable {directory : Option Path} {p : Program ε}

/-- What comes out of a compilation, and of further ones that start from it. -/
structure Repeats (s : Session ε) (o : CompileOptions) (directory : Option Path) (p : Program ε)
    (ids : List PrimitiveId) (text : String) : Prop where
  outputIds : p.outputIds = .ok ids
  mem_ids_iff : ∀ id, id ∈ ids ↔ s.topology.Exposed o id
  listed : p.text = .ok text
  restated : ∃ t' p', Topology.empty.addAll (p.nodes.map Node.primitive) = (t', .ok ()) ∧
    ((s.withTopology t').compiled ⟨some ids, false⟩ directory).1 = .ok p' ∧
      p'.nodes.map Node.primitive = t'.primitives ∧ p.Restates p' ∧ p'.text = .ok text
  requested : (s.compiled ⟨some ids, false⟩ directory).1 = .ok p
  perm : o.outputs = none ∨ o.exposeAll = true →
    (p.nodes.map Node.primitive).Perm s.topology.primitives
  sublist : s.topology.Ascending → (p.nodes.map Node.primitive).Sublist s.topology.primitives
  unmoved : s.topology.Ascending → o.outputs = none ∨ o.exposeAll = true →
    p.nodes.map Node.primitive = s.topology.primitives

/-- The primitives of a program, in its order, compile to the same program again if its outputs are
asked for, with the same listing. Its own topology does so too, whatever was asked for before.
Nothing is left out without a request, and primitives that were added after what they depend on keep
their order. -/
theorem compiled_again (hb : s.topology.Builtin) (hp : (s.compiled o directory).1 = .ok p) :
    ∃ ids text, s.Repeats o directory p ids text := by
  have hof := ofTopology_of_compiled hp
  obtain ⟨ids, ho, -⟩ := Program.exists_outputIds hof
  obtain ⟨text, htext⟩ := (Program.compiled_of_ofTopology hb hof).exists_text
  refine ⟨ids, text, ?_⟩
  constructor
  case outputIds => exact ho
  case mem_ids_iff => exact fun id => Program.outputIds_iff_of_ofTopology hof ho
  case listed => exact htext
  case restated =>
    obtain ⟨t', p', ht, hof', hprimitives, hrestates⟩ := Program.exists_restated hb hof ho
    exact ⟨t', p', ht, compiled_of_compiled hp hof', hprimitives, hrestates,
      hrestates.text_eq.trans htext⟩
  case requested => exact compiled_of_compiled hp (Program.ofTopology_requested hof ho)
  case perm =>
    exact fun hall => Program.primitives_perm hof fun _ => Topology.kept_of_mem_ids hall
  case sublist => exact fun ha => Program.primitives_sublist_of_ascending ha hof
  case unmoved =>
    exact fun ha hall =>
      Program.primitives_eq_of_ascending ha hof fun _ => Topology.kept_of_mem_ids hall

theorem compiled_again_copies : ∃ (p : Program Empty) (ids : List PrimitiveId) (text : String),
    (ofCopies.compiled .standard (some (.ofString "stages"))).1 = .ok p ∧
      ofCopies.Repeats .standard (some (.ofString "stages")) p ids text := by
  obtain ⟨p, hp⟩ := exists_compiled_ofCopies (o := .standard) fun _ h => by cases h
  obtain ⟨ids, text, hrepeats⟩ := compiled_again (s := ofCopies) (by decide) hp
  exact ⟨p, ids, text, hp, hrepeats⟩

end InferenceGraph.Session
