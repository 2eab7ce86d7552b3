import InferenceGraph.Proofs.Program.Acceptance
import InferenceGraph.Proofs.Program.Dump
import InferenceGraph.Session

set_option autoImplicit false

namespace InferenceGraph.Session

variable {ε : Type} [Extension ε] [DecidableEq ε] {s : Session ε} {t' : Topology ε}
variable {o o' : CompileOptions} {directory : Option Path} {p p' : Program ε}

theorem compiled_some_eq_ok_iff {directory : Path} : (s.compiled o (some directory)).1 = .ok p ↔
    (Compilation.saveStages directory s.files (s.compilation o).stages).1 = .ok () ∧
      Program.ofTopology s.registry s.topology o = .ok p := by
  rw [← Compilation.result_ofTopology]
  exact Compilation.saved_eq_ok_iff

theorem ofTopology_of_compiled (hp : (s.compiled o directory).1 = .ok p) :
    Program.ofTopology s.registry s.topology o = .ok p := by
  cases directory with
  | none =>
    rw [compiled_none] at hp
    exact hp
  | some directory => exact (compiled_some_eq_ok_iff.1 hp).2

theorem compiled_of_compiled (hp : (s.compiled o directory).1 = .ok p)
    (hp' : Program.ofTopology s.registry t' o' = .ok p') :
    ((s.withTopology t').compiled o' directory).1 = .ok p' := by
  cases directory with
  | none =>
    rw [compiled_none]
    exact hp'
  | some directory =>
    have hstages := (Compilation.stages_of_ofTopology hp').trans
      (Compilation.stages_of_ofTopology (ofTopology_of_compiled hp)).symm
    have hsaved := (compiled_some_eq_ok_iff.1 hp).1
    exact compiled_some_eq_ok_iff.2 ⟨(Compilation.saveStages_congr rfl hstages).trans hsaved, hp'⟩

def ofCopies : Session Empty := ⟨.standard, Topology.copies, none, none, ⟨[], []⟩⟩

theorem exists_compiled_ofCopies {o : CompileOptions} (hr : Topology.copies.Requestable o) :
    ∃ p, (ofCopies.compiled o (some (.ofString "stages"))).1 = .ok p := by
  obtain ⟨p, hp⟩ := Topology.exists_program_copies hr
  have hsaved : (Compilation.saveStages (.ofString "stages") ⟨[], []⟩
      ([.initial, .sorted, .layouts].map fun stage => (stage, (⟨[], [], []⟩ : Program Empty)))).1 =
        .ok () := by decide +kernel
  refine ⟨p, (compiled_some_eq_ok_iff (s := ofCopies)).2 ⟨?_, hp⟩⟩
  exact (Compilation.saveStages_congr rfl (Compilation.stages_of_ofTopology hp)).trans hsaved

end InferenceGraph.Session
