import InferenceGraph.Proofs.Host.Pruning
import InferenceGraph.Proofs.Program.Reordering
import InferenceGraph.Proofs.Session.Compilation

set_option autoImplicit false

namespace InferenceGraph

variable {ε : Type} [Extension ε] [DecidableEq ε]

namespace HostNetwork

variable {r : Registry ε} {t t' : Topology ε} {o : CompileOptions} {p p' : Program ε}
variable {data data' : InputData} {x y : HostNetwork ε}
variable {values values' : List (PrimitiveId × List Float32)}

omit [DecidableEq ε] in
theorem Gives.subset (hg : Gives t p data values) (hg' : Gives t' p' data' values')
    (hids : ∀ id ∈ values.map Prod.fst, id ∈ values'.map Prod.fst)
    (hres : ∀ id ∈ values.map Prod.fst, t'.resultOf data' id = t.resultOf data id) :
    values ⊆ values' := by
  intro value hv
  have hid := List.mem_map_of_mem (f := Prod.fst) hv
  obtain ⟨layout, hr⟩ := hg.resultOf value hv
  obtain ⟨value', hv', hfst⟩ := List.mem_map.1 (hids _ hid)
  obtain ⟨layout', hr'⟩ := hg'.resultOf value' hv'
  rw [hfst, hres _ hid, hr, Option.some.injEq, Prod.mk.injEq] at hr'
  obtain rfl : value' = value := Prod.ext hfst hr'.2.symm
  exact hv'

section Perm

variable (h : t.primitives.Perm t'.primitives) (hb : t.Builtin)
variable (hp : Program.ofTopology r t o = .ok p) (hp' : Program.ofTopology r t' o = .ok p')
variable (hs : t.SameInputs o data data')
include h hb hp hs

theorem resultOf_of_perm {id : PrimitiveId} (hk : t.Kept o id) :
    t'.resultOf data' id = t.resultOf data id := by
  have ha := Program.acceptable_of_ofTopology hb hp
  rw [Topology.resultOf_of_perm h ha.acyclic, hs.resultOf_eq ha.closed hk]

include hp'

theorem exists_run_iff_of_perm (hx : x.network.Sound p data) (hy : y.network.Sound p' data')
    (hkx : x.dispatcher.kernels = Kernel.builtins) (hky : y.dispatcher.kernels = Kernel.builtins) :
    (∃ values, x.run.1 = .ok values) ↔ ∃ values', y.run.1 = .ok values' := by
  have hids : ∀ id, id ∈ p'.ids ↔ id ∈ p.ids := fun id =>
    Program.mem_ids_iff_of_perm h hp hp'
  have hkept : ∀ id ∈ p.ids, t'.resultOf data' id = t.resultOf data id := fun id hid =>
    resultOf_of_perm h hb hp hs ((Program.ids_iff_of_ofTopology hp).1 hid)
  rw [exists_run_iff (Program.compiled_of_ofTopology hb hp) hx hkx,
    exists_run_iff (Program.compiled_of_ofTopology (hb.of_perm h) hp') hy hky]
  constructor
  · intro hall id hid
    rw [hkept id ((hids id).1 hid)]
    exact hall id ((hids id).1 hid)
  · intro hall id hid
    rw [← hkept id hid]
    exact hall id ((hids id).2 hid)

theorem perm_of_runs (hx : x.network.Sound p data) (hy : y.network.Sound p' data')
    (hkx : x.dispatcher.kernels = Kernel.builtins) (hky : y.dispatcher.kernels = Kernel.builtins)
    (hrx : x.run.1 = .ok values) (hry : y.run.1 = .ok values') : values'.Perm values := by
  have hg := gives_of_run (Program.compiled_of_ofTopology hb hp) hx
    (hkx ▸ Kernel.partial_builtins) hrx
  have hg' := gives_of_run (Program.compiled_of_ofTopology (hb.of_perm h) hp') hy
    (hky ▸ Kernel.partial_builtins) hry
  obtain ⟨ids, ho, hn⟩ := Program.exists_outputIds hp
  obtain ⟨ids', ho', hn'⟩ := Program.exists_outputIds hp'
  obtain rfl := Except.ok.inj (ho.symm.trans hg.outputIds)
  obtain rfl := Except.ok.inj (ho'.symm.trans hg'.outputIds)
  have hids : ∀ id, id ∈ values'.map Prod.fst ↔ id ∈ values.map Prod.fst := fun id => by
    rw [Program.outputIds_iff_of_ofTopology hp ho, Program.outputIds_iff_of_ofTopology hp' ho',
      Topology.exposed_iff_of_perm h]
  have hres : ∀ id ∈ values.map Prod.fst, t'.resultOf data' id = t.resultOf data id :=
    fun id hid => resultOf_of_perm h hb hp hs
      ((Program.outputIds_iff_of_ofTopology hp ho).1 hid).kept
  have hsub := hg.subset hg' (fun id => (hids id).2) hres
  have hsub' := hg'.subset hg (fun id => (hids id).1) fun id hid => (hres id ((hids id).1 hid)).symm
  exact (List.perm_ext_iff_of_nodup (.of_map _ hn') (.of_map _ hn)).2 fun value =>
    ⟨fun hv => hsub' hv, fun hv => hsub hv⟩

end Perm

end HostNetwork

namespace Session

variable {s : Session ε} {t' : Topology ε} {o : CompileOptions} {directory : Option Path}
variable {p : Program ε}

variable (h : s.topology.primitives.Perm t'.primitives) (hb : s.topology.Builtin)
include h hb

theorem exists_compiled_of_perm (hp : (s.compiled o directory).1 = .ok p) :
    ∃ p', ((s.withTopology t').compiled o directory).1 = .ok p' := by
  obtain ⟨p', hof'⟩ := Program.exists_ofTopology_of_perm h hb (ofTopology_of_compiled hp)
  exact ⟨p', compiled_of_compiled hp hof'⟩

/-- The order of the primitives makes no difference to whether a compilation succeeds, to what any
id stands for in the program, or to what a network computes. -/
theorem compiled_reordered (o : CompileOptions) (directory : Option Path) :
    ((∃ p, (s.compiled o directory).1 = .ok p) ↔
      ∃ p', ((s.withTopology t').compiled o directory).1 = .ok p') ∧
    ∀ p p', (s.compiled o directory).1 = .ok p →
      ((s.withTopology t').compiled o directory).1 = .ok p' →
      Program.Reorders o p p' ∧
        ∃ x y, HostNetwork.ofProgram p = .ok x ∧ HostNetwork.ofProgram p' = .ok y ∧
          ∀ calls calls' : List (Call ε), (∀ c ∈ calls, c.Usual) → (∀ c ∈ calls', c.Usual) →
            s.topology.SameInputs o (x.after calls).2 (y.after calls').2 →
            (x.after calls).1.dispatcher.kernels = Kernel.builtins →
            (y.after calls').1.dispatcher.kernels = Kernel.builtins →
            ((∃ values, (x.after calls).1.run.1 = .ok values) ↔
              ∃ values', (y.after calls').1.run.1 = .ok values') ∧
            ∀ values values', (x.after calls).1.run.1 = .ok values →
              (y.after calls').1.run.1 = .ok values' → values'.Perm values := by
  refine ⟨⟨fun ⟨p, hp⟩ => exists_compiled_of_perm h hb hp, fun ⟨p', hp'⟩ => ?_⟩, ?_⟩
  · exact exists_compiled_of_perm (s := s.withTopology t') h.symm (hb.of_perm h) hp'
  intro p p' hp hp'
  have hof := ofTopology_of_compiled hp
  have hof' : Program.ofTopology s.registry t' o = .ok p' := ofTopology_of_compiled hp'
  obtain ⟨x, hx⟩ := HostNetwork.exists_ofProgram hb hof
  obtain ⟨y, hy⟩ := HostNetwork.exists_ofProgram (hb.of_perm h) hof'
  refine ⟨Program.reorders_of_perm h hb hof hof', x, y, hx, hy, ?_⟩
  intro calls calls' hu hu' hs hkx hky
  have hlx := HostNetwork.live_after hb hof hx hu
  have hly := HostNetwork.live_after (hb.of_perm h) hof' hy hu'
  exact ⟨HostNetwork.exists_run_iff_of_perm h hb hof hof' hs hlx.sound hly.sound hkx hky,
    fun values values' hrx hry =>
      HostNetwork.perm_of_runs h hb hof hof' hs hlx.sound hly.sound hkx hky hrx hry⟩

end Session

namespace Topology

def copiesReversed : Topology Empty := ⟨copies.primitives.reverse, by decide⟩

theorem perm_copiesReversed : copies.primitives.Perm copiesReversed.primitives :=
  (List.reverse_perm _).symm

variable {o : CompileOptions} {p : Program Empty} {x : HostNetwork Empty}

theorem after_setInput_copiesReversed (hp : Program.ofTopology .standard copiesReversed o = .ok p)
    (hx : HostNetwork.ofProgram p = .ok x) (hs : copiesReversed.Kept o source) :
    (x.after [.setInput source pair]).2 = InputData.set (fun _ => none) source pair ∧
      (x.after [.setInput source pair]).1.dispatcher = .standard := by
  have hkind : ∀ q ∈ copiesReversed.primitives, q.id = source → q.kind = .inputLayout := by decide
  have hr := (resultOf_of_perm perm_copiesReversed acyclic_copies _ source).trans resultOf_source
  obtain ⟨y, -, hset, hd⟩ := HostNetwork.exists_after_setInput (by decide) hp hx
    ((Program.ids_iff_of_ofTopology hp).2 hs) hkind hr
  rw [hset]
  exact ⟨rfl, hd⟩

end Topology

namespace Session

theorem compiled_reordered_copies : ∃ (p p' : Program Empty) (x y : HostNetwork Empty)
    (values values' : List (PrimitiveId × List Float32)),
    (ofCopies.compiled .standard (some (.ofString "stages"))).1 = .ok p ∧
      ((ofCopies.withTopology Topology.copiesReversed).compiled .standard
        (some (.ofString "stages"))).1 = .ok p' ∧
      Program.Reorders .standard p p' ∧ HostNetwork.ofProgram p = .ok x ∧
      HostNetwork.ofProgram p' = .ok y ∧ (x.after Topology.interrupted).1.run.1 = .ok values ∧
      (y.after [.setInput Topology.source Topology.pair]).1.run.1 = .ok values' ∧
      values'.Perm values := by
  have hs : Topology.source ∈ Topology.copies.ids := by decide
  have hs' : Topology.source ∈ Topology.copiesReversed.ids := by decide
  obtain ⟨p, hp⟩ := exists_compiled_ofCopies (o := .standard) fun _ h => by cases h
  obtain ⟨hiff, hsame⟩ := compiled_reordered (s := ofCopies) Topology.perm_copiesReversed
    (by decide) .standard (some (.ofString "stages"))
  obtain ⟨p', hp'⟩ := hiff.1 ⟨p, hp⟩
  obtain ⟨hreorders, x, y, hx, hy, hruns⟩ := hsame p p' hp hp'
  have hxt : HostNetwork.ofTopology .standard Topology.copies .standard = .ok x :=
    bind_eq_ok_iff.2 ⟨p, ofTopology_of_compiled (s := ofCopies) hp, hx⟩
  obtain ⟨hd, hk⟩ := Topology.after_interrupted hxt hs
  obtain ⟨hd', hk'⟩ :=
    Topology.after_setInput_copiesReversed
      (ofTopology_of_compiled (s := ofCopies.withTopology Topology.copiesReversed) hp') hy hs'
  obtain ⟨hrun, hperm⟩ := hruns Topology.interrupted [.setInput Topology.source Topology.pair]
    Topology.usual_interrupted (by simp [Call.Usual])
    (by rw [hd, hd']; exact fun _ _ _ _ => rfl) (by rw [hk]; rfl) (by rw [hk']; rfl)
  obtain ⟨values, hv⟩ := Topology.exists_run_interrupted hxt hs
  obtain ⟨values', hv'⟩ := hrun.1 ⟨values, hv⟩
  exact ⟨p, p', x, y, values, values', hp, hp', hreorders, hx, hy, hv, hv',
    hperm values values' hv hv'⟩

end Session

end InferenceGraph
