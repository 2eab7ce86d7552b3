import InferenceGraph.Proofs.Host.Head

set_option autoImplicit false

namespace InferenceGraph

/-- Whatever was called before it, and whether that failed or not, a run that succeeds gives the
values of the outputs for the data set last. -/
theorem HostNetwork.eval_of_run {ε : Type} [Extension ε] [DecidableEq ε] {r : Registry ε}
    {t : Topology ε} {o : CompileOptions} {x : HostNetwork ε} {calls : List (Call ε)}
    {values : List (PrimitiveId × List Float32)} (hb : t.Builtin)
    (hx : ofTopology r t o = .ok x) (hu : ∀ c ∈ calls, c.Usual)
    (hr : (x.after calls).1.run.1 = .ok values) :
    ∃ p, Program.ofTopology r t o = .ok p ∧ p.outputIds = .ok (values.map Prod.fst) ∧
      ∀ value ∈ values,
        (t.eval (x.after calls).2 value.1).map Tensor.values = some value.2 := by
  obtain ⟨p, hp, hc, hl⟩ := exists_live hb hx hu
  have hg := gives_of_run hc hl.sound hl.kernels hr
  refine ⟨p, hp, hg.outputIds, fun value hv => ?_⟩
  obtain ⟨layout, hres⟩ := hg.resultOf value hv
  rw [Topology.eval_of_resultOf hres]
  rfl

namespace DetectionHead

def double : DetectionHead := ⟨2, 1, 3, 2⟩

/-- All inputs are set to ones. This comes after a run without data and values for what is no input,
and before a run without kernels. -/
def interrupted : List (Call Empty) :=
  [.run, .setInput detections [1], .setDispatcher .empty] ++ double.filling 1 ++
    [.run, .setDispatcher .standard]

theorem usual_interrupted : ∀ c ∈ interrupted, c.Usual := by
  have he : Kernel.Partial (HostDispatcher.empty : HostDispatcher Empty).kernels :=
    fun name kernel hl => by cases hl
  have hs : Kernel.Partial (HostDispatcher.standard : HostDispatcher Empty).kernels :=
    Kernel.partial_builtins
  have hf : ∀ c ∈ (double.filling 1 : List (Call Empty)), c.Usual := by
    intro c hc
    obtain ⟨id, values, rfl⟩ := exists_of_mem_filling hc
    trivial
  simp only [interrupted, List.forall_mem_append, List.forall_mem_cons]
  exact ⟨⟨⟨trivial, trivial, he, List.forall_mem_nil _⟩, hf⟩, trivial, hs, List.forall_mem_nil _⟩

theorem fed_interrupted : double.Fed interrupted := by
  intro id layout hi
  obtain ⟨values, hl, hm⟩ := fed_filling (ε := Empty) double 1 id layout hi
  exact ⟨values, hl, List.mem_append_left _ (List.mem_append_right _ hm)⟩

theorem dispatcher_interrupted (x : HostNetwork Empty) :
    (x.after interrupted).1.dispatcher = .standard := by
  have hlast : ∀ state : HostNetwork Empty × InputData,
      ([.run, .setDispatcher .standard].foldl Call.apply state).1.dispatcher = .standard :=
    fun _ => rfl
  rw [HostNetwork.after, interrupted, List.foldl_append]
  exact hlast _

end DetectionHead

theorem HostNetwork.eval_of_run_interrupted : ∃ (x : HostNetwork Empty) (p : Program Empty)
    (values : List Float32),
    ofTopology .standard DetectionHead.double.topology .standard = .ok x ∧
      (x.after DetectionHead.interrupted).1.run.1 = .ok [(DetectionHead.detections, values)] ∧
      Program.ofTopology .standard DetectionHead.double.topology .standard = .ok p ∧
      p.outputIds = .ok [DetectionHead.detections] ∧
      ((DetectionHead.double.topology : Topology Empty).eval (x.after DetectionHead.interrupted).2
        DetectionHead.detections).map Tensor.values = some values := by
  have hu : DetectionHead.double.Usable :=
    ⟨by decide, by decide, by decide, by decide, by decide⟩
  have hb := DetectionHead.double.builtin_topology (ε := Empty)
  obtain ⟨p, hp⟩ := DetectionHead.exists_program (ε := Empty) hu
  obtain ⟨x, hx⟩ := exists_ofProgram hb hp
  have hxt := bind_eq_ok_iff.2 ⟨p, hp, hx⟩
  obtain ⟨values, hr, -⟩ := DetectionHead.run_of_fed hu hp hx DetectionHead.usual_interrupted
    DetectionHead.fed_interrupted
    (congrArg HostDispatcher.kernels (DetectionHead.dispatcher_interrupted x))
  obtain ⟨p', hp', hids, he⟩ := eval_of_run hb hxt DetectionHead.usual_interrupted hr
  exact ⟨x, p', values, hxt, hr, hp', hids, he _ (List.mem_singleton_self _)⟩

end InferenceGraph
