import InferenceGraph.Host.Network
import InferenceGraph.Proofs.Host.Run

set_option autoImplicit false

namespace InferenceGraph

variable {ε : Type} [Extension ε] {t : Topology ε} {p : Program ε} {data : InputData}

namespace Network

variable {n : Network ε} {i : Instance} {k : Nat} {events : List HostEvent}
variable {outputs : List (NetworkOutput HostEvent)} {output : NetworkOutput HostEvent}

theorem Sound.exists_read (hc : p.Compiled t) (h : n.Sound p data)
    (hall : ∀ d < p.size, Holds t p data n.instances n.store d) (hi : n.instances[k]? = some i) :
    ∃ b placed, n.boundOf i.id = .ok b ∧ t.resultOf data i.id = some placed ∧
      b.readValues n.store i.output = .ok placed.2 := by
  obtain ⟨m, hm, hs⟩ := h.bound.node k i hi
  have hlt := (List.getElem?_eq_some_iff.1 hm).1
  obtain ⟨b, -, hb, -⟩ := exists_bound hc h hi hm fun d hd => hall d (Nat.lt_trans hd hlt)
  obtain ⟨placed, hr, hp⟩ := hall k hlt i m hi hm
  obtain ⟨values, hv, rfl⟩ := Option.map_eq_some_iff.1 hp
  refine ⟨b, _, ?_, hs.id ▸ hr, BoundNode.readValues_eq_ok_iff.2 hv⟩
  rw [boundOf, h.program, hs.id, hc.nodeIndex_of_node hm, Outcome.ofExcept, ok_bind, hb]

theorem Sound.exists_instance_of_output (hc : p.Compiled t) (h : n.Sound p data)
    (ho : n.outputsOf events = .ok outputs) (hm : output ∈ outputs) :
    ∃ (k : Nat) (i : Instance), n.instances[k]? = some i ∧ output.id = i.id ∧
      output.memory = i.output := by
  rw [outputsOf_eq_mapM (h.program ▸ hc.nodup_outputs)] at ho
  obtain ⟨index, -, ho⟩ := exists_source_of_mapM ho hm
  obtain ⟨i, event, hi, -, rfl⟩ := outputAt_eq_ok_iff.1 ho
  exact ⟨index, i, hi, rfl, rfl⟩

end Network

namespace HostNetwork

variable {values : List (PrimitiveId × List Float32)}

/-- The outputs in the order of the program, with the results of their primitives. -/
structure Gives (t : Topology ε) (p : Program ε) (data : InputData)
    (values : List (PrimitiveId × List Float32)) : Prop where
  outputIds : p.outputIds = .ok (values.map Prod.fst)
  resultOf : ∀ value ∈ values, ∃ layout, t.resultOf data value.1 = some (layout, value.2)

theorem ids_of_readOutputs {n : Network ε} {outputs : List (NetworkOutput HostEvent)}
    (h : readOutputs n outputs = .ok values) :
    values.map Prod.fst = outputs.map NetworkOutput.id := by
  have hids : outputs.mapM (fun output => (pure output.id : Outcome PrimitiveId)) =
      .ok (values.map Prod.fst) := by
    refine mapM_ok_map (fun output value hv => ?_) h
    obtain ⟨b, -, hv⟩ := bind_eq_ok_iff.1 hv
    obtain ⟨read, -, hv⟩ := bind_eq_ok_iff.1 hv
    obtain rfl := Except.ok.inj hv
    rfl
  rw [List.mapM_pure] at hids
  exact (Except.ok.inj hids).symm

variable {n : Network ε} {outputs : List (NetworkOutput HostEvent)}

theorem gives_of_readOutputs (hc : p.Compiled t) (h : n.Sound p data)
    (hf : n.Finished t p data outputs) (hr : readOutputs n outputs = .ok values) :
    Gives t p data values := by
  obtain ⟨events, ho⟩ := hf.outputsOf
  refine ⟨ids_of_readOutputs hr ▸ h.mirrored.outputIds hc.toReady ho, fun value hv => ?_⟩
  obtain ⟨output, hm, hv⟩ := exists_source_of_mapM hr hv
  obtain ⟨k, i, hi, hid, hmem⟩ := h.exists_instance_of_output hc ho hm
  obtain ⟨b, placed, hb, hres, hread⟩ := h.exists_read hc hf.holds hi
  rw [hid, hmem, hb, ok_bind, hread, ok_bind] at hv
  obtain rfl := Except.ok.inj hv
  exact ⟨placed.1, hres⟩

theorem exists_readOutputs (hc : p.Compiled t) (h : n.Sound p data)
    (hf : n.Finished t p data outputs) : ∃ values, readOutputs n outputs = .ok values := by
  obtain ⟨events, ho⟩ := hf.outputsOf
  refine mapM_ok_of_forall fun output hm => ?_
  obtain ⟨k, i, hi, hid, hmem⟩ := h.exists_instance_of_output hc ho hm
  obtain ⟨b, placed, hb, -, hread⟩ := h.exists_read hc hf.holds hi
  exact ⟨(i.id, placed.2), by rw [hid, hmem, hb, ok_bind, hread]; rfl⟩

variable [DecidableEq ε] {x : HostNetwork ε}

theorem sound_of_run (hc : p.Compiled t) (h : x.network.Sound p data)
    (hk : Kernel.Partial x.dispatcher.kernels) : x.run.2.network.Sound p data :=
  (h.run hc hk x.dispatcher.started).1

theorem gives_of_run (hc : p.Compiled t) (h : x.network.Sound p data)
    (hk : Kernel.Partial x.dispatcher.kernels) (hr : x.run.1 = .ok values) :
    Gives t p data values := by
  obtain ⟨hs, hf⟩ := h.run hc hk x.dispatcher.started
  obtain ⟨outputs, ho, hr⟩ := bind_eq_ok_iff.1 hr
  exact gives_of_readOutputs hc hs (hf outputs ho) hr

theorem exists_run (hc : p.Compiled t) (h : x.network.Sound p data)
    (hk : x.dispatcher.kernels = Kernel.builtins)
    (hall : ∀ m ∈ p.nodes, ∃ placed, t.resultOf data m.id = some placed) :
    ∃ values, x.run.1 = .ok values := by
  obtain ⟨outputs, ho⟩ := h.exists_run hc hall x.dispatcher.started
  obtain ⟨hs, hf⟩ := h.run hc Kernel.partial_builtins x.dispatcher.started
  obtain ⟨values, hv⟩ := exists_readOutputs hc hs (hf outputs ho)
  rw [← hk] at ho hv
  exact ⟨values, bind_eq_ok_iff.2 ⟨outputs, ho, hv⟩⟩

theorem exists_run_iff (hc : p.Compiled t) (h : x.network.Sound p data)
    (hk : x.dispatcher.kernels = Kernel.builtins) : (∃ values, x.run.1 = .ok values) ↔
      ∀ id ∈ p.ids, ∃ placed, t.resultOf data id = some placed := by
  refine ⟨fun ⟨values, hr⟩ id hid => ?_, fun hall => exists_run hc h hk fun m hm =>
    hall m.id (List.mem_map_of_mem hm)⟩
  obtain ⟨outputs, ho, -⟩ := bind_eq_ok_iff.1 hr
  obtain ⟨hs, hf⟩ := h.run hc (hk ▸ Kernel.partial_builtins) x.dispatcher.started
  obtain ⟨k, m, hm, rfl⟩ := Program.exists_node hid
  have hlt := (List.getElem?_eq_some_iff.1 hm).1
  obtain ⟨i, hi⟩ := hs.exists_instance hlt
  obtain ⟨placed, hp, -⟩ := (hf outputs ho).holds k hlt i m hi hm
  exact ⟨placed, hp⟩

end HostNetwork

end InferenceGraph
