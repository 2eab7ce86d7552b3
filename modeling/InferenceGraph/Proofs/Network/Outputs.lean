import InferenceGraph.Proofs.Network.State

set_option autoImplicit false

namespace InferenceGraph.Network

variable {ε τ : Type} [Extension ε] {n : Network ε}

theorem eventsOf_eq_ok_iff {events es : List τ} {id : PrimitiveId} {dependencies : List Nat} :
    eventsOf events id dependencies = .ok es ↔
      dependencies.map (events[·]?) = es.map some :=
  mapM_eq_ok_iff_of_option fun _ _ => Outcome.get_eq_ok_iff

theorem mem_of_eventsOf {events es : List τ} {id : PrimitiveId} {dependencies : List Nat}
    (h : eventsOf events id dependencies = .ok es) : ∀ event ∈ es, event ∈ events := by
  intro event he
  obtain ⟨dep, -, hd⟩ := exists_source_of_mapM h he
  exact List.mem_of_getElem? (Outcome.get_eq_ok_iff.1 hd)

section Outputs

variable {events : List (Option τ)}

theorem outputAt_set {index other : Nat} (h : index ≠ other) :
    n.outputAt (events.set index none) other = n.outputAt events other := by
  simp only [outputAt, List.getElem?_set_ne h]

theorem takeOutputs_eq_mapM {outputs : List Nat} (h : outputs.Nodup) :
    n.takeOutputs events outputs = outputs.mapM (n.outputAt events) := by
  induction outputs generalizing events with
  | nil => rfl
  | cons index rest ih =>
    obtain ⟨hi, hr⟩ := List.nodup_cons.1 h
    have hrest : rest.mapM (n.outputAt (events.set index none)) = rest.mapM (n.outputAt events) :=
      mapM_congr_of_mem fun other ho => outputAt_set fun he => hi (he ▸ ho)
    rw [takeOutputs, List.mapM_cons, ih hr, hrest]

theorem outputsOf_eq_mapM (h : n.program.outputs.Nodup) (events : List τ) :
    n.outputsOf events = n.program.outputs.mapM (n.outputAt (events.map some)) :=
  takeOutputs_eq_mapM h

end Outputs

theorem outputsOf_with (h : n.program.outputs.Nodup) (store : Store) (executed : List Nat)
    (events : List τ) :
    ({ n with store := store, executed := executed } : Network ε).outputsOf events =
      n.outputsOf events := by
  rw [outputsOf_eq_mapM h, outputsOf_eq_mapM (by exact h)]
  rfl

theorem outputAt_eq_ok_iff {events : List τ} {index : Nat} {output : NetworkOutput τ} :
    n.outputAt (events.map some) index = .ok output ↔
      ∃ i event, n.instances[index]? = some i ∧ events[index]? = some event ∧
        output = ⟨i.id, i.output, event⟩ := by
  cases hi : n.instances[index]? <;> cases he : events[index]? <;>
    simp [outputAt, instanceAt, hi, he, Outcome.get, Outcome.breach, bind, Except.bind, eq_comm]

namespace Mirrored

variable {t : Topology ε} {p : Program ε} {events : List τ} {outputs : List (NetworkOutput τ)}
variable (h : n.Mirrored p) (hr : p.Ready t)
include h hr

theorem exists_eventsOf {i : Instance} (hi : n.instances[events.length]? = some i) :
    ∃ es, eventsOf events i.id i.dependencies = .ok es :=
  mapM_ok_of_forall fun dep hd =>
    ⟨_, by rw [List.getElem?_eq_getElem (h.dependencies_lt hr hi dep hd), Outcome.get_some]⟩

theorem exists_outputsOf (hl : events.length = n.instances.length) :
    ∃ outputs, n.outputsOf events = .ok outputs := by
  rw [outputsOf_eq_mapM (h.program ▸ hr.nodup_outputs)]
  refine mapM_ok_of_forall fun index hi => ?_
  have hlt := hr.outputs_lt index (h.program ▸ hi)
  rw [← h.length] at hlt
  exact ⟨_, outputAt_eq_ok_iff.2
    ⟨_, _, List.getElem?_eq_getElem hlt, List.getElem?_eq_getElem (hl ▸ hlt), rfl⟩⟩

theorem outputIds (ho : n.outputsOf events = .ok outputs) :
    p.outputIds = .ok (outputs.map NetworkOutput.id) := by
  rw [outputsOf_eq_mapM (h.program ▸ hr.nodup_outputs), h.program] at ho
  refine mapM_ok_map (fun index output ho => ?_) ho
  obtain ⟨i, event, hi, -, rfl⟩ := outputAt_eq_ok_iff.1 ho
  obtain ⟨m, hm, hs⟩ := h.mirrors index i hi
  rw [Program.node, hm, Outcome.get_some, ok_bind, hs.id]
  rfl

end Mirrored

end InferenceGraph.Network
