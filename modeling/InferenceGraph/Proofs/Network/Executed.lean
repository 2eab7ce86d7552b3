import InferenceGraph.Proofs.Network.Calls
import InferenceGraph.Proofs.Program.Retention

/-!
# What a network says it executed

A network reports the primitives of the last run that succeeded, which are all of them. A run that
fails leaves the report as it was, although it may have completed some calls of its own, but never
all. So after a run the report is that of this run if it succeeds, or if no run ever succeeded and
this one completed nothing; otherwise it is out of date.
-/

set_option autoImplicit false

namespace InferenceGraph.Network

variable {ε σ τ : Type} [Extension ε] {t : Topology ε} {p : Program ε} {fed : List PrimitiveId}
variable {n : Network ε} {d : Dispatcher ε σ τ} {s : σ}

theorem executedIds_eq (n : Network ε) :
    n.executedIds = n.executed.mapM fun index => Outcome.get .outOfRange n.ids[index]? := by
  rw [executedIds]
  congr
  funext index
  rw [ids, List.getElem?_map, instanceAt]
  cases n.instances[index]? <;> rfl

@[simp] theorem ids_run (n : Network ε) (d : Dispatcher ε σ τ) (s : σ) :
    (n.run d s).2.1.ids = n.ids := by
  simp only [ids, instances_run]

theorem executed_run (n : Network ε) (d : Dispatcher ε σ τ) (s : σ) :
    (n.run d s).2.1.executed =
      match (n.run d s).1 with
      | .ok _ => n.instances.map Instance.index
      | .error _ => n.executed := by
  unfold run
  split
  · rfl
  · rcases n.runInstances d [] n.instances (s, n.store) with ⟨_ | events, s, store⟩
    · rfl
    · cases ho : n.outputsOf events <;> simp only [ho]

theorem executedIds_run_of_error {e : Failure} (he : (n.run d s).1 = .error e) :
    (n.run d s).2.1.executedIds = n.executedIds := by
  rw [executedIds_eq, executedIds_eq, executed_run, he, ids_run]

theorem Mirrored.map_index (h : n.Mirrored p) :
    n.instances.map Instance.index = List.range p.size := by
  refine List.ext_getElem (by simp [h.length]) fun k hk _ => ?_
  rw [List.length_map] at hk
  obtain ⟨m, -, hs⟩ := h.mirrors k _ (List.getElem?_eq_getElem hk)
  rw [List.getElem_map, List.getElem_range, hs.index]

theorem Mirrored.executedIds_run (h : n.Mirrored p) {outputs : List (NetworkOutput τ)}
    (ho : (n.run d s).1 = .ok outputs) : (n.run d s).2.1.executedIds = .ok p.ids := by
  rw [executedIds_eq, executed_run, ho, ids_run, h.ids_eq, h.map_index]
  exact (mapM_eq_ok_iff_of_option fun _ _ => Outcome.get_eq_ok_iff).2 p.map_range_ids

variable {first last : σ × Store} {calls : List (DispatcherCall ε σ τ)}

def completedOf (calls : List (DispatcherCall ε σ τ)) : List PrimitiveId :=
  calls.filterMap fun call => call.event?.map fun _ => call.node.id

/-- The primitives whose calls succeed during a run. -/
def completedIds (n : Network ε) (d : Dispatcher ε σ τ) (s : σ) : List PrimitiveId :=
  completedOf (n.calls d s)

theorem completedOf_of_succeeded (h : ∀ call ∈ calls, ∃ event, call.result = .ok event) :
    completedOf calls = calls.map fun call => call.node.id := by
  rw [completedOf, ← List.filterMap_eq_map]
  refine List.filterMap_congr fun call hc => ?_
  obtain ⟨event, he⟩ := h call hc
  rw [DispatcherCall.event?_eq_some_iff.2 he]
  rfl

theorem completedOf_concat {call : DispatcherCall ε σ τ} {e : Failure}
    (he : call.result = .error e) : completedOf (calls ++ [call]) = completedOf calls := by
  have hnone : call.event? = none := by rw [DispatcherCall.event?, he]; rfl
  simp [completedOf, hnone]

theorem Mirrored.id_of_bound (h : n.Mirrored p) {k : Nat} {b : BoundNode ε}
    (hb : n.bound k = .ok b) : p.ids[k]? = some b.id := by
  obtain ⟨i, -, hb⟩ := bind_eq_ok_iff.1 hb
  obtain ⟨node, hnode, hb⟩ := bind_eq_ok_iff.1 hb
  obtain ⟨inputs, -, hb⟩ := bind_eq_ok_iff.1 hb
  cases hb
  rw [h.program, Program.node, Outcome.get_eq_ok_iff] at hnode
  exact Program.getElem?_ids_eq_some_iff.2 ⟨node, hnode, rfl⟩

theorem Trace.prefix_ids (ht : n.Trace d first calls last) (h : n.Mirrored p) :
    (calls.map fun call => call.node.id) <+: p.ids := by
  rw [List.prefix_iff_getElem?]
  intro k hk
  rw [List.length_map] at hk
  rw [List.getElem_map]
  exact h.id_of_bound (ht.node k _ (List.getElem?_eq_getElem hk))

/-- The report after a run, beside what the run completed. -/
structure Reports (p : Program ε) (n : Network ε) (d : Dispatcher ε σ τ) (s : σ) : Prop where
  success : ∀ outputs, (n.run d s).1 = .ok outputs →
    (n.run d s).2.1.executedIds = .ok (n.completedIds d s) ∧ n.completedIds d s = p.ids
  failure : ∀ e, (n.run d s).1 = .error e →
    (n.run d s).2.1.executedIds = n.executedIds ∧
      n.completedIds d s <+: p.ids ∧ n.completedIds d s ≠ p.ids

theorem Intact.completed_of_error (hr : p.Ready t) (h : n.Intact p fed) {e : Failure}
    (he : (n.run d s).1 = .error e) :
    n.completedIds d s <+: p.ids ∧ n.completedIds d s ≠ p.ids := by
  have hd := h.dispatches hr d s
  cases hf : n.instances.find? fun i => !i.hasData with
  | some i =>
    have hi : i.id ∈ p.ids :=
      h.mirrored.ids_eq ▸ List.mem_map_of_mem (List.mem_of_find?_eq_some hf)
    rw [completedIds, (hd.unset i hf).2]
    exact ⟨List.nil_prefix, (List.ne_nil_of_mem hi).symm⟩
  | none =>
    have hset : ∀ i ∈ n.instances, i.hasData = true := by simpa using hf
    have ht := hd.trace hset
    obtain ⟨call, hlast, hcall⟩ := hd.failure hset e he
    obtain ⟨done, hcalls⟩ := List.getLast?_eq_some_iff.1 hlast
    have hids := ht.prefix_ids h.mirrored
    have hdone : ∀ c ∈ done, ∃ event, c.result = .ok event := by
      intro c hc
      obtain ⟨k, hk⟩ := List.mem_iff_getElem?.1 hc
      have hlt := (List.getElem?_eq_some_iff.1 hk).1
      refine ht.succeeded k c ?_ (by rw [hcalls, List.length_append]; simpa using hlt)
      rw [hcalls, List.getElem?_append_left hlt, hk]
    rw [completedIds, hcalls, completedOf_concat hcall, completedOf_of_succeeded hdone]
    rw [hcalls, List.map_append] at hids
    refine ⟨(List.prefix_append _ _).trans hids, fun hall => ?_⟩
    have hlen := hids.length_le
    simp only [← hall, List.length_append, List.length_map, List.length_singleton] at hlen
    omega

theorem Intact.reports (hr : p.Ready t) (h : n.Intact p fed) (d : Dispatcher ε σ τ) (s : σ) :
    n.Reports p d s := by
  constructor
  case failure =>
    intro e he
    exact ⟨executedIds_run_of_error he, h.completed_of_error hr he⟩
  case success =>
    intro outputs ho
    have hd := h.dispatches hr d s
    obtain ⟨hlen, hok, -⟩ := hd.success outputs ho
    have hset : ∀ i ∈ n.instances, i.hasData = true := by
      cases hf : n.instances.find? fun i => !i.hasData with
      | none => simpa using hf
      | some i => cases ho.symm.trans (congrArg Prod.fst (hd.unset i hf).1)
    have hall : n.completedIds d s = p.ids := by
      rw [completedIds, completedOf_of_succeeded hok]
      refine ((hd.trace hset).prefix_ids h.mirrored).eq_of_length ?_
      rw [List.length_map, hlen, h.length, p.length_ids]
    exact ⟨hall ▸ h.mirrored.executedIds_run ho, hall⟩

variable [DecidableEq ε] {r : Registry ε} {o : CompileOptions} {allocator : Allocator}

def Operation.completed? (n : Network ε) : Operation ε → Option (List PrimitiveId)
  | .setInput _ _ => none
  | .run d s => (n.run d s).1.toOption.map fun _ => n.completedIds d s

/-- What the runs that succeed complete, one after the other. -/
def completionsFrom : Network ε × List PrimitiveId → List (Operation ε) → List (List PrimitiveId)
  | _, [] => []
  | state, operation :: rest =>
    (operation.completed? state.1).toList ++ completionsFrom (operation.apply state) rest

def completions (n : Network ε) (operations : List (Operation ε)) : List (List PrimitiveId) :=
  completionsFrom (n, []) operations

theorem Intact.executedIds_bindInput (hr : p.Ready t) (h : n.Intact p fed) {id : PrimitiveId}
    {source : Source} {n' : Network ε} (hb : n.bindInput id source = .ok n') :
    n'.executedIds = n.executedIds := by
  have hids := (h.bindInput hr hb).mirrored.ids_eq
  obtain ⟨k, m, layout, hm, rfl, hk, hl, hs⟩ := h.exists_node_of_bindInput hr hb
  obtain ⟨i, hi, -⟩ := h.exists_instance hm
  rw [h.bindInput_eq hr hm hl hi, if_pos hk, if_pos hs] at hb
  rw [executedIds_eq, executedIds_eq, hids, h.mirrored.ids_eq]
  cases hb
  rfl

theorem Intact.executedIds_apply (hr : p.Ready t) {state : Network ε × List PrimitiveId}
    (h : state.1.Intact p state.2) {last : List PrimitiveId}
    (hl : state.1.executedIds = .ok last) (operation : Operation ε) :
    (operation.apply state).1.executedIds =
      .ok ((operation.completed? state.1).getD last) := by
  obtain ⟨n, fed⟩ := state
  cases operation with
  | setInput id source =>
    rw [Operation.apply]
    split
    · next hb => exact (h.executedIds_bindInput hr hb).trans hl
    · exact hl
  | run d s =>
    have hreports := h.reports hr d s
    cases hrun : (n.run d s).1 with
    | error e =>
      simp only [Operation.apply, Operation.completed?, hrun]
      exact (hreports.failure e hrun).1.trans hl
    | ok outputs =>
      simp only [Operation.apply, Operation.completed?, hrun]
      exact (hreports.success outputs hrun).1

theorem Intact.executedIds_foldl (hr : p.Ready t) {state : Network ε × List PrimitiveId}
    (h : state.1.Intact p state.2) {last : List PrimitiveId}
    (hl : state.1.executedIds = .ok last) (operations : List (Operation ε)) :
    (operations.foldl Operation.apply state).1.executedIds =
      .ok ((completionsFrom state operations).getLast?.getD last) := by
  induction operations generalizing state last with
  | nil => exact hl
  | cons operation rest ih =>
    have hnext := h.executedIds_apply hr hl operation
    rw [List.foldl_cons, ih (h.apply hr operation) hnext, completionsFrom, List.getLast?_append]
    cases operation.completed? state.1 <;>
      cases (completionsFrom (operation.apply state) rest).getLast? <;> rfl

theorem Intact.eq_ids_of_completions (hr : p.Ready t) {state : Network ε × List PrimitiveId}
    (h : state.1.Intact p state.2) (operations : List (Operation ε)) :
    ∀ ids ∈ completionsFrom state operations, ids = p.ids := by
  induction operations generalizing state with
  | nil => exact fun _ hm => nomatch hm
  | cons operation rest ih =>
    intro ids hm
    rw [completionsFrom, List.mem_append] at hm
    rcases hm with hm | hm
    · cases operation with
      | setInput id source => cases hm
      | run d s =>
        cases hrun : (state.1.run d s).1 with
        | error e => simp [Operation.completed?, hrun, Except.toOption] at hm
        | ok outputs =>
          simp only [Operation.completed?, hrun, Except.toOption, Option.map_some,
            Option.toList_some, List.mem_singleton] at hm
          exact hm.trans ((h.reports hr d s).success outputs hrun).2
    · exact ih (h.apply hr operation) ids hm

def grants : Dispatcher Empty Unit Unit := fun _ _ s => (.ok (), s)

def refuses : Dispatcher Empty Unit Unit := fun _ _ s => (.fail (.missingKernel "reorder"), s)

def inputBuffer : Source := .fresh (.elsewhere (.unpadded .float32 .bfyx ⟨1, 1, 1, 2⟩))

def granted : List (Operation Empty) := [.setInput Topology.source inputBuffer, .run grants ()]

section Copies

variable {p : Program Empty} {n : Network Empty}
variable (hp : Program.ofTopology .standard Topology.copies .standard = .ok p)
variable (hn : ofProgram p .host = .ok n)
include hp hn

theorem exists_bindInput_copies :
    ∃ n', n.after (granted.take 1) = (n', [Topology.source]) := by
  have hc := Program.compiled_of_ofTopology (by decide) hp
  have hsource : Topology.source ∈ p.ids := (Program.ids_iff_of_ofTopology hp).2
    (show Topology.source ∈ Topology.copies.ids by decide)
  obtain ⟨m, hm, hid⟩ := List.mem_map.1 hsource
  have hkind : ∀ q ∈ Topology.copies.primitives, q.id = Topology.source → q.kind = .inputLayout := by
    decide
  obtain ⟨layout, hl, hlayout⟩ := hc.layout m hm
  have hsame : Topology.copies.layoutOf Topology.source = some inputBuffer.layout := by cbv
  rw [hid, hsame, Option.some.injEq] at hlayout
  obtain ⟨n', hb⟩ := ((intact_of_ofProgram hc.toReady hn).setsInput hc.toReady Topology.source
    inputBuffer).success_iff.2
      ⟨m, hm, hid, hkind _ (hc.linked.primitive m hm) hid, layout, hl,
        hlayout ▸ Layout.same_refl inputBuffer.layout⟩
  refine ⟨n', ?_⟩
  change Operation.apply (n, []) (.setInput Topology.source inputBuffer) = _
  rw [Operation.apply, hb]

theorem exists_granted :
    ∃ outputs, ((n.after (granted.take 1)).1.run grants ()).1 = .ok outputs := by
  have hr := Program.ready_of_ofTopology hp
  have h := intact_after hr hn (granted.take 1)
  have hinput : ∀ q ∈ Topology.copies.primitives, q.kind = .inputLayout → q.id = Topology.source := by
    decide
  obtain ⟨n', hafter⟩ := exists_bindInput_copies hp hn
  have hset : ∀ i ∈ (n.after (granted.take 1)).1.instances, i.hasData = true := by
    intro i hi
    obtain ⟨k, hk⟩ := List.mem_iff_getElem?.1 hi
    obtain ⟨m, hm, hs⟩ := h.serving k i hk
    rw [hs.hasData_iff, hafter, List.mem_singleton, Classical.or_iff_not_imp_left, not_not]
    exact hinput _ (hr.linked.primitive m (List.mem_of_getElem? hm))
  cases hrun : ((n.after (granted.take 1)).1.run grants ()).1 with
  | ok outputs => exact ⟨outputs, rfl⟩
  | error e =>
    have hd := h.dispatches hr grants ()
    obtain ⟨call, hlast, hcall⟩ := hd.failure hset e hrun
    have hanswer := (hd.trace hset).answer call (List.mem_of_getLast? hlast)
    rw [hcall] at hanswer
    cases hanswer

end Copies

theorem Intact.completedIds_refuses {t : Topology Empty} {p : Program Empty} {n : Network Empty}
    (hr : p.Ready t) (h : n.Intact p fed) : n.completedIds refuses () = [] := by
  have hd := h.dispatches hr refuses ()
  cases hf : n.instances.find? fun i => !i.hasData with
  | some i =>
    rw [completedIds, (hd.unset i hf).2]
    rfl
  | none =>
    refine List.filterMap_eq_nil_iff.2 fun call hc => ?_
    have hanswer := (hd.trace (by simpa using hf)).answer call hc
    cases hresult : call.result with
    | error e => rw [DispatcherCall.event?, hresult]; rfl
    | ok event =>
      rw [hresult] at hanswer
      cases hanswer

/-- A network reports what the last run that succeeded completed, and nothing before there was one.
The next run is reported exactly if it succeeds, or if it completes nothing and is not preceded by
one that succeeded. -/
theorem executedIds_after (hp : Program.ofTopology r t o = .ok p)
    (hn : ofProgram p allocator = .ok n) (operations : List (Operation ε)) :
    (n.after operations).1.executedIds = .ok ((n.completions operations).getLast?.getD []) ∧
      (∀ ids ∈ n.completions operations, ids = p.ids) ∧
      ∀ {σ τ : Type} (d : Dispatcher ε σ τ) (s : σ), (n.after operations).1.Reports p d s ∧
        (((n.after operations).1.run d s).2.1.executedIds =
            .ok ((n.after operations).1.completedIds d s) ↔
          (∃ outputs, ((n.after operations).1.run d s).1 = .ok outputs) ∨
            n.completions operations = [] ∧ (n.after operations).1.completedIds d s = []) := by
  have hr := Program.ready_of_ofTopology hp
  have hstart := intact_of_ofProgram hr hn
  have hnone : n.executedIds = .ok [] := by
    obtain ⟨⟨instances, store⟩, -, hn⟩ := bind_eq_ok_iff.1 hn
    cases hn
    rfl
  have hreport : (n.after operations).1.executedIds =
      .ok ((n.completions operations).getLast?.getD []) :=
    hstart.executedIds_foldl hr hnone operations
  have hall : ∀ ids ∈ n.completions operations, ids = p.ids :=
    hstart.eq_ids_of_completions hr operations
  refine ⟨hreport, hall, fun d s => ?_⟩
  have hreports := (intact_after hr hn operations).reports hr d s
  refine ⟨hreports, ?_⟩
  cases hrun : ((n.after operations).1.run d s).1 with
  | ok outputs => simp [(hreports.success outputs hrun).1]
  | error e =>
    obtain ⟨hkept, -, hpartial⟩ := hreports.failure e hrun
    rw [hkept, hreport, Except.ok.injEq]
    cases hl : (n.completions operations).getLast? with
    | none => simp [List.getLast?_eq_none_iff.1 hl]
    | some ids =>
      -- The report is still that of all primitives, and a run that fails never completes them all.
      rw [Option.getD_some, hall ids (List.mem_of_getLast? hl)]
      refine iff_of_false hpartial.symm ?_
      rintro (⟨outputs, ho⟩ | ⟨hempty, -⟩)
      · cases ho
      · rw [hempty] at hl
        cases hl

theorem executedIds_after_granted : ∃ (p : Program Empty) (n : Network Empty),
    Program.ofTopology .standard Topology.copies .standard = .ok p ∧ ofProgram p .host = .ok n ∧
      (n.after granted).1.executedIds = .ok ((n.completions granted).getLast?.getD []) ∧
      (n.after granted).1.Reports p refuses () := by
  obtain ⟨p, hp⟩ := Topology.exists_program_copies (o := .standard) fun _ h => by cases h
  obtain ⟨n, hn, -⟩ := sound_of_ofProgram (Program.compiled_of_ofTopology (by decide) hp)
  obtain ⟨hreport, -, hnext⟩ := executedIds_after hp hn granted
  exact ⟨p, n, hp, hn, hreport, (hnext refuses ()).1⟩

/-- After a run that succeeded, one whose calls are all refused completes nothing, and all
primitives are still reported. -/
theorem executedIds_refused : ∃ (p : Program Empty) (n : Network Empty),
    Program.ofTopology .standard Topology.copies .standard = .ok p ∧ ofProgram p .host = .ok n ∧
      ((n.after granted).1.run refuses ()).2.1.executedIds = .ok p.ids ∧ p.ids ≠ [] ∧
      (n.after granted).1.completedIds refuses () = [] := by
  obtain ⟨p, hp⟩ := Topology.exists_program_copies (o := .standard) fun _ h => by cases h
  obtain ⟨n, hn, -⟩ := sound_of_ofProgram (Program.compiled_of_ofTopology (by decide) hp)
  have hr := Program.ready_of_ofTopology hp
  have h := intact_after hr hn granted
  have hnone := h.completedIds_refuses hr
  have hids : p.ids ≠ [] := List.ne_nil_of_mem ((Program.ids_iff_of_ofTopology hp).2
    (show Topology.source ∈ Topology.copies.ids by decide))
  obtain ⟨outputs, ho⟩ := exists_granted hp hn
  have hall : (n.after granted).1.executedIds = .ok p.ids :=
    (intact_after hr hn (granted.take 1)).mirrored.executedIds_run ho
  refine ⟨p, n, hp, hn, ?_, hids, hnone⟩
  have hreports := h.reports hr refuses ()
  cases hrun : ((n.after granted).1.run refuses ()).1 with
  | error e => exact (hreports.failure e hrun).1.trans hall
  | ok outputs =>
    have hcompleted := (hreports.success outputs hrun).2
    exact absurd (hcompleted.symm.trans hnone) hids

end InferenceGraph.Network
