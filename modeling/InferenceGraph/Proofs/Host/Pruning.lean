import InferenceGraph.Proofs.Host.History
import InferenceGraph.Proofs.Program.Pruning

set_option autoImplicit false

namespace InferenceGraph

variable {ε : Type} [Extension ε] {r : Registry ε} {t : Topology ε}
variable {full : Program ε} {targets : List PrimitiveId} {data other : InputData}

/-- The same data for every input that is kept. -/
def Topology.SameInputs (t : Topology ε) (o : CompileOptions) (data other : InputData) : Prop :=
  ∀ p ∈ t.primitives, p.kind = .inputLayout → t.Kept o p.id → data p.id = other p.id

theorem Topology.SameInputs.resultOf_eq {o : CompileOptions} (h : t.SameInputs o data other)
    (hc : t.Closed) {id : PrimitiveId} (hk : t.Kept o id) :
    t.resultOf data id = t.resultOf other id :=
  resultOf_congr (fun _ _ hk hd => hk.dependency hc hd) h hk

namespace HostNetwork

theorem Gives.exists_lookup {p : Program ε} {values : List (PrimitiveId × List Float32)}
    {ids : List PrimitiveId} (h : Gives t p data values) (ho : p.outputIds = .ok ids)
    {id : PrimitiveId} (hid : id ∈ ids) :
    ∃ v layout, values.lookup id = some v ∧ t.resultOf data id = some (layout, v) := by
  obtain rfl := Except.ok.inj (ho.symm.trans h.outputIds)
  obtain ⟨v, hl, hm⟩ := InferenceGraph.exists_lookup hid
  obtain ⟨layout, hr⟩ := h.resultOf _ hm
  exact ⟨v, layout, hl, hr⟩

variable [DecidableEq ε] {x y : HostNetwork ε} {before before' : List (Call ε)}
variable {values : List (PrimitiveId × List Float32)}

theorem exists_result_of_run (hb : t.Builtin) (hx : ofTopology r t ⟨none, true⟩ = .ok x)
    (hu : ∀ c ∈ before, c.Usual) (hr : (x.after before).1.run.1 = .ok values)
    {id : PrimitiveId} (hid : id ∈ t.ids) :
    ∃ v layout, values.lookup id = some v ∧
      t.resultOf (x.after before).2 id = some (layout, v) := by
  obtain ⟨p, hp, hc, hl⟩ := exists_live hb hx hu
  have hg := gives_of_run hc hl.sound hl.kernels hr
  exact hg.exists_lookup hg.outputIds
    ((Program.outputIds_iff_of_ofTopology hp hg.outputIds).2 hid)

theorem exists_pruned_run (hb : t.Builtin) (hx : ofTopology r t ⟨none, true⟩ = .ok x)
    (hy : ofTopology r t ⟨some targets, false⟩ = .ok y) (hu : ∀ c ∈ before, c.Usual)
    (hu' : ∀ c ∈ before', c.Usual)
    (hs : t.SameInputs ⟨some targets, false⟩ (x.after before).2 (y.after before').2)
    (hk : (y.after before').1.dispatcher.kernels = Kernel.builtins)
    (hr : (x.after before).1.run.1 = .ok values) :
    ∃ values', (y.after before').1.run.1 = .ok values' ∧
      ∀ id ∈ targets, ∃ v, values.lookup id = some v ∧ values'.lookup id = some v := by
  obtain ⟨p, hp, hc, hl⟩ := exists_live hb hy hu'
  have ha := Program.acceptable_of_ofTopology hb hp
  -- The full run shows that everything has a result; on the kept part it is that of both.
  have hres : ∀ id ∈ t.ids, ∃ v layout, values.lookup id = some v ∧
      t.resultOf (x.after before).2 id = some (layout, v) :=
    fun id hid => exists_result_of_run hb hx hu hr hid
  have hsame : ∀ id, t.Kept ⟨some targets, false⟩ id →
      t.resultOf (x.after before).2 id = t.resultOf (y.after before').2 id :=
    fun id hk => hs.resultOf_eq ha.closed hk
  obtain ⟨values', hr'⟩ := exists_run hc hl.sound hk fun m hm => by
    have hkept := (Program.ids_iff_of_ofTopology hp).1 (List.mem_map_of_mem hm)
    obtain ⟨v, layout, -, hv⟩ := hres m.id (hkept.mem_ids ha.closed ha.requestable)
    exact ⟨_, hsame m.id hkept ▸ hv⟩
  have hg := gives_of_run hc hl.sound hl.kernels hr'
  refine ⟨values', hr', fun id hid => ?_⟩
  obtain ⟨v, layout, hv, hvr⟩ := hres id (ha.requestable targets rfl id hid)
  obtain ⟨v', layout', hv', hvr'⟩ := hg.exists_lookup hg.outputIds
    ((Program.outputIds_iff_of_ofTopology hp hg.outputIds).2 hid)
  rw [hsame id ⟨id, hid, .refl⟩, hvr', Option.some.injEq, Prod.mk.injEq] at hvr
  exact ⟨v, hv, hvr.2 ▸ hv'⟩

theorem pruning_preserves {exposeAll : Bool} (hb : t.Builtin)
    (hf : Program.ofTopology r t ⟨none, exposeAll⟩ = .ok full)
    (ht : ∀ id ∈ targets, id ∈ t.ids) :
    ∃ pruned, Program.ofTopology r t ⟨some targets, false⟩ = .ok pruned ∧
      (∀ id, t.Kept ⟨some targets, false⟩ id → ∃ i j n m, full.nodeOf id = .ok (i, n) ∧
        pruned.nodeOf id = .ok (j, m) ∧
          Program.KeptAs (t.Kept ⟨some targets, false⟩) full pruned n m) ∧
      ∀ (x y : HostNetwork ε) (before before' : List (Call ε))
        (values : List (PrimitiveId × List Float32)),
        ofTopology r t ⟨none, true⟩ = .ok x →
        ofTopology r t ⟨some targets, false⟩ = .ok y →
        (∀ c ∈ before, c.Usual) → (∀ c ∈ before', c.Usual) →
        t.SameInputs ⟨some targets, false⟩ (x.after before).2 (y.after before').2 →
        (y.after before').1.dispatcher.kernels = Kernel.builtins →
        (x.after before).1.run.1 = .ok values →
        ∃ values', (y.after before').1.run.1 = .ok values' ∧
          ∀ id ∈ targets, ∃ v, values.lookup id = some v ∧ values'.lookup id = some v := by
  obtain ⟨pruned, hp⟩ := Program.exists_pruned hb hf ht
  refine ⟨pruned, hp, fun id hk => Program.exists_keptAs hb hf hp hk, ?_⟩
  intro x y before before' values hx hy hu hu' hs hk hr
  exact exists_pruned_run hb hx hy hu hu' hs hk hr

theorem pruning_preserves_copies : ∃ (full pruned : Program Empty) (x y : HostNetwork Empty)
    (values values' : List (PrimitiveId × List Float32)),
    Program.ofTopology .standard Topology.copies ⟨none, true⟩ = .ok full ∧
      Program.ofTopology .standard Topology.copies ⟨some [Topology.copy], false⟩ = .ok pruned ∧
      (∀ id, Topology.copies.Kept ⟨some [Topology.copy], false⟩ id → ∃ i j n m,
        full.nodeOf id = .ok (i, n) ∧ pruned.nodeOf id = .ok (j, m) ∧
          Program.KeptAs (Topology.copies.Kept ⟨some [Topology.copy], false⟩) full pruned n m) ∧
      (x.after Topology.interrupted).1.run.1 = .ok values ∧
      (y.after Topology.interrupted).1.run.1 = .ok values' ∧
      ∀ id ∈ [Topology.copy], ∃ v, values.lookup id = some v ∧ values'.lookup id = some v := by
  have hr : Topology.copies.Requestable ⟨none, true⟩ := fun _ h => by cases h
  have ht : ∀ id ∈ [Topology.copy], id ∈ Topology.copies.ids := by decide
  have hr' : Topology.copies.Requestable ⟨some [Topology.copy], false⟩ := by
    rintro _ ⟨⟩
    exact ht
  have hs : Topology.copies.Kept ⟨none, true⟩ Topology.source :=
    show Topology.source ∈ Topology.copies.ids by decide
  have hs' : Topology.copies.Kept ⟨some [Topology.copy], false⟩ Topology.source :=
    ⟨Topology.copy, by simp, .single ⟨_, List.mem_cons_self, rfl, by decide⟩⟩
  obtain ⟨full, hf⟩ := Topology.exists_program_copies hr
  obtain ⟨x, hx⟩ := Topology.exists_host_copies hr
  obtain ⟨y, hy⟩ := Topology.exists_host_copies hr'
  obtain ⟨values, hrun⟩ := Topology.exists_run_interrupted hx hs
  obtain ⟨hd, -⟩ := Topology.after_interrupted hx hs
  obtain ⟨hd', hk⟩ := Topology.after_interrupted hy hs'
  obtain ⟨pruned, hp, hkept, hruns⟩ := pruning_preserves (by decide) hf ht
  obtain ⟨values', hrun', hv⟩ := hruns x y _ _ values hx hy Topology.usual_interrupted
    Topology.usual_interrupted (by rw [hd, hd']; exact fun _ _ _ _ => rfl) (by rw [hk]; rfl) hrun
  exact ⟨full, pruned, x, y, values, values', hf, hp, hkept, hrun, hrun', hv⟩

end HostNetwork

end InferenceGraph
