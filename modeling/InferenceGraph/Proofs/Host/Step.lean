import InferenceGraph.Proofs.Host.Inputs

/-!
# One instance

An instance whose dependencies hold their results either fails and changes nothing, or holds its
own result afterwards. It succeeds exactly if there is a result, so neither what its buffer held
before nor the number of the instance plays a part.
-/

set_option autoImplicit false

namespace InferenceGraph.Network

variable {ε : Type} [Extension ε] {t : Topology ε} {p : Program ε} {data : InputData}
variable {n : Network ε} {s s' : Store} {k : Nat} {i : Instance} {m : Node ε}

/-- The instance of a number holds the result of its primitive. -/
def Holds (t : Topology ε) (p : Program ε) (data : InputData) (instances : List Instance)
    (s : Store) (k : Nat) : Prop :=
  ∀ (i : Instance) (m : Node ε), instances[k]? = some i → p.nodes[k]? = some m →
    ∃ placed, t.resultOf data m.id = some placed ∧ s.placed? i.output = some placed

theorem exists_inputs {instances : List Instance} (hl : instances.length = p.size)
    {numbers : List Nat} {names : List PrimitiveId}
    (hn : numbers.map (p.ids[·]?) = names.map some)
    (hd : ∀ d ∈ numbers, Holds t p data instances s d) :
    ∃ (memories : List Memory) (inputs : List Placed),
      numbers.map (fun d => instances[d]?.map Instance.output) = memories.map some ∧
        names.map (t.resultOf data) = inputs.map some ∧
        memories.map s.placed? = inputs.map some := by
  induction numbers generalizing names with
  | nil =>
    cases names with
    | nil => exact ⟨[], [], rfl, rfl, rfl⟩
    | cons name names => simp at hn
  | cons d numbers ih =>
    cases names with
    | nil => simp at hn
    | cons name names =>
      rw [List.map_cons, List.map_cons, List.cons.injEq, Program.getElem?_ids_eq_some_iff] at hn
      obtain ⟨⟨m, hm, rfl⟩, hn⟩ := hn
      have hlt := (List.getElem?_eq_some_iff.1 hm).1
      obtain ⟨i, hi⟩ : ∃ i, instances[d]? = some i :=
        ⟨_, List.getElem?_eq_getElem (by rw [hl]; exact hlt)⟩
      obtain ⟨placed, hr, hp⟩ := hd d (by simp) i m hi hm
      obtain ⟨memories, inputs, hms, hrs, hps⟩ := ih hn fun e he => hd e (by simp [he])
      exact ⟨i.output :: memories, placed :: inputs, by simp [hi, hms], by simp [hr, hrs],
        by simp [hp, hps]⟩

def withStore (n : Network ε) (s : Store) : Network ε := { n with store := s }

theorem exists_bound (hc : p.Compiled t) (h : n.Sound p data) (hi : n.instances[k]? = some i)
    (hm : p.nodes[k]? = some m) (hd : ∀ d < k, Holds t p data n.instances s d) :
    ∃ (b : BoundNode ε) (inputs : List Placed),
      n.bound k = .ok b ∧ b.node = m ∧ b.output = i.output ∧
      m.primitive.dependencies.map (t.resultOf data) = inputs.map some ∧ b.Reads s inputs := by
  have hs := h.standsFor hi hm
  obtain ⟨memories, inputs, hms, hrs, hps⟩ := exists_inputs h.length
    (hc.linked.dependencies m (List.mem_of_getElem? hm)) fun d hdm => hd d (hc.ordered k m hm d hdm)
  obtain ⟨b, hb, -, hn, ho, hinputs⟩ := h.mirrored.exists_bound hc.toReady hi
  rw [hs.dependencies, hms] at hinputs
  refine ⟨b, inputs, hb, (Option.some.inj (hm.symm.trans hn)).symm, ho, hrs, ?_⟩
  rwa [BoundNode.Reads, map_some_injective hinputs]

section Result

variable {inputs : List Placed} {layout : Layout} {values : List Float32}

theorem layoutFrom_inputs (hc : p.Compiled t) (hm : m ∈ p.nodes) (hl : m.layout? = some layout)
    (hr : m.primitive.dependencies.map (t.resultOf data) = inputs.map some) :
    m.primitive.layoutFrom (inputs.map Prod.fst) = .ok layout := by
  obtain ⟨_, hl', ht⟩ := hc.layout m hm
  obtain rfl := Option.some.inj (hl.symm.trans hl')
  obtain ⟨layouts, hls, hf⟩ :=
    (Topology.layoutOf_eq_some_iff hc.acyclic (hc.linked.primitive m hm)).1 ht
  have hfst := map_eq_map_map (fun _ _ => Topology.layoutOf_of_resultOf) hr
  rw [map_some_injective (hfst.symm.trans hls)]
  exact hf

theorem resultOf_iff (hc : p.Compiled t) (hm : m ∈ p.nodes) (hl : m.layout? = some layout)
    (hr : m.primitive.dependencies.map (t.resultOf data) = inputs.map some) {placed : Placed} :
    t.resultOf data m.id = some placed ↔
      ∃ tensor, m.primitive.meaning data (inputs.map Placed.tensor) = some tensor ∧
        layout.type = .float32 ∧ tensor.values.length = layout.count ∧
        placed = (layout, tensor.values) := by
  have hf := layoutFrom_inputs hc hm hl hr
  rw [Node.id, Topology.resultOf_eq_some_iff hc.acyclic (hc.linked.primitive m hm)]
  constructor
  · rintro ⟨inputs', hr', hp⟩
    obtain rfl := map_some_injective (hr.symm.trans hr')
    obtain ⟨tensor, hf', hmean, ht, hlen, hv⟩ := Primitive.result_eq_some_iff.1 hp
    obtain rfl := Except.ok.inj (hf.symm.trans hf')
    exact ⟨tensor, hmean, ht, hv ▸ hlen, by rw [hv]⟩
  · rintro ⟨tensor, hmean, ht, hlen, rfl⟩
    exact ⟨inputs, hr, Primitive.result_eq_some_iff.2 ⟨tensor, hf, hmean, ht, hlen, rfl⟩⟩

theorem resultOf_input (hc : p.Compiled t) (hm : m ∈ p.nodes)
    (hk : m.primitive.kind = .inputLayout) (hl : m.layout? = some layout) :
    t.resultOf data m.id = some (layout, values) ↔
      data m.id = some values ∧ layout.type = .float32 ∧ values.length = layout.count := by
  have hlen := Primitive.length_dependencies (hc.isBuiltin hm) (hc.validate hm)
  rw [hk] at hlen
  have hnil := List.length_eq_zero_iff.1 hlen
  have hnone : m.primitive.dependencies.map (t.resultOf data) = ([] : List Placed).map some := by
    rw [hnil]
    rfl
  obtain ⟨size, hmean⟩ := Primitive.meaning_of_input data hk
  rw [resultOf_iff hc hm hl hnone, List.map_nil, hmean]
  constructor
  · rintro ⟨tensor, hmap, ht, hcount, he⟩
    obtain ⟨-, rfl⟩ := Prod.mk.inj he
    obtain ⟨values, hd, rfl⟩ := Option.map_eq_some_iff.1 hmap
    exact ⟨hd, ht, hcount⟩
  · rintro ⟨hd, ht, hcount⟩
    exact ⟨⟨size, values⟩, Option.map_eq_some_iff.2 ⟨values, hd, rfl⟩, ht, hcount, rfl⟩

theorem Sound.result_of_input (hc : p.Compiled t) (h : n.Sound p data)
    (hi : n.instances[k]? = some i) (hm : p.nodes[k]? = some m)
    (hk : m.primitive.kind = .inputLayout) (hf : i.hasData = true) :
    ∃ placed, t.resultOf data m.id = some placed ∧ n.store.placed? i.output = some placed := by
  have hmem := List.mem_of_getElem? hm
  have hl := (h.standsFor hi hm).layout
  obtain ⟨hd, hv⟩ := h.fed k i m hi hm hk
  obtain ⟨values, hvalues⟩ := Option.isSome_iff_exists.1 (hd ▸ hf)
  have hstored := hv values hvalues
  refine ⟨(i.output.layout, values), ?_, by rw [Store.placed?, hstored]; rfl⟩
  exact (resultOf_input hc hmem hk hl).2
    ⟨hvalues, Store.type_of_values? hstored, Store.length_of_values? hstored⟩

theorem Sound.hasData (hc : p.Compiled t) (h : n.Sound p data)
    (hall : ∀ m ∈ p.nodes, ∃ placed, t.resultOf data m.id = some placed)
    (hi : i ∈ n.instances) : i.hasData = true := by
  obtain ⟨k, hk⟩ := List.mem_iff_getElem?.1 hi
  obtain ⟨m, hm, hs⟩ := h.bound.node k i hk
  by_cases hkind : m.primitive.kind = .inputLayout
  · have hmem := List.mem_of_getElem? hm
    obtain ⟨⟨layout, values⟩, hp⟩ := hall m hmem
    obtain ⟨layout', hl, ht⟩ := hc.layout m hmem
    obtain rfl := Option.some.inj ((Topology.layoutOf_of_resultOf hp).symm.trans ht)
    rw [(h.fed k i m hk hm hkind).1, ((resultOf_input hc hmem hkind hl).1 hp).1]
    rfl
  · exact hs.hasData hkind

end Result

theorem Bound.place_ne {instances : List Instance} (h : Bound p instances s) {l : Nat}
    {j : Instance} (hi : instances[k]? = some i) (hj : instances[l]? = some j) (hne : k ≠ l) :
    i.output.place ≠ j.output.place := by
  intro he
  have hk : (instances.map fun i => i.output.place)[k]? = some i.output.place := by simp [hi]
  have hl : (instances.map fun i => i.output.place)[l]? = some i.output.place := by
    simp [hj, he]
  have hlt := (List.getElem?_eq_some_iff.1 hk).1
  exact hne ((List.getElem?_inj hlt h.apart).1 (hk.trans hl.symm))

section Written

variable {values : List Float32}

theorem Bound.written {instances : List Instance} (h : Bound p instances s)
    (hi : instances[k]? = some i) (hw : s.Written i.output values s') :
    Bound p instances s' := by
  refine ⟨h.node, fun j hj => ?_, h.apart⟩
  obtain ⟨l, hl⟩ := List.mem_iff_getElem?.1 hj
  obtain ⟨b, hb, hs⟩ := h.buffer j hj
  by_cases he : k = l
  · subst he
    obtain rfl := Option.some.inj (hi.symm.trans hl)
    obtain ⟨b', c, hb', hw', hc⟩ := hw.exists_buffer
    obtain rfl := Option.some.inj (hb.symm.trans hb')
    exact ⟨c, hc, hs.write hw'⟩
  · exact ⟨b, (hw.hostBuffer?_of_ne (h.place_ne hi hl he)).trans hb, hs⟩

theorem Sound.written (h : n.Sound p data) (hi : n.instances[k]? = some i)
    (hm : p.nodes[k]? = some m) (hk : m.primitive.kind ≠ .inputLayout)
    (hw : n.store.Written i.output values s') : (n.withStore s').Sound p data := by
  refine ⟨h.program, h.length, h.bound.written hi hw, fun l j m' hj hm' hk' => ?_⟩
  obtain ⟨hd, hv⟩ := h.fed l j m' hj hm' hk'
  have hne : k ≠ l := by
    rintro rfl
    exact hk (Option.some.inj (hm.symm.trans hm') ▸ hk')
  refine ⟨hd, fun values' hv' => ?_⟩
  rw [withStore, hw.values?_of_ne (h.bound.place_ne hi hj hne)]
  exact hv values' hv'

theorem Holds.written {instances : List Instance} {d : Nat} (h : Bound p instances s)
    (hd : Holds t p data instances s d) (hi : instances[k]? = some i) (hne : k ≠ d)
    (hw : s.Written i.output values s') : Holds t p data instances s' d := by
  intro j m' hj hm'
  obtain ⟨placed, hr, hp⟩ := hd j m' hj hm'
  refine ⟨placed, hr, ?_⟩
  rw [Store.placed?, hw.values?_of_ne (h.place_ne hi hj hne)]
  exact hp

end Written

variable [DecidableEq ε]

theorem ofKind_iff (hc : p.Compiled t) (hm : m ∈ p.nodes) (hk : m.primitive.kind ≠ .inputLayout)
    {layout : Layout} (hl : m.layout? = some layout) {inputs : List Placed}
    (hrs : m.primitive.dependencies.map (t.resultOf data) = inputs.map some) {b : BoundNode ε}
    (hn : b.node = m) (hr : b.Reads s inputs) :
    Kernel.ofKind m.primitive.kind b s = .ok s' ↔
      ∃ tensor, m.primitive.meaning data (inputs.map Placed.tensor) = some tensor ∧
        s.Written b.output tensor.values s' := by
  have hlen := Topology.length_of_dependencies hrs
  have hfrom := layoutFrom_inputs hc hm hl hrs
  subst hn
  exact Kernel.ofKind_eq_ok_iff (hc.isBuiltin hm) hk (hc.validate hm) hlen hfrom hr

/-- A kernel that succeeds adds the result of its instance to those that are held already. -/
theorem Sound.step (hc : p.Compiled t) (h : n.Sound p data) (hi : n.instances[k]? = some i)
    (hm : p.nodes[k]? = some m) (hf : i.hasData = true)
    (hd : ∀ d < k, Holds t p data n.instances n.store d) {b : BoundNode ε}
    (hb : n.bound k = .ok b) (hr : Kernel.ofKind m.primitive.kind b n.store = .ok s') :
    (n.withStore s').Sound p data ∧ ∀ d < k + 1, Holds t p data n.instances s' d := by
  have hmem := List.mem_of_getElem? hm
  have hs := h.standsFor hi hm
  suffices (n.withStore s').Sound p data ∧ (∀ d < k, Holds t p data n.instances s' d) ∧
      ∃ placed, t.resultOf data m.id = some placed ∧ s'.placed? i.output = some placed by
    obtain ⟨hsound, hbelow, hself⟩ := this
    refine ⟨hsound, fun d hlt => ?_⟩
    rcases Nat.lt_succ_iff_lt_or_eq.1 hlt with hlt | rfl
    · exact hbelow d hlt
    · intro i' m' hi' hm'
      obtain rfl := Option.some.inj (hi.symm.trans hi')
      obtain rfl := Option.some.inj (hm.symm.trans hm')
      exact hself
  -- The kernel of an input writes nothing: its values came with its buffer.
  by_cases hk : m.primitive.kind = .inputLayout
  · rw [hk] at hr
    obtain rfl := Except.ok.inj hr
    exact ⟨h, hd, h.result_of_input hc hi hm hk hf⟩
  · obtain ⟨b', inputs, hb', hn, ho, hrs, hreads⟩ := exists_bound hc h hi hm hd
    obtain rfl := Except.ok.inj (hb.symm.trans hb')
    obtain ⟨tensor, hmean, hw⟩ := (ofKind_iff hc hmem hk hs.layout hrs hn hreads).1 hr
    rw [ho] at hw
    obtain ⟨ht, hlen⟩ := hw.fits
    have hvalues := hw.values? fun c hcbuf => by
      obtain ⟨c', hc', hproper⟩ := h.bound.buffer i (List.mem_of_getElem? hi)
      exact Option.some.inj (hc'.symm.trans hcbuf) ▸ hproper.sized
    refine ⟨h.written hi hm hk hw, fun d hlt => (hd d hlt).written h.bound hi (by omega) hw, ?_⟩
    refine ⟨(i.output.layout, tensor.values), ?_, by rw [Store.placed?, hvalues]; rfl⟩
    exact (resultOf_iff hc hmem hs.layout hrs).2 ⟨tensor, hmean, ht, hlen, rfl⟩

theorem Sound.exists_step (hc : p.Compiled t) (h : n.Sound p data)
    (hi : n.instances[k]? = some i) (hm : p.nodes[k]? = some m)
    (hd : ∀ d < k, Holds t p data n.instances n.store d) {placed : Placed}
    (hr : t.resultOf data m.id = some placed) :
    ∃ b s', n.bound k = .ok b ∧ b.node = m ∧
      Kernel.ofKind m.primitive.kind b n.store = .ok s' := by
  have hmem := List.mem_of_getElem? hm
  have hs := h.standsFor hi hm
  obtain ⟨b, inputs, hb, hn, ho, hrs, hreads⟩ := exists_bound hc h hi hm hd
  by_cases hk : m.primitive.kind = .inputLayout
  · exact ⟨b, n.store, hb, hn, by rw [hk]; rfl⟩
  · obtain ⟨tensor, hmean, ht, hlen, -⟩ := (resultOf_iff hc hmem hs.layout hrs).1 hr
    obtain ⟨c, hcbuf, -⟩ := h.bound.buffer i (List.mem_of_getElem? hi)
    obtain ⟨s', hw⟩ := Store.exists_written hcbuf ht hlen
    rw [← ho] at hw
    exact ⟨b, s', hb, hn, (ofKind_iff hc hmem hk hs.layout hrs hn hreads).2 ⟨tensor, hmean, hw⟩⟩

end InferenceGraph.Network
