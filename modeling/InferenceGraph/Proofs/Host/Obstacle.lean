import InferenceGraph.Proofs.Host.History
import InferenceGraph.Proofs.Topology.Values

set_option autoImplicit false

namespace InferenceGraph

variable {ε : Type} [Extension ε]

section

variable [DecidableEq ε]

/-- The element type of a reorder that a host kernel cannot write. -/
def Node.unwritable? (n : Node ε) : Option ElementType :=
  n.layout?.bind fun layout =>
    if n.isKind .reorder ∧ layout.type ≠ .float32 then some layout.type else none

/-- The error that a run ends with: about the first input without data, otherwise about the first
reorder that cannot be written. -/
def Program.obstacle? (p : Program ε) (data : InputData) : Option GraphError :=
  match p.nodes.find? fun n => n.isKind .inputLayout && (data n.id).isNone with
  | some n => some (.inputNotSet n.id)
  | none => p.nodes.findSome? fun n => n.unwritable?.map (.unsupportedType n.id)

end

variable {t : Topology ε} {p : Program ε} {data : InputData} {k : Nat} {m : Node ε}

namespace Program.Compiled

theorem exists_inputs (hc : p.Compiled t) (hm : p.nodes[k]? = some m)
    (hres : ∀ j < k, ∀ n, p.nodes[j]? = some n → ∃ placed, t.resultOf data n.id = some placed) :
    ∃ inputs : List Placed,
      m.primitive.dependencies.map (t.resultOf data) = inputs.map some := by
  refine exists_map_some fun name hname => ?_
  have hs := List.mem_map_of_mem (f := some) hname
  rw [← hc.linked.dependencies m (List.mem_of_getElem? hm)] at hs
  obtain ⟨d, hd, hid⟩ := List.mem_map.1 hs
  obtain ⟨n, hn, rfl⟩ := getElem?_ids_eq_some_iff.1 hid
  exact hres d (hc.ordered k m hm d hd) n hn

variable [DecidableEq ε]

theorem unwritable?_eq_some_iff (hc : p.Compiled t) (hm : m ∈ p.nodes) {layout : Layout}
    (hl : m.layout? = some layout) {type : ElementType} : m.unwritable? = some type ↔
      m.primitive.kind = .reorder ∧ layout.type ≠ .float32 ∧ layout.type = type := by
  simp [Node.unwritable?, Node.isKind, hc.kind m hm, hl, and_assoc]

theorem type_of_unwritable? (hc : p.Compiled t) (hm : m ∈ p.nodes)
    (hk : m.primitive.kind = .reorder) {layout : Layout} (hl : m.layout? = some layout)
    (hw : m.unwritable? = none) : layout.type = .float32 := by
  by_contra ht
  have hs := (hc.unwritable?_eq_some_iff hm hl).2 ⟨hk, ht, rfl⟩
  rw [hw] at hs
  cases hs

theorem exists_result (hc : p.Compiled t) (hm : m ∈ p.nodes)
    (hi : m.primitive.kind = .inputLayout → ∃ placed, t.resultOf data m.id = some placed)
    (hw : m.unwritable? = none) {inputs : List Placed}
    (hr : m.primitive.dependencies.map (t.resultOf data) = inputs.map some) :
    ∃ placed, t.resultOf data m.id = some placed := by
  by_cases hk : m.primitive.kind = .inputLayout
  · exact hi hk
  obtain ⟨layout, hl, -⟩ := hc.layout m hm
  have hf := Network.layoutFrom_inputs hc hm hl hr
  have hlen := Topology.length_of_dependencies hr
  have hfits : ∀ x ∈ inputs, x.1.type = .float32 ∧ x.2.length = x.1.count := by
    intro x hx
    have hs := List.mem_map_of_mem (f := some) hx
    rw [← hr] at hs
    obtain ⟨name, -, hname⟩ := List.mem_map.1 hs
    exact Topology.fits_of_resultOf hname
  have ht : layout.type = .float32 := by
    by_cases hreorder : m.primitive.kind = .reorder
    · exact hc.type_of_unwritable? hm hreorder hl hw
    · obtain ⟨first, hfirst, ht⟩ := Primitive.exists_type_of_layoutFrom (hc.isBuiltin hm)
        (hc.validate hm) hk hreorder (by simpa using hlen) hf
      obtain ⟨x, hx, rfl⟩ := List.mem_map.1 hfirst
      exact ht.trans (hfits x hx).1
  obtain ⟨tensor, hmean, hcount⟩ := Primitive.exists_meaning (hc.isBuiltin hm) (hc.validate hm) hk
    hlen hf fun x hx => (hfits x hx).2
  exact ⟨_, (Network.resultOf_iff hc hm hl hr).2 ⟨tensor, hmean, ht, hcount, rfl⟩⟩

theorem exists_result_below (hc : p.Compiled t)
    (hi : ∀ n ∈ p.nodes, n.primitive.kind = .inputLayout →
      ∃ placed, t.resultOf data n.id = some placed)
    (hw : ∀ j < k, ∀ n, p.nodes[j]? = some n → n.unwritable? = none) {j : Nat} (hj : j < k)
    {n : Node ε} (hn : p.nodes[j]? = some n) : ∃ placed, t.resultOf data n.id = some placed := by
  induction j using Nat.strongRecOn generalizing n with
  | ind j ih =>
    have hmem := List.mem_of_getElem? hn
    obtain ⟨inputs, hr⟩ := hc.exists_inputs hn fun d hd n hn => ih d hd (Nat.lt_trans hd hj) hn
    exact hc.exists_result hmem (hi n hmem) (hw j hj n hn) hr

theorem exists_obstacle?_of_unset (hc : p.Compiled t) (hm : m ∈ p.nodes)
    (hk : m.primitive.kind = .inputLayout) (hd : data m.id = none) :
    ∃ n ∈ p.nodes, n.primitive.kind = .inputLayout ∧
      p.obstacle? data = some (.inputNotSet n.id) := by
  have hs : (p.nodes.find? fun n => n.isKind .inputLayout && (data n.id).isNone).isSome :=
    List.find?_isSome.2 ⟨m, hm, by simp [Node.isKind, hc.kind m hm, hk, hd]⟩
  obtain ⟨n, hn⟩ := Option.isSome_iff_exists.1 hs
  have hmem := List.mem_of_find?_eq_some hn
  have hfound := List.find?_some hn
  rw [Bool.and_eq_true_iff, Node.isKind, hc.kind n hmem, decide_eq_true_eq] at hfound
  exact ⟨n, hmem, hfound.1, by rw [Program.obstacle?, hn]⟩

end Program.Compiled

section Reorder

variable {b : BoundNode ε} {s : Store}

theorem BoundNode.writeOutput_of_type_ne {c : HostBuffer} (hb : s.hostBuffer? b.output = some c)
    (ht : b.output.layout.type ≠ .float32) (values : List Float32) :
    b.writeOutput s values = .fail (.unsupportedType b.id b.output.layout.type) := by
  simp only [writeOutput, hostBuffer, hb, if_neg ht]
  rfl

theorem Kernel.exists_ofKind_reorder [DecidableEq ε] (hk : b.node.primitive.kind = .reorder)
    {x : Placed} (hr : b.Reads s [x]) :
    ofKind b.node.primitive.kind b s = b.writeOutput s x.2 := by
  rcases hp : b.node.primitive with ⟨id, ids, padding, kind, q⟩
  rw [hp] at hk
  cases hk
  exact reorder_eq hp hr

end Reorder

namespace Network

variable [DecidableEq ε] {n : Network ε} {i : Instance}

theorem Sound.not_hasData (hc : p.Compiled t) (h : n.Sound p data) (hi : n.instances[k]? = some i)
    (hm : p.nodes[k]? = some m) :
    (!i.hasData) = (m.isKind .inputLayout && (data m.id).isNone) := by
  by_cases hk : m.primitive.kind = .inputLayout
  · rw [(hc.isKind_iff (List.mem_of_getElem? hm)).2 hk, (h.fed k i m hi hm hk).1]
    cases data m.id <;> rfl
  · have hn : m.isKind .inputLayout = false :=
      Bool.eq_false_iff.2 fun he => hk ((hc.isKind_iff (List.mem_of_getElem? hm)).1 he)
    rw [(h.standsFor hi hm).hasData hk, hn]
    rfl

theorem Sound.find?_unset (hc : p.Compiled t) (h : n.Sound p data) :
    (n.instances.find? fun i => !i.hasData).map Instance.id =
      (p.nodes.find? fun n => n.isKind .inputLayout && (data n.id).isNone).map Node.id := by
  have he : n.instances.map (fun i => (!i.hasData, i.id)) =
      p.nodes.map fun m => (m.isKind .inputLayout && (data m.id).isNone, m.id) := by
    refine List.ext_getElem (by simp [h.length, Program.size]) fun k hk hk' => ?_
    rw [List.length_map] at hk hk'
    have hi := List.getElem?_eq_getElem hk
    have hm := List.getElem?_eq_getElem hk'
    rw [List.getElem_map, List.getElem_map, h.not_hasData hc hi hm, (h.standsFor hi hm).id]
  have hfind := congrArg (fun entries => (entries.find? Prod.fst).map Prod.snd) he
  simpa only [List.find?_map, Option.map_map, Function.comp_def] using hfind

theorem Sound.run_of_unset (hc : p.Compiled t) (h : n.Sound p data)
    {d : Dispatcher ε Nat HostEvent} {started : Nat}
    (hm : (p.nodes.find? fun n => n.isKind .inputLayout && (data n.id).isNone) = some m) :
    (n.run d started).1 = .fail (.inputNotSet m.id) := by
  have hf := h.find?_unset hc
  rw [hm, Option.map_some, Option.map_eq_some_iff] at hf
  obtain ⟨i, hi, hid⟩ := hf
  simp only [Network.run, hi, hid]

theorem Sound.hasData_of_set (hc : p.Compiled t) (h : n.Sound p data)
    (hset : (p.nodes.find? fun n => n.isKind .inputLayout && (data n.id).isNone) = none)
    (hi : i ∈ n.instances) : i.hasData = true := by
  have hf := h.find?_unset hc
  rw [hset, Option.map_none, Option.map_eq_none_iff, List.find?_eq_none] at hf
  simpa using hf i hi

theorem Sound.exists_result_below (hc : p.Compiled t) (h : n.Sound p data)
    (hf : ∀ i ∈ n.instances, i.hasData = true)
    (hw : ∀ j < k, ∀ n, p.nodes[j]? = some n → n.unwritable? = none) {j : Nat} (hj : j < k)
    (hm : p.nodes[j]? = some m) : ∃ placed, t.resultOf data m.id = some placed := by
  refine hc.exists_result_below (fun q hq hk => ?_) hw hj hm
  obtain ⟨l, hl⟩ := List.mem_iff_getElem?.1 hq
  obtain ⟨i, hi⟩ := h.exists_instance (List.getElem?_eq_some_iff.1 hl).1
  obtain ⟨placed, hp, -⟩ := h.result_of_input hc hi hl hk (hf i (List.mem_of_getElem? hi))
  exact ⟨placed, hp⟩

theorem Progress.runInstance_of_unwritable (hc : p.Compiled t) {events : List HostEvent}
    {s : Nat × Store} (h : Progress t p data n events s)
    (hi : n.instances[events.length]? = some i) (hm : p.nodes[events.length]? = some m)
    {type : ElementType} (hw : m.unwritable? = some type) :
    n.runInstance (HostDispatcher.dispatch Kernel.builtins) events i s =
      (.fail (.unsupportedType m.id type), s.1 + 1, s.2) := by
  have hmem := List.mem_of_getElem? hm
  obtain ⟨b, inputs, hb, hn, ho, hrs, hreads⟩ := exists_bound hc h.sound hi hm h.holds
  obtain ⟨hk, ht, rfl⟩ :=
    (hc.unwritable?_eq_some_iff hmem (h.sound.standsFor hi hm).layout).1 hw
  have hlen := (Topology.length_of_dependencies hrs).trans
    (Primitive.length_dependencies (hc.isBuiltin hmem) (hc.validate hmem))
  rw [hk] at hlen
  obtain ⟨x, rfl⟩ := List.length_eq_one_iff.1 hlen
  obtain ⟨c, hc', -⟩ := h.sound.bound.buffer i (List.mem_of_getElem? hi)
  have hkernel : Kernel.ofKind m.primitive.kind b s.2 =
      .fail (.unsupportedType m.id i.output.layout.type) := by
    subst hn
    rw [Kernel.exists_ofKind_reorder hk hreads, ← ho]
    exact BoundNode.writeOutput_of_type_ne (ho ▸ hc') (ho ▸ ht) x.2
  rw [h.runInstance_eq hc hi hm hb hn, hkernel]
  rfl

theorem Sound.run_of_unwritable (hc : p.Compiled t) (h : n.Sound p data) {started : Nat}
    (hf : ∀ i ∈ n.instances, i.hasData = true)
    (hbefore : ∀ j < k, ∀ m, p.nodes[j]? = some m → m.unwritable? = none)
    (hm : p.nodes[k]? = some m) {type : ElementType} (hw : m.unwritable? = some type) :
    (n.run (HostDispatcher.dispatch Kernel.builtins) started).1 =
      .fail (.unsupportedType m.id type) := by
  have hlt := (List.getElem?_eq_some_iff.1 hm).1
  obtain ⟨i, hi⟩ := h.exists_instance hlt
  obtain ⟨events, s, rfl, hp, hrun⟩ := (Progress.start h started).reach hc hf (Nat.zero_le k)
    (h.length ▸ Nat.le_of_lt hlt) fun d hd m hm => h.exists_result_below hc hf hbefore hd hm
  have hstep := hp.runInstance_of_unwritable hc hi hm hw
  obtain ⟨hlt, rfl⟩ := List.getElem?_eq_some_iff.1 hi
  rw [List.length_nil, List.drop_zero, List.drop_eq_getElem_cons hlt, Network.runInstances,
    hstep] at hrun
  simp only [Network.run, find?_unset_eq_none hf, hrun, Outcome.fail]

end Network

namespace HostNetwork

variable [DecidableEq ε] {r : Registry ε} {o : CompileOptions} {x : HostNetwork ε}

omit [DecidableEq ε] in
theorem run_of_network {e : GraphError} (hr : (x.network.run
    (HostDispatcher.dispatch x.dispatcher.kernels) x.dispatcher.started).1 = .fail e) :
    x.run.1 = .fail e :=
  bind_eq_error_iff.2 (.inl hr)

theorem run_of_sound (hc : p.Compiled t) (h : x.network.Sound p data)
    (hk : x.dispatcher.kernels = Kernel.builtins) :
    match p.obstacle? data with
    | some e => x.run.1 = .fail e
    | none => ∃ values, x.run.1 = .ok values := by
  unfold Program.obstacle?
  cases hset : p.nodes.find? fun n => n.isKind .inputLayout && (data n.id).isNone with
  | some m => exact run_of_network (h.run_of_unset hc hset)
  | none =>
    have hf : ∀ i ∈ x.network.instances, i.hasData = true := fun i hi => h.hasData_of_set hc hset hi
    cases hw : p.nodes.findSome? fun n => n.unwritable?.map (GraphError.unsupportedType n.id) with
    | some e =>
      obtain ⟨before, m, after, hnodes, hm, hbefore⟩ := List.findSome?_eq_some_iff.1 hw
      obtain ⟨type, htype, rfl⟩ := Option.map_eq_some_iff.1 hm
      refine run_of_network (hk ▸ h.run_of_unwritable hc hf (k := before.length) ?_ ?_ htype)
      · intro j hj n hn
        rw [hnodes, List.getElem?_append_left hj] at hn
        exact Option.map_eq_none_iff.1 (hbefore n (List.mem_of_getElem? hn))
      · rw [hnodes, List.getElem?_append_right le_rfl, Nat.sub_self]
        rfl
    | none =>
      refine exists_run hc h hk fun m hm => ?_
      obtain ⟨k, hm⟩ := List.mem_iff_getElem?.1 hm
      refine h.exists_result_below hc hf (fun j _ n hn => ?_) (Nat.lt_succ_self k) hm
      have hnone := List.findSome?_eq_none_iff.1 hw n (List.mem_of_getElem? hn)
      exact Option.map_eq_none_iff.1 hnone

/-- A compiled program always becomes a network, and whatever was called on it, a run with all
kernels ends with the obstacle of the program or succeeds. -/
theorem run_obstacle (hb : t.Builtin) (hp : Program.ofTopology r t o = .ok p) :
    ∃ x, ofProgram p = .ok x ∧ ∀ calls : List (Call ε), (∀ c ∈ calls, c.Usual) →
      (x.after calls).1.dispatcher.kernels = Kernel.builtins →
        match p.obstacle? (x.after calls).2 with
        | some e => (x.after calls).1.run.1 = .fail e
        | none => ∃ values, (x.after calls).1.run.1 = .ok values := by
  obtain ⟨x, hx⟩ := exists_ofProgram hb hp
  refine ⟨x, hx, fun calls hu hk => ?_⟩
  exact run_of_sound (Program.compiled_of_ofTopology hb hp) (live_after hb hp hx hu).sound hk

theorem run_obstacle_copies : ∃ p x,
    Program.ofTopology .standard Topology.copies .standard = .ok p ∧ ofProgram p = .ok x ∧
      x.run.1 = .fail (.inputNotSet Topology.source) := by
  obtain ⟨p, hp⟩ := Topology.exists_program_copies (o := .standard) fun _ h => by cases h
  obtain ⟨x, hx, hrun⟩ := run_obstacle (by decide) hp
  have hc := Program.compiled_of_ofTopology (by decide) hp
  have hs : Topology.source ∈ Topology.copies.ids := by decide
  obtain ⟨m, hm, hid⟩ := List.mem_map.1 ((Program.ids_iff_of_ofTopology hp).2 hs)
  have hkind : ∀ q ∈ Topology.copies.primitives,
      q.kind = .inputLayout ↔ q.id = Topology.source := by decide
  have hempty : (x.after []).1.dispatcher.kernels = Kernel.builtins :=
    congrArg HostDispatcher.kernels (dispatcher_of_ofProgram hx)
  obtain ⟨n, hn, hk, ho⟩ := hc.exists_obstacle?_of_unset hm
    ((hkind _ (hc.linked.primitive m hm)).2 hid) (show (x.after []).2 m.id = none from rfl)
  have hunset := hrun [] (by simp) hempty
  rw [ho, show n.id = _ from (hkind _ (hc.linked.primitive n hn)).1 hk] at hunset
  exact ⟨p, x, hp, hx, hunset⟩

end HostNetwork

end InferenceGraph
