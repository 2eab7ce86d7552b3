import InferenceGraph.Detection.Head
import InferenceGraph.Proofs.Host.Inputs
import InferenceGraph.Proofs.Network.History
import InferenceGraph.Proofs.Program.Derivation
import InferenceGraph.Proofs.Topology.Values

set_option autoImplicit false

namespace InferenceGraph

theorem DetectionParameters.outputLayout_congr (q : DetectionParameters) (padding : Padding)
    {x y z x' y' z' : Layout} (hx : x.same x' = true) (hy : y.same y' = true)
    (hz : z.same z' = true) : q.outputLayout x y z padding = q.outputLayout x' y' z' padding := by
  obtain ⟨hxtype, hxsize⟩ := Layout.shape_of_same hx
  obtain ⟨-, hysize⟩ := Layout.shape_of_same hy
  obtain ⟨-, hzsize⟩ := Layout.shape_of_same hz
  unfold outputLayout
  rw [hxtype, hxsize, hysize, hzsize]

variable {ε : Type} [Extension ε] {r : Registry ε} {t : Topology ε} {o : CompileOptions}
variable {p : Program ε} {n : Network ε} {b : BoundNode ε} {s s' : Store} {k : Nat}
variable {id : PrimitiveId} {ids : List PrimitiveId} {padding : Padding} {q : DetectionParameters}

namespace Network

variable {fed : List PrimitiveId}

theorem Mirrored.exists_instance_of_bound (h : n.Mirrored p) (hr : p.Ready t)
    (hb : n.bound k = .ok b) :
    ∃ i, n.instances[k]? = some i ∧ p.nodes[k]? = some b.node ∧ b.output = i.output ∧
      b.inputs.map some =
        b.node.dependencies.map fun d => n.instances[d]?.map Instance.output := by
  obtain ⟨i, hi, -⟩ := bind_eq_ok_iff.1 hb
  rw [instanceAt, Outcome.get_eq_ok_iff] at hi
  obtain ⟨b', hb', -, hm, ho, hinputs⟩ := h.exists_bound hr hi
  obtain rfl := Except.ok.inj (hb.symm.trans hb')
  obtain ⟨m, hm', hs⟩ := h.mirrors k i hi
  obtain rfl := Option.some.inj (hm.symm.trans hm')
  exact ⟨i, hi, hm, ho, hs.dependencies ▸ hinputs⟩

theorem Mirrored.output_of_bound (h : n.Mirrored p) (hr : p.Ready t) (hb : n.bound k = .ok b)
    {i : Instance} (hi : n.instances[k]? = some i) : b.output = i.output := by
  obtain ⟨j, hj, -, ho, -⟩ := h.exists_instance_of_bound hr hb
  obtain rfl := Option.some.inj (hi.symm.trans hj)
  exact ho

theorem Mirrored.exists_instance_of_input (h : n.Mirrored p) (hr : p.Ready t)
    (hb : n.bound k = .ok b) {m : Memory} (hm : m ∈ b.inputs) :
    ∃ (d : Nat) (i : Instance), n.instances[d]? = some i ∧ i.output = m := by
  obtain ⟨-, -, -, -, hinputs⟩ := h.exists_instance_of_bound hr hb
  have hsome := List.mem_map_of_mem (f := some) hm
  rw [hinputs] at hsome
  obtain ⟨d, -, hd⟩ := List.mem_map.1 hsome
  exact ⟨d, Option.map_eq_some_iff.1 hd⟩

theorem Intact.same_layout (h : n.Intact p fed) {d : Nat} {m : Memory} {layout : Layout}
    (hm : n.instances[d]?.map Instance.output = some m) (hl : p.layout? d = some layout) :
    layout.same m.layout = true := by
  obtain ⟨i, hi, rfl⟩ := Option.map_eq_some_iff.1 hm
  obtain ⟨node, hnode, hs⟩ := h.serving d i hi
  obtain ⟨layout', hl', hsame⟩ := hs.layout
  rw [Program.layout?, hnode, Option.bind_some, hl'] at hl
  exact Option.some.inj hl ▸ hsame

variable [DecidableEq ε]

theorem Intact.exists_outputLayout (hp : Program.ofTopology r t o = .ok p) (h : n.Intact p fed)
    (hb : n.bound k = .ok b)
    (hq : b.node.primitive = ⟨id, ids, padding, .detectionOutput, q⟩) :
    ∃ (location confidence prior : Memory) (layout : Layout),
      b.inputs = [location, confidence, prior] ∧
      q.outputLayout location.layout confidence.layout prior.layout padding = .ok layout ∧
      layout.same b.output.layout = true := by
  obtain ⟨i, hi, hnode, ho, hinputs⟩ :=
    h.mirrored.exists_instance_of_bound (Program.ready_of_ofTopology hp) hb
  have hbuiltin : b.node.primitive.kind.isBuiltin = true := by rw [hq]; rfl
  obtain ⟨layouts, layout, hls, hl, hlen, hv, hf⟩ :=
    Program.layoutFrom_of_ofTopology hp (List.mem_of_getElem? hnode) hbuiltin
  have hthree := hlen.trans (Primitive.length_dependencies hbuiltin hv)
  rw [hq] at hthree hlen hf
  obtain ⟨x, y, z, rfl⟩ := List.length_eq_three.1 hthree
  obtain ⟨d, e, f, hd⟩ : ∃ d e f, b.node.dependencies = [d, e, f] :=
    List.length_eq_three.1 (by simpa using congrArg List.length hls)
  obtain ⟨location, confidence, prior, hbound⟩ : ∃ location confidence prior,
      b.inputs = [location, confidence, prior] :=
    List.length_eq_three.1 (by simpa [hd] using congrArg List.length hinputs)
  simp only [hd, List.map_cons, List.map_nil, List.cons.injEq, and_true] at hls
  simp only [hd, hbound, List.map_cons, List.map_nil, List.cons.injEq, and_true] at hinputs
  obtain ⟨hx, hy, hz⟩ := hls
  obtain ⟨hlocation, hconfidence, hprior⟩ := hinputs
  refine ⟨location, confidence, prior, layout, hbound, ?_, ?_⟩
  · rw [← q.outputLayout_congr padding (h.same_layout hlocation.symm hx)
      (h.same_layout hconfidence.symm hy) (h.same_layout hprior.symm hz)]
    exact Primitive.outputLayout_of_detection hlen hf
  · exact h.same_layout (d := k) (by rw [hi, ho]; rfl) (by rw [Program.layout?, hnode]; exact hl)

end Network

/-- All buffers that the node is bound to are in host memory. Elsewhere a kernel can neither read nor
write. -/
def BoundNode.Hosted (b : BoundNode ε) (s : Store) : Prop :=
  ∀ m ∈ b.output :: b.inputs, ∃ c, s.hostBuffer? m = some c ∧ c.Sized

theorem Network.Sound.hosted {data : InputData} (hr : p.Ready t) (h : n.Sound p data)
    (hb : n.bound k = .ok b) : b.Hosted n.store := by
  intro m hm
  rcases List.mem_cons.1 hm with rfl | hm
  · obtain ⟨i, hi, -, ho, -⟩ := h.mirrored.exists_instance_of_bound hr hb
    obtain ⟨c, hc, hp⟩ := h.bound.buffer i (List.mem_of_getElem? hi)
    exact ⟨c, ho ▸ hc, hp.sized⟩
  · obtain ⟨d, i, hi, rfl⟩ := h.mirrored.exists_instance_of_input hr hb hm
    obtain ⟨c, hc, hp⟩ := h.bound.buffer i (List.mem_of_getElem? hi)
    exact ⟨c, hc, hp.sized⟩

theorem BoundNode.Hosted.exists_reads (h : b.Hosted s)
    (ht : ∀ m ∈ b.inputs, m.layout.type = .float32) : ∃ inputs, b.Reads s inputs := by
  refine exists_map_some fun m hm => ?_
  obtain ⟨c, hc, hs⟩ := h m (by simp [hm])
  obtain ⟨values, hvalues⟩ := Store.exists_values? hc hs (ht m hm)
  exact ⟨(m.layout, values), by rw [Store.placed?, hvalues]; rfl⟩

theorem BoundNode.Reads.map_layout {inputs : List Placed} (h : b.Reads s inputs) :
    b.inputs.map Memory.layout = inputs.map Prod.fst := by
  have hlayout : ∀ m x, s.placed? m = some x → m.layout = x.1 := fun m x hx => by
    obtain ⟨values, -, rfl⟩ := Option.map_eq_some_iff.1 hx
    rfl
  have hm := map_eq_map_map (h := Prod.fst) (j := fun l => l) hlayout h
  rwa [List.map_id'] at hm

theorem BoundNode.Reads.map_values {inputs : List Placed} (h : b.Reads s inputs) :
    b.inputs.map s.values? = (inputs.map Prod.snd).map some :=
  map_eq_map_map (fun _ _ hx => by
    obtain ⟨values, hv, rfl⟩ := Option.map_eq_some_iff.1 hx
    exact hv) h

variable [DecidableEq ε]

/-- The kernel of a detection node succeeds: it reads its three inputs and replaces the values of its
output by the table of what is found in them. -/
structure BoundNode.Tabulates (b : BoundNode ε) (q : DetectionParameters) (images : Nat)
    (s s' : Store) (location confidence prior values : List Float32) : Prop where
  reads : b.inputs.map s.values? = [some location, some confidence, some prior]
  kernel : Kernel.detectionOutput b s = .ok s'
  written : s.Written b.output values s'
  output : s'.values? b.output = some values
  table : q.Tabulates images location confidence prior values

theorem BoundNode.Reads.exists_tabulates {x y z : Placed} (hr : b.Reads s [x, y, z])
    (hq : b.node.primitive = ⟨id, ids, padding, .detectionOutput, q⟩) {layout : Layout}
    (hl : q.outputLayout x.1 y.1 z.1 padding = .ok layout)
    (hs : layout.same b.output.layout = true) (ht : x.1.type = .float32) (hh : b.Hosted s) :
    ∃ s' values, b.Tabulates q x.1.size.batch s s' x.2 y.2 z.2 values := by
  obtain ⟨hi, hlocation, hconfidence, hprior⟩ := DetectionParameters.counts_of_outputLayout hl
  obtain ⟨values, hv, htable⟩ := DetectionParameters.exists_tabulation
    ((hr.length_values (i := 0) rfl).trans hlocation)
    ((hr.length_values (i := 1) rfl).trans hconfidence)
    ((hr.length_values (i := 2) rfl).trans hprior)
  obtain ⟨htype, hsize⟩ := Layout.shape_of_same hs
  rw [DetectionParameters.layout_of_outputLayout hl] at htype hsize
  have hcount : values.length = b.output.layout.count := by
    rw [htable.length, Layout.count, ← hsize, TensorSize.count, Nat.one_mul, Nat.one_mul,
      Nat.mul_comm x.1.size.batch]
  obtain ⟨c, hc, hsized⟩ := hh b.output (by simp)
  obtain ⟨s', hw⟩ := Store.exists_written hc (htype ▸ ht) hcount
  refine ⟨s', values, hr.map_values, ?_, hw, hw.values? fun c' hc' => ?_, htable⟩
  · rw [Kernel.detectionOutput_eq hq hr, (DetectionParameters.table_eq_ok_iff hi).2 hv, ok_bind]
    exact writeOutput_eq_ok_iff.2 hw
  · exact Option.some.inj (hc.symm.trans hc') ▸ hsized

/-- A detection node, for all that its buffers may hold: the table is complete, the block of an image
depends on the values of that image and the prior boxes only, and nothing that the output held before
is left. -/
structure BoundNode.Detects (b : BoundNode ε) (q : DetectionParameters) (images : Nat) : Prop where
  batch : b.inputs[0]?.map (fun m => m.layout.size.batch) = some images
  runs : ∀ s, b.Hosted s → ∃ s' location confidence prior values,
    b.Tabulates q images s s' location confidence prior values
  separate : ∀ {s s' u u' location location' confidence confidence' prior values values' image},
    b.Tabulates q images s s' location confidence prior values →
    b.Tabulates q images u u' location' confidence' prior values' → image < images →
    DetectionParameters.ofImage location images image =
      DetectionParameters.ofImage location' images image →
    DetectionParameters.ofImage confidence images image =
      DetectionParameters.ofImage confidence' images image →
    q.blockRows values image = q.blockRows values' image
  forgets : ∀ {s s' u u' location confidence prior values values'},
    b.Tabulates q images s s' location confidence prior values →
    b.Tabulates q images u u' location confidence prior values' → values = values'

/-- A detection node of a network that went through anything. -/
theorem Network.detects_after {allocator : Allocator} (hp : Program.ofTopology r t o = .ok p)
    (hn : ofProgram p allocator = .ok n) (operations : List (Operation ε))
    (hb : (n.after operations).1.bound k = .ok b)
    (hq : b.node.primitive = ⟨id, ids, padding, .detectionOutput, q⟩)
    (ht : ∀ m ∈ b.inputs, m.layout.type = .float32) : ∃ images, b.Detects q images := by
  have h := intact_after (Program.ready_of_ofTopology hp) hn operations
  obtain ⟨location, confidence, prior, layout, hi, hl, hs⟩ := h.exists_outputLayout hp hb hq
  refine ⟨location.layout.size.batch, by rw [hi]; rfl, fun s hh => ?_, ?_, ?_⟩
  case refine_1 =>
    obtain ⟨inputs, hr⟩ := hh.exists_reads ht
    have hlayouts := hr.map_layout
    rw [hi] at hlayouts
    obtain ⟨x, y, z, rfl⟩ : ∃ x y z, inputs = [x, y, z] :=
      List.length_eq_three.1 (by simpa using (congrArg List.length hlayouts).symm)
    simp only [List.map_cons, List.map_nil, List.cons.injEq, and_true] at hlayouts
    obtain ⟨hx, hy, hz⟩ := hlayouts
    rw [hx, hy, hz] at hl
    obtain ⟨s', values, htab⟩ :=
      hr.exists_tabulates hq hl hs (hx ▸ ht location (by simp [hi])) hh
    exact ⟨s', x.2, y.2, z.2, values, hx ▸ htab⟩
  case refine_2 =>
    intro _ _ _ _ _ _ _ _ _ _ _ _ h h' hi hl hc
    exact h.table.blockRows_congr h'.table hi hl hc
  case refine_3 =>
    intro _ _ _ _ _ _ _ _ _ h h'
    exact h.table.eq_of_blockRows h'.table fun image hi =>
      h.table.blockRows_congr h'.table hi rfl rfl

namespace DetectionHead

def pair : Topology Empty := topology ⟨2, 1, 2, 2⟩

theorem layoutOf_pair : (pair.primitives.all fun p =>
    (pair.layoutOf p.id).any fun l => l.type = .float32) = true := by
  decide +kernel

theorem exists_layoutOf_pair {p : Primitive Empty} (hp : p ∈ pair.primitives) :
    ∃ layout, pair.layoutOf p.id = some layout ∧ layout.type = .float32 := by
  have hany := List.all_eq_true.1 layoutOf_pair p hp
  simpa only [Option.any_eq_true, decide_eq_true_eq] using hany

theorem exists_program_pair : ∃ p, Program.ofTopology .standard pair .standard = .ok p := by
  have hb : pair.Builtin := by decide
  have hc : pair.Closed := by decide
  have hr : pair.Requestable .standard := nofun
  have ha : pair.Acyclic := Topology.acyclic_of_rank
    (fun id => if id = detections then 2 else if id ∈ [loc, conf] then 1 else 0) (by decide)
  have hacc : pair.Acceptable .standard := by
    refine ⟨by decide, hc, ha, hr, fun id hid => ?_⟩
    obtain ⟨p, hp, rfl⟩ := List.mem_map.1 (hid.mem_ids hc hr)
    obtain ⟨layout, hl, -⟩ := exists_layoutOf_pair hp
    exact ⟨layout, hl⟩
  obtain ⟨first, hi⟩ := Program.exists_initial Registry.reachable_standard (fun _ hk => hk) hb hacc
  exact Program.exists_ofTopology hi hb hacc

theorem exists_bound_pair {p : Program Empty} {n : Network Empty}
    (hp : Program.ofTopology .standard pair .standard = .ok p)
    (hn : Network.ofProgram p .host = .ok n) : ∃ k b, n.bound k = .ok b ∧
      b.node.primitive = ⟨detections, [loc, conf, prior], .none, .detectionOutput,
        params ⟨2, 1, 2, 2⟩⟩ ∧ b.Hosted n.store ∧ ∀ m ∈ b.inputs, m.layout.type = .float32 := by
  have hc := Program.compiled_of_ofTopology (by decide) hp
  obtain ⟨n', hn', hs⟩ := Network.sound_of_ofProgram hc
  obtain rfl := Except.ok.inj (hn.symm.trans hn')
  have hid : detections ∈ pair.ids := by decide
  obtain ⟨m, hm, hid⟩ := List.mem_map.1 ((Program.ids_iff_of_ofTopology hp).2 hid)
  obtain ⟨k, hm⟩ := List.mem_iff_getElem?.1 hm
  obtain ⟨_, hk⟩ := hs.exists_instance (List.getElem?_eq_some_iff.1 hm).1
  obtain ⟨b, hb, -⟩ := hs.mirrored.exists_bound hc.toReady hk
  obtain ⟨-, -, hn, -, -⟩ := hs.mirrored.exists_instance_of_bound hc.toReady hb
  obtain rfl := Option.some.inj (hm.symm.trans hn)
  refine ⟨k, b, hb, ?_, hs.hosted hc.toReady hb, fun m hm => ?_⟩
  · exact Topology.eq_of_id_eq (hc.linked.primitive _ (List.mem_of_getElem? hm))
      (by simp [pair, topology, primitives, Primitive.ofParams]) hid
  · obtain ⟨d, i, hi, rfl⟩ := hs.mirrored.exists_instance_of_input hc.toReady hb hm
    obtain ⟨node, hnode, hstands⟩ := hs.bound.node d i hi
    have hmem := List.mem_of_getElem? hnode
    obtain ⟨layout, hl, hl'⟩ := hc.layout node hmem
    obtain ⟨layout', ht, htype⟩ := exists_layoutOf_pair (hc.linked.primitive node hmem)
    rw [Option.some.inj (hstands.layout.symm.trans hl), Option.some.inj (hl'.symm.trans ht)]
    exact htype

end DetectionHead

theorem Network.detects_after_pair : ∃ p n k b images,
    Program.ofTopology .standard DetectionHead.pair .standard = .ok p ∧
      ofProgram p .host = .ok n ∧ (n.after []).1.bound k = .ok b ∧
      b.node.primitive = ⟨DetectionHead.detections,
        [DetectionHead.loc, DetectionHead.conf, DetectionHead.prior], .none, .detectionOutput,
        DetectionHead.params ⟨2, 1, 2, 2⟩⟩ ∧
      (∀ m ∈ b.inputs, m.layout.type = .float32) ∧ b.Hosted n.store ∧
      b.Detects (DetectionHead.params ⟨2, 1, 2, 2⟩) images := by
  obtain ⟨p, hp⟩ := DetectionHead.exists_program_pair
  obtain ⟨n, hn, -⟩ := sound_of_ofProgram (Program.compiled_of_ofTopology (by decide) hp)
  obtain ⟨k, b, hb, hq, hh, ht⟩ := DetectionHead.exists_bound_pair hp hn
  obtain ⟨images, hd⟩ := detects_after hp hn [] hb hq ht
  exact ⟨p, n, k, b, images, hp, hn, hb, hq, ht, hh, hd⟩

end InferenceGraph
