import InferenceGraph.Detection.Head
import InferenceGraph.Proofs.Detection.Ranges
import InferenceGraph.Proofs.Program.Recompilation

set_option autoImplicit false

namespace InferenceGraph.DetectionHead

/-- There are images, classes and rows, and no more classes than a signed word can count and no more
rows than a word can. The number of prior boxes does not matter. -/
structure Usable (h : DetectionHead) : Prop where
  images : 1 ≤ h.images
  classes : 1 ≤ h.classes
  classes_lt : h.classes < 2 ^ 31
  keep : 1 ≤ h.keep
  keep_lt : h.keep < 2 ^ 32

def inputs (h : DetectionHead) : List (PrimitiveId × Layout) :=
  [(locRaw, h.locationLayout), (locBias, h.locationLayout), (confRaw, h.confidenceLayout),
    (prior, h.priorLayout)]

def outputLayout (h : DetectionHead) : Layout :=
  single ⟨1, 1, h.keep * h.images, 7⟩

variable {ε : Type} [Extension ε] {h : DetectionHead}

theorem Usable.toNat_classes (hu : h.Usable) : h.params.classes.toNat = h.classes :=
  UInt32.toNat_ofNat_of_lt' (Nat.lt_trans hu.classes_lt (by decide))

theorem Usable.toNat_keep (hu : h.Usable) : h.params.keep.toNat = h.keep :=
  UInt32.toNat_ofNat_of_lt' hu.keep_lt

theorem Usable.check_params (hu : h.Usable) : h.params.check = .ok () := by
  have hbackground : h.params.background.toInt = 0 := rfl
  have hlabel : h.params.classes.toNat < 2 ^ 31 ∧ -1 ≤ h.params.background.toInt ∧
      h.params.background.toInt < h.params.classes.toNat := by
    have hclasses := hu.classes
    rw [hu.toNat_classes, hbackground]
    exact ⟨hu.classes_lt, by decide, by omega⟩
  simp only [DetectionParameters.check, fault_eq_ok_iff, DetectionParameters.count_iff,
    DetectionParameters.label_iff, DetectionParameters.limit_iff, not_not, and_true]
  refine ⟨?_, ?_, hlabel, ?_, ?_, ?_, ?_⟩
  case refine_1 => exact hu.toNat_classes ▸ hu.classes
  case refine_2 => exact hu.toNat_keep ▸ hu.keep
  case refine_3 => exact (by decide : (0 : Float32) ≤ 0.45 ∧ (0.45 : Float32) ≤ 1)
  case refine_4 => exact .inr (by decide : (1 : Int) ≤ (64 : Int32).toInt)
  case refine_5 => exact (by decide : (0 : Float32) < 1 ∧ (1 : Float32) ≤ 1)
  case refine_6 => exact (by decide : ¬ (0.01 : Float32).isNaN = true)

def skeleton : List (PrimitiveId × List PrimitiveId) :=
  [(locRaw, []), (locBias, []), (loc, [locRaw, locBias]), (confRaw, []), (conf, [confRaw]),
    (prior, []), (detections, [loc, conf, prior])]

variable (ε) in
theorem map_primitives (h : DetectionHead) :
    (h.topology : Topology ε).primitives.map (fun q => (q.id, q.dependencies)) = skeleton := rfl

theorem mem_skeleton {q : Primitive ε} (hq : q ∈ h.topology.primitives) :
    (q.id, q.dependencies) ∈ skeleton :=
  h.map_primitives ε ▸ List.mem_map_of_mem (f := fun q => (q.id, q.dependencies)) hq

theorem closed_topology (h : DetectionHead) : (h.topology : Topology ε).Closed := by
  have hs : ∀ q ∈ skeleton, ∀ d ∈ q.2, d ∈ skeleton.map Prod.fst := by decide
  exact fun q hq d hd => hs _ (mem_skeleton hq) d hd

theorem acyclic_topology (h : DetectionHead) : (h.topology : Topology ε).Acyclic := by
  have hs : ∀ q ∈ skeleton, ∀ d ∈ q.2,
      (skeleton.map Prod.fst).idxOf d < (skeleton.map Prod.fst).idxOf q.1 := by decide
  exact Topology.acyclic_of_rank _ fun q hq d hd => hs _ (mem_skeleton hq) d hd

theorem exposed_iff {id : PrimitiveId} :
    (h.topology : Topology ε).Exposed .standard id ↔ id = detections := by
  have hs : ∀ a ∈ skeleton.map Prod.fst, (∀ q ∈ skeleton, a ∉ q.2) ↔ a = detections := by decide
  constructor
  · rintro ⟨hid, hn⟩
    refine (hs id hid).1 fun q hq hd => ?_
    rw [← h.map_primitives ε] at hq
    obtain ⟨q', hq', rfl⟩ := List.mem_map.1 hq
    exact hn q'.id ⟨q', hq', rfl, hd⟩
  · rintro rfl
    have hid : detections ∈ skeleton.map Prod.fst := by decide
    refine ⟨hid, fun user ⟨q, hq, _, hd⟩ => ?_⟩
    exact (hs detections hid).2 rfl _ (mem_skeleton hq) hd

theorem mem_primitives_iff {q : Primitive ε} : q ∈ h.topology.primitives ↔
    (∃ entry ∈ h.inputs, q = input entry.1 entry.2) ∨
      q = .ofParams loc [locRaw] .eltwise (Eltwise.plain locBias .sum) ∨
      q = .ofParams conf [confRaw] .activation (Activation.mk .logistic 0 0) ∨
      q = .ofParams detections [loc, conf, prior] .detectionOutput h.params := by
  simp only [topology, primitives, inputs, List.mem_cons, List.not_mem_nil, or_false,
    exists_eq_or_imp, exists_eq_left]
  tauto

theorem input_mem {entry : PrimitiveId × Layout} (he : entry ∈ h.inputs) :
    (input entry.1 entry.2 : Primitive ε) ∈ h.topology.primitives :=
  mem_primitives_iff.2 (.inl ⟨entry, he, rfl⟩)

theorem detections_mem (h : DetectionHead) :
    (.ofParams detections [loc, conf, prior] .detectionOutput h.params : Primitive ε) ∈
      h.topology.primitives :=
  mem_primitives_iff.2 (.inr (.inr (.inr rfl)))

theorem kind_of_mem {q : Primitive ε} (hq : q ∈ h.topology.primitives) :
    (q.kind = .inputLayout → ∃ layout, (q.id, layout) ∈ h.inputs) ∧ q.kind ≠ .reorder := by
  rcases mem_primitives_iff.1 hq with ⟨entry, he, rfl⟩ | rfl | rfl | rfl
  · exact ⟨fun _ => ⟨entry.2, he⟩, nofun⟩
  · exact ⟨nofun, nofun⟩
  · exact ⟨nofun, nofun⟩
  · exact ⟨nofun, nofun⟩

theorem type_of_mem_inputs {id : PrimitiveId} {layout : Layout} (hi : (id, layout) ∈ h.inputs) :
    layout.type = .float32 := by
  simp only [inputs, List.mem_cons, List.not_mem_nil, or_false, Prod.mk.injEq] at hi
  rcases hi with ⟨-, rfl⟩ | ⟨-, rfl⟩ | ⟨-, rfl⟩ | ⟨-, rfl⟩ <;> rfl

theorem layoutOf_input {id : PrimitiveId} {layout : Layout} (hi : (id, layout) ∈ h.inputs) :
    (h.topology : Topology ε).layoutOf id = some layout :=
  (Topology.layoutOf_eq_some_iff h.acyclic_topology (input_mem hi)).2 ⟨[], rfl, rfl⟩

theorem layoutOf_loc (h : DetectionHead) :
    (h.topology : Topology ε).layoutOf loc = some h.locationLayout := by
  have hraw : (h.topology : Topology ε).layoutOf locRaw = _ := layoutOf_input (.head _)
  have hbias : (h.topology : Topology ε).layoutOf locBias = _ := layoutOf_input (.tail _ (.head _))
  refine (Topology.layoutOf_eq_some_iff h.acyclic_topology
    (mem_primitives_iff.2 (.inr (.inl rfl)))).2 ⟨[h.locationLayout, h.locationLayout], ?_, ?_⟩
  · exact congrArg₂ (fun a b => [a, b]) hraw hbias
  · exact Primitive.layoutFrom_eltwise _

theorem layoutOf_conf (h : DetectionHead) :
    (h.topology : Topology ε).layoutOf conf = some h.confidenceLayout := by
  have hraw : (h.topology : Topology ε).layoutOf confRaw = _ :=
    layoutOf_input (.tail _ (.tail _ (.head _)))
  refine (Topology.layoutOf_eq_some_iff h.acyclic_topology
    (mem_primitives_iff.2 (.inr (.inr (.inl rfl))))).2 ⟨[h.confidenceLayout], ?_, rfl⟩
  exact congrArg (fun a => [a]) hraw

theorem layoutOf_prior (h : DetectionHead) :
    (h.topology : Topology ε).layoutOf prior = some h.priorLayout :=
  layoutOf_input (.tail _ (.tail _ (.tail _ (.head _))))

theorem Usable.outputLayout_params (hu : h.Usable) : h.params.outputLayout h.locationLayout
    h.confidenceLayout h.priorLayout .none = .ok h.outputLayout := by
  have himages : h.locationLayout.size.batch ≠ 0 := Nat.ne_of_gt hu.images
  have hbatch : h.confidenceLayout.size.batch = h.locationLayout.size.batch := rfl
  have hsides : h.priorLayout.size.x % 4 = 0 := Nat.mul_mod_left h.priors 4
  have hpriors : h.priorLayout.size.x / 4 = h.priors := Nat.mul_div_cancel h.priors (by decide)
  have hlocation : h.locationLayout.size.perImage = h.priors * h.params.locationClasses * 4 := by
    change h.priors * 4 * 1 * 1 = h.priors * 1 * 4
    omega
  have hconfidence : h.confidenceLayout.size.perImage = h.priors * h.params.classes.toNat := by
    rw [hu.toNat_classes]
    exact (Nat.mul_one _).trans (Nat.mul_one _)
  have hboxes : ¬ (h.priorLayout.size.batch ≠ 1 ∨ h.priorLayout.size.feature ≠ 2 ∨
      h.priorLayout.size.y ≠ 1 ∨ h.priorLayout.size.x % 4 ≠ 0) := by
    rintro (hb | hf | hy | hx)
    exacts [hb rfl, hf rfl, hy rfl, hx hsides]
  rw [DetectionParameters.outputLayout, if_neg hboxes, hpriors, if_neg himages,
    if_neg (not_not_intro hbatch), if_neg (not_not_intro hlocation),
    if_neg (not_not_intro hconfidence), hu.toNat_keep]
  rfl

theorem layoutOf_detections (hu : h.Usable) :
    (h.topology : Topology ε).layoutOf detections = some h.outputLayout := by
  refine (Topology.layoutOf_eq_some_iff h.acyclic_topology h.detections_mem).2
    ⟨[h.locationLayout, h.confidenceLayout, h.priorLayout], ?_, ?_⟩
  · change [_, _, _] = _
    rw [h.layoutOf_loc, h.layoutOf_conf, h.layoutOf_prior]
    rfl
  · change NodeView.ofFault _ (h.params.outputLayout h.locationLayout h.confidenceLayout
      h.priorLayout .none) = _
    rw [hu.outputLayout_params]
    rfl

theorem exists_layoutOf (hu : h.Usable) {id : PrimitiveId}
    (hi : id ∈ (h.topology : Topology ε).ids) :
    ∃ layout, (h.topology : Topology ε).layoutOf id = some layout := by
  obtain ⟨q, hq, rfl⟩ := List.mem_map.1 hi
  rcases mem_primitives_iff.1 hq with ⟨entry, he, rfl⟩ | rfl | rfl | rfl
  · exact ⟨_, layoutOf_input he⟩
  · exact ⟨_, h.layoutOf_loc⟩
  · exact ⟨_, h.layoutOf_conf⟩
  · exact ⟨_, layoutOf_detections hu⟩

theorem builtin_topology (h : DetectionHead) : (h.topology : Topology ε).Builtin := by
  intro q hq
  rcases mem_primitives_iff.1 hq with ⟨entry, -, rfl⟩ | rfl | rfl | rfl <;> rfl

theorem valid_topology (hu : h.Usable) : (h.topology : Topology ε).Valid := by
  intro q hq
  rcases mem_primitives_iff.1 hq with ⟨entry, he, rfl⟩ | rfl | rfl | rfl
  · simp only [inputs, List.mem_cons, List.not_mem_nil, or_false] at he
    rcases he with rfl | rfl | rfl | rfl <;> rfl
  · rfl
  · rfl
  · change (invalidUnless detections h.params.check) = _
    rw [hu.check_params]
    rfl

theorem acceptable_topology (hu : h.Usable) :
    (h.topology : Topology ε).Acceptable .standard where
  valid := valid_topology hu
  closed := h.closed_topology
  acyclic := h.acyclic_topology
  requestable := nofun
  layouts := fun _ hi => exists_layoutOf hu hi

theorem addAll_primitives (h : DetectionHead) :
    Topology.empty.addAll (h.primitives : List (Primitive ε)) = (h.topology, .ok ()) := by
  obtain ⟨t, ht, hp⟩ := Topology.empty.exists_addAll (h.primitives : List (Primitive ε))
    h.topology.ids_nodup
  obtain ⟨primitives, ids_nodup⟩ := t
  obtain rfl : primitives = h.primitives := hp
  exact ht

variable [DecidableEq ε] {p : Program ε}

theorem exists_program (hu : h.Usable) :
    ∃ p : Program ε, Program.ofTopology .standard h.topology .standard = .ok p := by
  have ha : (h.topology : Topology ε).Acceptable .standard := acceptable_topology hu
  obtain ⟨first, hi⟩ := Program.exists_initial Registry.reachable_standard (fun _ hk => hk)
    h.builtin_topology ha
  exact Program.exists_ofTopology hi h.builtin_topology ha

/-- What a head is compiled to: seven nodes, and the detections as the only output. -/
structure Built (h : DetectionHead) (p : Program ε) : Prop where
  size : p.size = 7
  outputIds : p.outputIds = .ok [detections]
  outputLayout : ∃ k, p.nodeIndex detections = .ok k ∧ p.outputLayout k = .ok h.outputLayout

theorem built_of_ofTopology (hu : h.Usable)
    (hp : Program.ofTopology .standard h.topology .standard = .ok p) : h.Built p := by
  have hc := Program.compiled_of_ofTopology h.builtin_topology hp
  constructor
  case size =>
    have hall := Program.primitives_perm hp fun _ => Topology.kept_of_mem_ids (.inl rfl)
    calc p.size = (p.nodes.map Node.primitive).length := (List.length_map _).symm
      _ = h.topology.primitives.length := hall.length_eq
      _ = 7 := rfl
  case outputIds =>
    obtain ⟨ids, ho, hn⟩ := Program.exists_outputIds hp
    have hids : ids.Perm [detections] := (List.perm_ext_iff_of_nodup hn (List.nodup_singleton _)).2
      fun id => by
        rw [Program.outputIds_iff_of_ofTopology hp ho, exposed_iff, List.mem_singleton]
    rw [ho, List.perm_singleton.1 hids]
  case outputLayout =>
    have hid : detections ∈ p.ids :=
      (Program.ids_iff_of_ofTopology hp).2 (exposed_iff.2 rfl).kept
    obtain ⟨k, m, hm, hid⟩ := Program.exists_node hid
    obtain ⟨layout, hl, ht⟩ := hc.layout m (List.mem_of_getElem? hm)
    rw [hid, layoutOf_detections hu] at ht
    obtain rfl := Option.some.inj ht
    refine ⟨k, hid ▸ hc.nodeIndex_of_node hm, ?_⟩
    simp only [Program.outputLayout, Program.node, hm, hl, Outcome.get_some, ok_bind]

end InferenceGraph.DetectionHead
