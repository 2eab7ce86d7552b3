import InferenceGraph.Proofs.Detection.Selection
import InferenceGraph.Proofs.Host.Obstacle
import InferenceGraph.Proofs.Program.Head

set_option autoImplicit false

namespace InferenceGraph

namespace DetectionParameters

variable {p : DetectionParameters} {location confidence prior values : List Float32}
variable {priors images image j : Nat}

/-- A row of a table is empty or shows a detection of its image. -/
theorem Tabulates.row_cases (h : p.Tabulates images location confidence prior values)
    (hl : location.length = images * (priors * p.locationClasses * 4))
    (hc : confidence.length = images * (priors * p.classes.toNat))
    (hp : prior.length = priors * 8) (hb : -1 ≤ p.background) (hi : image < images)
    (hj : j < p.keep.toNat) :
    tableRow values (image * p.keep.toNat + j) = [-1, 0, 0, 0, 0, 0, 0] ∨
      ∃ d, tableRow values (image * p.keep.toNat + j) = rowOf image (some d) ∧
        p.Detects (ofImage location images image) (ofImage confidence images image) prior
          priors d := by
  obtain ⟨found, hd, -, hrows, -⟩ := h.block image hi
  have hfits : p.Fits (ofImage location images image) (ofImage confidence images image)
      prior priors := ⟨length_ofImage hl hi, length_ofImage hc hi, hp⟩
  have hm : tableRow values (image * p.keep.toNat + j) ∈ p.blockRows values image :=
    List.mem_of_getElem? (getElem?_blockRows hj)
  rw [hrows, List.mem_append] at hm
  rcases hm with hm | hm
  · obtain ⟨d, hd', he⟩ := List.mem_map.1 hm
    exact .inr ⟨d, he.symm, hfits.detects_of_detect hb hd hd'⟩
  · exact .inl (List.mem_replicate.1 hm).2

end DetectionParameters

namespace DetectionHead

/-- Seven values that begin with the number of an image, a label other than the background and a
score above the threshold. -/
structure Shows (h : DetectionHead) (image : Nat) (row : List Float32) : Prop where
  length : row.length = 7
  image : row[0]? = some (Float32.ofNat image)
  label : ∃ label, row[1]? = some (Float32.ofNat label) ∧ 1 ≤ label ∧ label ≤ h.classes - 1
  score : ∃ score : Float32, row[2]? = some score ∧ score > 0.01

def IsRow (h : DetectionHead) (image : Nat) (row : List Float32) : Prop :=
  row = [-1, 0, 0, 0, 0, 0, 0] ∨ h.Shows image row

/-- The values of a table: for each image as many rows as are kept. -/
structure IsTable (h : DetectionHead) (values : List Float32) : Prop where
  length : values.length = h.images * h.keep * 7
  row : ∀ image < h.images, ∀ j < h.keep,
    h.IsRow image (DetectionParameters.tableRow values (image * h.keep + j))

variable {ε : Type} [Extension ε] {h : DetectionHead}

theorem shows_of_detects {location confidence prior : List Float32} {priors image : Nat}
    {d : Detection} (hu : h.Usable)
    (hd : h.params.Detects location confidence prior priors d) :
    h.Shows image (DetectionParameters.rowOf image (some d)) := by
  have hlt : d.label < h.classes := hu.toNat_classes ▸ hd.label_lt
  have hne : (d.label : Int) ≠ 0 := hd.label_ne
  exact ⟨rfl, rfl, ⟨d.label, rfl, by omega, by omega⟩, d.score, rfl, hd.above⟩

theorem isTable_of_resultOf (hu : h.Usable) {data : InputData} {placed : Placed}
    (hr : (h.topology : Topology ε).resultOf data detections = some placed) :
    h.IsTable placed.2 := by
  obtain ⟨x, y, z, hx, -, hz, hlocation, hconfidence, hprior, ht⟩ :=
    Topology.exists_tabulates h.acyclic_topology h.detections_mem hr
  have hl : x.1 = h.locationLayout :=
    Option.some.inj ((Topology.layoutOf_of_resultOf hx).symm.trans h.layoutOf_loc)
  have himages : x.1.size.batch = h.images := congrArg (fun l => l.size.batch) hl
  rw [himages] at hlocation hconfidence ht
  have hkeep := hu.toNat_keep
  refine ⟨hkeep ▸ ht.length, fun image hi j hj => ?_⟩
  have hrow := ht.row_cases hlocation hconfidence hprior (by decide : (-1 : Int32) ≤ 0) hi
    (hkeep.symm ▸ hj)
  rw [hkeep] at hrow
  rcases hrow with hrow | ⟨d, hrow, hd⟩
  · exact .inl hrow
  · exact .inr (hrow ▸ shows_of_detects hu hd)

variable [DecidableEq ε] {p : Program ε} {x : HostNetwork ε} {data : InputData}

def Accepts (h : DetectionHead) (x : HostNetwork ε) : Prop :=
  ∀ id layout, (id, layout) ∈ h.inputs → ∀ values : List Float32, values.length = layout.count →
    ∃ y, x.bindValues id values = .ok y

/-- Values of the right lengths are set for all inputs, in any order and possibly more than once. -/
def Fed (h : DetectionHead) (calls : List (Call ε)) : Prop :=
  ∀ id layout, (id, layout) ∈ h.inputs → ∃ values : List Float32, values.length = layout.count ∧
    .setInput id values ∈ calls

theorem accepts_of_sound (hp : Program.ofTopology .standard h.topology .standard = .ok p)
    (hs : x.network.Sound p data) : h.Accepts x := by
  intro id layout hi values hl
  have hc := Program.compiled_of_ofTopology h.builtin_topology hp
  have hid : id ∈ p.ids := (Program.ids_iff_of_ofTopology hp).2
    (Topology.kept_of_mem_ids (.inl rfl) (List.mem_map_of_mem (input_mem hi)))
  obtain ⟨k, m, hm, rfl⟩ := Program.exists_node hid
  have hmem := List.mem_of_getElem? hm
  have hq : m.primitive = input m.id layout :=
    Topology.eq_of_id_eq (hc.linked.primitive m hmem) (input_mem hi) rfl
  obtain ⟨i, hk⟩ := hs.exists_instance (List.getElem?_eq_some_iff.1 hm).1
  obtain ⟨layout', hl', ht⟩ := hc.layout m hmem
  have ho : i.output.layout = layout := by
    rw [layoutOf_input hi] at ht
    exact Option.some.inj ((hs.standsFor hk hm).layout.symm.trans (hl'.trans ht.symm))
  refine HostNetwork.exists_bindValues hc hs hm hk (by rw [hq]; rfl) ?_ (ho ▸ hl)
  exact ho ▸ type_of_mem_inputs hi

theorem Fed.isSome_after {calls : List (Call ε)} (hf : h.Fed calls)
    (hp : Program.ofTopology .standard h.topology .standard = .ok p)
    (hx : HostNetwork.ofProgram p = .ok x) (hu : ∀ c ∈ calls, c.Usual) {id : PrimitiveId}
    {layout : Layout} (hi : (id, layout) ∈ h.inputs) : ((x.after calls).2 id).isSome := by
  obtain ⟨values, hl, hm⟩ := hf id layout hi
  obtain ⟨before, rest, rfl⟩ := List.append_of_mem hm
  have hbefore : ∀ c ∈ before, c.Usual := fun c hc => hu c (List.mem_append_left _ hc)
  have hlive := HostNetwork.live_after h.builtin_topology hp hx hbefore
  obtain ⟨y, hy⟩ := accepts_of_sound hp hlive.sound id layout hi values hl
  rw [HostNetwork.after, List.foldl_append, List.foldl_cons]
  refine HostNetwork.isSome_foldl ?_ rest
  change ((Call.apply (x.after before) _).2 id).isSome
  rw [Call.apply, hy]
  simp [InputData.set]

theorem obstacle?_eq_none (hc : p.Compiled h.topology)
    (hd : ∀ id layout, (id, layout) ∈ h.inputs → (data id).isSome) :
    p.obstacle? data = none := by
  have hset : p.nodes.find? (fun n => n.isKind .inputLayout && (data n.id).isNone) = none := by
    refine List.find?_eq_none.2 fun n hn => ?_
    rw [Bool.and_eq_true_iff, hc.isKind_iff hn, not_and]
    intro hk
    obtain ⟨layout, hi⟩ := (kind_of_mem (hc.linked.primitive n hn)).1 hk
    rw [Bool.not_eq_true, Option.isNone_eq_false_iff]
    exact hd n.id layout hi
  have hwritten : ∀ n ∈ p.nodes, n.unwritable? = none := by
    intro n hn
    obtain ⟨layout, hl, -⟩ := hc.layout n hn
    by_contra hne
    obtain ⟨type, ht⟩ := Option.ne_none_iff_exists'.1 hne
    exact (kind_of_mem (hc.linked.primitive n hn)).2 ((hc.unwritable?_eq_some_iff hn hl).1 ht).1
  rw [Program.obstacle?, hset]
  exact List.findSome?_eq_none_iff.2 fun n hn => by rw [hwritten n hn, Option.map_none]

theorem run_of_live (hu : h.Usable)
    (hp : Program.ofTopology .standard h.topology .standard = .ok p)
    (hl : HostNetwork.Live p (x, data)) (hk : x.dispatcher.kernels = Kernel.builtins)
    (hd : ∀ id layout, (id, layout) ∈ h.inputs → (data id).isSome) :
    ∃ values, x.run.1 = .ok [(detections, values)] ∧ h.IsTable values := by
  have hc := Program.compiled_of_ofTopology h.builtin_topology hp
  have hrun := HostNetwork.run_of_sound hc hl.sound hk
  rw [obstacle?_eq_none hc hd] at hrun
  obtain ⟨outputs, hr⟩ := hrun
  have hg := HostNetwork.gives_of_run hc hl.sound hl.kernels hr
  have hids := Except.ok.inj (hg.outputIds.symm.trans (built_of_ofTopology hu hp).outputIds)
  obtain ⟨⟨id, values⟩, rfl, rfl⟩ := List.map_eq_singleton_iff.1 hids
  obtain ⟨layout, hres⟩ := hg.resultOf _ (List.mem_singleton_self _)
  exact ⟨values, hr, isTable_of_resultOf hu hres⟩

theorem run_of_fed {calls : List (Call ε)} (hu : h.Usable)
    (hp : Program.ofTopology .standard h.topology .standard = .ok p)
    (hx : HostNetwork.ofProgram p = .ok x) (hcalls : ∀ c ∈ calls, c.Usual) (hf : h.Fed calls)
    (hk : (x.after calls).1.dispatcher.kernels = Kernel.builtins) :
    ∃ values, (x.after calls).1.run.1 = .ok [(detections, values)] ∧ h.IsTable values :=
  run_of_live hu hp (HostNetwork.live_after h.builtin_topology hp hx hcalls) hk
    fun _ _ hi => hf.isSome_after hp hx hcalls hi

/-- Every usable head is accepted, compiled, and given a network. Whatever is called on the network,
values of the right lengths can be set for the inputs, and once this was done for all of them, a run
with all kernels succeeds with a table of detections. -/
theorem run_gives_table (hu : h.Usable) :
    Topology.empty.addAll (h.primitives : List (Primitive ε)) = (h.topology, .ok ()) ∧
      ∃ (p : Program ε) (x : HostNetwork ε),
        Program.ofTopology .standard h.topology .standard = .ok p ∧ h.Built p ∧
        HostNetwork.ofProgram p = .ok x ∧
        ∀ calls : List (Call ε), (∀ c ∈ calls, c.Usual) → h.Accepts (x.after calls).1 ∧
          (h.Fed calls → (x.after calls).1.dispatcher.kernels = Kernel.builtins →
            ∃ values, (x.after calls).1.run.1 = .ok [(detections, values)] ∧ h.IsTable values) := by
  obtain ⟨p, hp⟩ := exists_program (ε := ε) hu
  obtain ⟨x, hx⟩ := HostNetwork.exists_ofProgram h.builtin_topology hp
  refine ⟨h.addAll_primitives, p, x, hp, built_of_ofTopology hu hp, hx, fun calls hcalls => ?_⟩
  have hl := HostNetwork.live_after h.builtin_topology hp hx hcalls
  exact ⟨accepts_of_sound hp hl.sound, run_of_fed hu hp hx hcalls⟩

def filling (h : DetectionHead) (value : Float32) : List (Call ε) :=
  h.inputs.map fun (id, layout) => .setInput id (List.replicate layout.count value)

omit [DecidableEq ε] in
theorem exists_of_mem_filling {value : Float32} {c : Call ε} (hc : c ∈ h.filling value) :
    ∃ id values, c = .setInput id values := by
  obtain ⟨entry, -, rfl⟩ := List.mem_map.1 hc
  exact ⟨_, _, rfl⟩

omit [DecidableEq ε] in
theorem fed_filling (h : DetectionHead) (value : Float32) :
    h.Fed (h.filling value : List (Call ε)) :=
  fun _ _ hi => ⟨_, List.length_replicate, List.mem_map_of_mem hi⟩

theorem run_gives_table_nan : Usable ⟨2, 1, 3, 2⟩ ∧
    ∃ (p : Program Empty) (x : HostNetwork Empty) (values : List Float32),
      Program.ofTopology .standard (topology ⟨2, 1, 3, 2⟩) .standard = .ok p ∧
      Built ⟨2, 1, 3, 2⟩ p ∧ HostNetwork.ofProgram p = .ok x ∧
      (x.after (filling ⟨2, 1, 3, 2⟩ (0 / 0))).1.run.1 = .ok [(detections, values)] ∧
      IsTable ⟨2, 1, 3, 2⟩ values := by
  have hu : Usable ⟨2, 1, 3, 2⟩ := ⟨by decide, by decide, by decide, by decide, by decide⟩
  obtain ⟨-, p, x, hp, hbuilt, hx, hcalls⟩ := run_gives_table (ε := Empty) hu
  have hset : ∀ c ∈ (filling ⟨2, 1, 3, 2⟩ (0 / 0) : List (Call Empty)),
      c.Usual ∧ ∀ d, c ≠ .setDispatcher d := by
    intro c hc
    obtain ⟨id, values, rfl⟩ := exists_of_mem_filling hc
    exact ⟨trivial, nofun⟩
  have hk := HostNetwork.kernels_after hx fun c hc => (hset c hc).2
  obtain ⟨values, hr, ht⟩ := (hcalls _ fun c hc => (hset c hc).1).2 (fed_filling _ _) hk
  exact ⟨hu, p, x, values, hp, hbuilt, hx, hr, ht⟩

end DetectionHead

end InferenceGraph
