import InferenceGraph.Proofs.Buffer.Writes
import InferenceGraph.Proofs.Host.History
import InferenceGraph.Proofs.Program.Exposure

/-!
# What runs leave in memory

Buffers are filled when they are allocated, and after that only their elements are written. So the
cells after a run do not tell what was in them before, nor whether an earlier run was given up: they
are those of a fresh buffer with the value of the node. A reorder passes its value on, and a chain of
them that comes back to a layout comes back to the same cells.
-/

set_option autoImplicit false

namespace InferenceGraph

variable {ε : Type} [Extension ε] {t : Topology ε} {p : Program ε} {data : InputData}

namespace Topology

/-- The second id belongs to a reorder of the first. -/
def Reorders (t : Topology ε) (a b : PrimitiveId) : Prop :=
  ∃ q ∈ t.primitives, q.id = b ∧ q.kind = .reorder ∧ a ∈ q.dependencies

variable {a b : PrimitiveId} {layout : Layout} {values : List Float32}

theorem Reorders.dependsOn (h : t.Reorders a b) : t.DependsOn b a := by
  obtain ⟨q, hq, hid, -, ha⟩ := h
  exact ⟨q, hq, hid, ha⟩

theorem Reorders.resultOf (ht : t.Acyclic) (h : t.Reorders a b)
    (hb : t.resultOf data b = some (layout, values)) :
    ∃ layout', t.resultOf data a = some (layout', values) := by
  obtain ⟨q, hq, rfl, hk, ha⟩ := h
  obtain ⟨inputs, hi, hr⟩ := (resultOf_eq_some_iff ht hq).1 hb
  obtain ⟨tensor, -, hm, -, -, rfl⟩ := Primitive.result_eq_some_iff.1 hr
  have hn := Primitive.length_of_meaning hm
  obtain ⟨id, ids, padding, kind, params⟩ := q
  cases hk
  rw [List.length_map] at hn
  obtain ⟨x, rfl⟩ := List.length_eq_one_iff.1 hn
  obtain rfl := Option.some.inj hm
  have hmem := List.mem_map_of_mem (f := t.resultOf data) ha
  rw [hi, List.map_singleton, List.mem_singleton] at hmem
  exact ⟨x.1, hmem⟩

theorem resultOf_of_reorders (ht : t.Acyclic) (h : Relation.ReflTransGen t.Reorders a b)
    (hb : t.resultOf data b = some (layout, values)) :
    ∃ layout', t.resultOf data a = some (layout', values) := by
  induction h generalizing layout with
  | refl => exact ⟨layout, hb⟩
  | tail _ hr ih =>
    obtain ⟨layout', hl⟩ := hr.resultOf ht hb
    exact ih hl

theorem reflTransGen_of_reorders (h : Relation.ReflTransGen t.Reorders a b) :
    Relation.ReflTransGen t.DependsOn b a := by
  induction h with
  | refl => exact .refl
  | tail _ hr ih => exact .head hr.dependsOn ih

end Topology

namespace Network

variable {n : Network ε} {k : Nat} {i : Instance} {m : Node ε}

theorem Sound.exists_shows (h : n.Sound p data) (hd : Holds t p data n.instances n.store k)
    (hi : n.instances[k]? = some i) (hm : p.nodes[k]? = some m) :
    ∃ values b, t.resultOf data m.id = some (i.output.layout, values) ∧
      n.store.hostBuffer? i.output = some b ∧ b.Shows i.output.layout values := by
  obtain ⟨placed, hr, hp⟩ := hd i m hi hm
  obtain ⟨values, hv, rfl⟩ := Option.map_eq_some_iff.1 hp
  obtain ⟨b, hb, hread⟩ := Option.bind_eq_some_iff.1 hv
  rw [toOption_eq_some_iff] at hread
  obtain ⟨b', hb', hproper⟩ := h.bound.buffer i (List.mem_of_getElem? hi)
  obtain rfl := Option.some.inj (hb.symm.trans hb')
  exact ⟨values, b, hr, hb, Store.layout_of_hostBuffer? hb, hproper, hread⟩

/-- The cells behind all instances, padding included. -/
structure Canonical (t : Topology ε) (p : Program ε) (data : InputData) (n : Network ε) : Prop where
  length : n.instances.length = p.size
  /-- They are those of a fresh buffer with the inferred layout and the value of the node. -/
  buffer : ∀ (k : Nat) (i : Instance), n.instances[k]? = some i → ∃ m layout tensor b,
    p.nodes[k]? = some m ∧ m.id = i.id ∧ m.layout? = some layout ∧
      t.eval data m.id = some tensor ∧ HostBuffer.ofValues layout tensor.values = .ok b ∧
      n.store.hostBuffer? i.output = some b
  /-- A chain of reorders back to the layout it comes from reproduces them. -/
  chain : ∀ j ∈ n.instances, ∀ a, Relation.ReflTransGen t.Reorders a j.id →
    ∃ i ∈ n.instances, i.id = a ∧ (i.output.layout = j.output.layout →
      n.store.hostBuffer? i.output = n.store.hostBuffer? j.output)

section Run

variable (hc : p.Compiled t) (h : n.Sound p data)
variable (hall : ∀ d < p.size, Holds t p data n.instances n.store d)
include h hall

theorem Sound.exists_canonical (hi : n.instances[k]? = some i) : ∃ m layout tensor b,
    p.nodes[k]? = some m ∧ m.id = i.id ∧ m.layout? = some layout ∧
      t.eval data m.id = some tensor ∧ HostBuffer.ofValues layout tensor.values = .ok b ∧
      n.store.hostBuffer? i.output = some b := by
  obtain ⟨m, hm, hs⟩ := h.bound.node k i hi
  have hlt := (List.getElem?_eq_some_iff.1 hm).1
  obtain ⟨values, b, hr, hb, hshows⟩ := h.exists_shows (hall k hlt) hi hm
  exact ⟨m, _, _, b, hm, hs.id.symm, hs.layout, Topology.eval_of_resultOf hr, hshows.ofValues, hb⟩

include hc

theorem Sound.exists_reordered
    (hclosed : ∀ a b, Relation.ReflTransGen t.DependsOn a b → a ∈ p.ids → b ∈ p.ids)
    {j : Instance} (hj : j ∈ n.instances) {a : PrimitiveId} (hw : Relation.ReflTransGen t.Reorders a j.id) :
    ∃ i ∈ n.instances, i.id = a ∧ (i.output.layout = j.output.layout →
      n.store.hostBuffer? i.output = n.store.hostBuffer? j.output) := by
  obtain ⟨l, hj⟩ := List.mem_iff_getElem?.1 hj
  obtain ⟨m', hm', hs'⟩ := h.bound.node l j hj
  rw [hs'.id] at hw
  -- Whatever a kept node depends on is kept, so the chain begins at a node.
  have ha : a ∈ p.ids := hclosed m'.id a (Topology.reflTransGen_of_reorders hw)
    (List.mem_map_of_mem (List.mem_of_getElem? hm'))
  obtain ⟨k, m, hm, rfl⟩ := Program.exists_node ha
  have hk := (List.getElem?_eq_some_iff.1 hm).1
  have hl := (List.getElem?_eq_some_iff.1 hm').1
  obtain ⟨i, hi⟩ := h.exists_instance hk
  obtain ⟨values, b, hr, hb, hshows⟩ := h.exists_shows (hall k hk) hi hm
  obtain ⟨values', b', hr', hb', hshows'⟩ := h.exists_shows (hall l hl) hj hm'
  obtain ⟨layout, hsame⟩ := Topology.resultOf_of_reorders hc.acyclic hw hr'
  obtain rfl : values = values' := congrArg Prod.snd (Option.some.inj (hr.symm.trans hsame))
  refine ⟨i, List.mem_of_getElem? hi, (h.standsFor hi hm).id, fun hlayout => ?_⟩
  rw [hb, hb']
  exact congrArg some (hshows'.unique (hlayout ▸ hshows))

theorem Sound.canonical
    (hclosed : ∀ a b, Relation.ReflTransGen t.DependsOn a b → a ∈ p.ids → b ∈ p.ids) :
    Canonical t p data n where
  length := h.length
  buffer := fun _ _ hi => h.exists_canonical hall hi
  chain := fun _ hj _ hw => h.exists_reordered hc hall hclosed hj hw

end Run

theorem Canonical.layoutOf_eq (hc : p.Compiled t) (h : Canonical t p data n)
    (hi : i ∈ n.instances) : t.layoutOf i.id = some i.output.layout := by
  obtain ⟨k, hi⟩ := List.mem_iff_getElem?.1 hi
  obtain ⟨m, layout, tensor, b, hm, hid, hl, -, hv, hb⟩ := h.buffer k i hi
  obtain ⟨layout', hl', ht⟩ := hc.layout m (List.mem_of_getElem? hm)
  obtain rfl := Option.some.inj (hl.symm.trans hl')
  obtain rfl : b.layout = layout := HostBuffer.layout_of_write hv
  rw [← hid, ht, Store.layout_of_hostBuffer? hb]

theorem Canonical.exists_instance_of_mem (h : Canonical t p data n) {id : PrimitiveId}
    (hid : id ∈ p.ids) : ∃ i ∈ n.instances, i.id = id := by
  obtain ⟨k, m, hm, rfl⟩ := Program.exists_node hid
  have hlt : k < n.instances.length := h.length ▸ (List.getElem?_eq_some_iff.1 hm).1
  obtain ⟨m', -, -, -, hm', hid, -⟩ := h.buffer k _ (List.getElem?_eq_getElem hlt)
  obtain rfl := Option.some.inj (hm.symm.trans hm')
  exact ⟨_, List.getElem_mem hlt, hid.symm⟩

end Network

variable [DecidableEq ε] {r : Registry ε} {o : CompileOptions}

theorem Program.mem_ids_of_reflTransGen (h : ofTopology r t o = .ok p) {a b : PrimitiveId}
    (hw : Relation.ReflTransGen t.DependsOn a b) (ha : a ∈ p.ids) : b ∈ p.ids :=
  (ids_iff_of_ofTopology h).2
    (((ids_iff_of_ofTopology h).1 ha).of_reflTransGen (closed_of_ofTopology h) hw)

namespace HostNetwork

variable {x : HostNetwork ε} {calls : List (Call ε)}
variable {values : List (PrimitiveId × List Float32)}

/-- A run that succeeds leaves the same cells whatever was called before, but for the values that are
set. -/
theorem canonical_of_run (hb : t.Builtin) (hx : ofTopology r t o = .ok x)
    (hu : ∀ c ∈ calls, c.Usual) (hr : (x.after calls).1.run.1 = .ok values) :
    ∃ p, Program.ofTopology r t o = .ok p ∧
      Network.Canonical t p (x.after calls).2 (x.after calls).1.run.2.network := by
  obtain ⟨p, hp, hc, hl⟩ := exists_live hb hx hu
  obtain ⟨hs, hf⟩ := hl.sound.run hc hl.kernels (x.after calls).1.dispatcher.started
  obtain ⟨outputs, ho, -⟩ := bind_eq_ok_iff.1 hr
  exact ⟨p, hp, Network.Sound.canonical hc hs (hf outputs ho).holds fun a b hw ha =>
    Program.mem_ids_of_reflTransGen hp hw ha⟩

end HostNetwork

theorem Topology.reorders_copies : Relation.ReflTransGen copies.Reorders source spare := by
  have hcopy : copies.Reorders source copy :=
    ⟨copies.primitives[0], by simp [copies], rfl, rfl, by decide⟩
  have hspare : copies.Reorders copy spare :=
    ⟨copies.primitives[2], by simp [copies], rfl, rfl, by decide⟩
  exact .head hcopy (.single hspare)

theorem HostNetwork.canonical_of_run_interrupted : ∃ x values p,
    ofTopology .standard Topology.copies .standard = .ok x ∧
      (∀ c ∈ Topology.interrupted, c.Usual) ∧
      (x.after Topology.interrupted).1.run.1 = .ok values ∧
      Program.ofTopology .standard Topology.copies .standard = .ok p ∧
      let n := (x.after Topology.interrupted).1.run.2.network
      Network.Canonical Topology.copies p (x.after Topology.interrupted).2 n ∧
        ∃ i ∈ n.instances, ∃ j ∈ n.instances, i.id = Topology.source ∧ j.id = Topology.spare ∧
          n.store.hostBuffer? i.output = n.store.hostBuffer? j.output := by
  obtain ⟨x, hx⟩ := Topology.exists_host_copies (o := .standard) fun _ h => by cases h
  have hs : Topology.source ∈ Topology.copies.ids := by decide
  obtain ⟨values, hr⟩ := Topology.exists_run_interrupted hx hs
  obtain ⟨p, hp, hcanonical⟩ := canonical_of_run (by decide) hx Topology.usual_interrupted hr
  have hc := Program.compiled_of_ofTopology (by decide) hp
  have hspare : Topology.spare ∈ p.ids := (Program.ids_iff_of_ofTopology hp).2
    (show Topology.spare ∈ Topology.copies.ids by decide)
  obtain ⟨j, hj, hjid⟩ := hcanonical.exists_instance_of_mem hspare
  obtain ⟨i, hi, hiid, hcells⟩ :=
    hcanonical.chain j hj _ (hjid ▸ Topology.reorders_copies)
  have hsource := Topology.layoutOf_of_resultOf Topology.resultOf_source
  have hback := Topology.layoutOf_of_resultOf Topology.resultOf_spare
  rw [← hiid, hcanonical.layoutOf_eq hc hi] at hsource
  rw [← hjid, hcanonical.layoutOf_eq hc hj] at hback
  exact ⟨x, values, p, hx, Topology.usual_interrupted, hr, hp, hcanonical, i, hi, j, hj, hiid,
    hjid, hcells (Option.some.inj (hsource.trans hback.symm))⟩

end InferenceGraph
