import InferenceGraph.Proofs.Host.Kernel
import InferenceGraph.Proofs.Network.Binding

set_option autoImplicit false

namespace InferenceGraph

def InputData.set (data : InputData) (id : PrimitiveId) (values : List Float32) : InputData :=
  fun other => if other = id then some values else data other

variable {ε : Type} [Extension ε] {t : Topology ε} {p : Program ε} {data : InputData}

namespace Network

variable {n : Network ε} {k : Nat} {m : Node ε} {i : Instance}

theorem Sound.exists_instance (h : n.Sound p data) (hk : k < p.size) :
    ∃ i, n.instances[k]? = some i := ⟨_, List.getElem?_eq_getElem (h.length ▸ hk)⟩

theorem Sound.standsFor (h : n.Sound p data) (hi : n.instances[k]? = some i)
    (hm : p.nodes[k]? = some m) : i.StandsFor k m := by
  obtain ⟨m', hm', hs⟩ := h.bound.node k i hi
  rw [hm] at hm'
  cases hm'
  exact hs

theorem Bound.set {instances : List Instance} {s : Store} (h : Bound p instances s)
    {b : HostBuffer} (hb : b.Proper) (hi : instances[k]? = some i)
    (hl : b.layout = i.output.layout) :
    Bound p (instances.set k { i with output := (s.insert (.host b)).1, hasData := true })
      (s.insert (.host b)).2 := by
  have hins := h.insert (.host b)
  have hlt := (List.getElem?_eq_some_iff.1 hi).1
  refine ⟨fun l j hj => ?_, fun j hj => ?_, ?_⟩
  · by_cases he : k = l
    · subst he
      rw [List.getElem?_set_self hlt] at hj
      obtain rfl := Option.some.inj hj
      obtain ⟨m, hm, hs⟩ := h.node k i hi
      refine ⟨m, hm, ⟨hs.index, hs.id, hs.dependencies⟩, ?_, fun _ => rfl⟩
      rw [hs.layout, ← hl]
      exact congrArg some (Store.layout_insert s (.host b)).symm
    · rw [List.getElem?_set_ne he] at hj
      exact h.node l j hj
  · obtain ⟨l, hl⟩ := List.mem_iff_getElem?.1 hj
    by_cases he : k = l
    · subst he
      rw [List.getElem?_set_self hlt] at hl
      obtain rfl := Option.some.inj hl
      exact ⟨b, Store.hostBuffer?_insert s b, hb⟩
    · rw [List.getElem?_set_ne he] at hl
      exact hins.buffer j (List.mem_of_getElem? hl)
  · rw [List.map_set]
    exact h.apart.set (h.place_not_mem b)

def withBuffer (n : Network ε) (k : Nat) (i : Instance) (b : HostBuffer) : Network ε :=
  { n with
    instances :=
      n.instances.set k { i with output := (n.store.insert (.host b)).1, hasData := true }
    store := (n.store.insert (.host b)).2 }

theorem Sound.withBuffer (hc : p.Compiled t) (h : n.Sound p data) (hm : p.nodes[k]? = some m)
    (hi : n.instances[k]? = some i) {b : HostBuffer} (hb : b.Proper)
    (hl : b.layout = i.output.layout) {values : List Float32} (hv : b.read = .ok values) :
    (n.withBuffer k i b).Sound p (data.set m.id values) := by
  have hlt := (List.getElem?_eq_some_iff.1 hi).1
  refine ⟨h.program, (List.length_set).trans h.length, h.bound.set hb hi hl, ?_⟩
  intro l j m' hj hm' hk
  change (n.instances.set k _)[l]? = some j at hj
  by_cases he : k = l
  · subst he
    rw [List.getElem?_set_self hlt] at hj
    obtain rfl := Option.some.inj hj
    rw [hm] at hm'
    obtain rfl := Option.some.inj hm'
    refine ⟨by simp [InputData.set], fun values' hv' => ?_⟩
    obtain rfl : values = values' := by simpa [InputData.set] using hv'
    simp only [Network.withBuffer, Store.values?, Store.hostBuffer?_insert, Option.bind_some, hv]
    rfl
  · rw [List.getElem?_set_ne he] at hj
    have hne : m'.id ≠ m.id := by
      intro hid
      have hk' : p.ids[l]? = some m.id := Program.getElem?_ids_eq_some_iff.2 ⟨m', hm', hid⟩
      have hk : p.ids[k]? = some m.id := Program.getElem?_ids_eq_some_iff.2 ⟨m, hm, rfl⟩
      exact he (hc.linked.getElem?_injective hk hk')
    obtain ⟨hd, hv'⟩ := h.fed l j m' hj hm' hk
    rw [InputData.set, if_neg hne]
    refine ⟨hd, fun values' hv'' => ?_⟩
    have hold := hv' values' hv''
    obtain ⟨c, hcbuf, hread⟩ := Option.bind_eq_some_iff.1 hold
    rw [Network.withBuffer, Store.values?, Store.hostBuffer?_insert_of_some hcbuf,
      Option.bind_some, hread]

variable [DecidableEq ε]

theorem bindInput_eq (hc : p.Compiled t) (h : n.Sound p data) (hm : p.nodes[k]? = some m)
    (hi : n.instances[k]? = some i) {b : HostBuffer} (hl : b.layout = i.output.layout) :
    n.bindInput m.id (.fresh (.host b)) =
      if m.primitive.kind = .inputLayout then .ok (n.withBuffer k i b)
      else .fail (.notAnInput m.id) := by
  have hs := (h.standsFor hi hm).layout
  simp only [bindInput, h.program, hc.nodeIndex_of_node hm, Outcome.ofExcept, Program.node, hm,
    Outcome.get_some, ok_bind, hc.isKind_iff (List.mem_of_getElem? hm), Program.outputLayout, hs,
    Source.layout, Buffer.layout, hl, Layout.same_refl, if_true, instanceAt, hi, place, pure_eq_ok,
    withBuffer]

end Network

namespace HostNetwork

variable [DecidableEq ε] {x y : HostNetwork ε} {values : List Float32} {k : Nat} {m : Node ε}
variable {i : Instance}

theorem bindValues_eq (hc : p.Compiled t) (h : x.network.Sound p data)
    (hm : p.nodes[k]? = some m) (hi : x.network.instances[k]? = some i) :
    x.bindValues m.id values =
      if i.output.layout.type ≠ .float32 then .fail (.unsupportedType m.id i.output.layout.type)
      else if values.length ≠ i.output.layout.count then
        .breach (.inputValueCount m.id i.output.layout)
      else do
        let b ← HostBuffer.ofValues i.output.layout values
        let n ← x.network.bindInput m.id (.fresh (.host b))
        return { x with network := n } := by
  have hs := (h.standsFor hi hm).layout
  simp only [bindValues, h.program, hc.nodeIndex_of_node hm, Outcome.ofExcept, Program.node, hm,
    Outcome.get_some, ok_bind, Program.outputLayout, hs]

theorem bindValues_ok (hc : p.Compiled t) (h : x.network.Sound p data) {id : PrimitiveId}
    (hb : x.bindValues id values = .ok y) :
    y.network.Sound p (data.set id values) ∧ y.dispatcher = x.dispatcher := by
  obtain ⟨k, hk, -⟩ := bind_eq_ok_iff.1 hb
  rw [h.program, Outcome.ofExcept_eq_ok_iff] at hk
  obtain ⟨m, hm, rfl⟩ := hc.exists_node_of_nodeIndex hk
  obtain ⟨i, hi⟩ := h.exists_instance (List.getElem?_eq_some_iff.1 hm).1
  rw [bindValues_eq hc h hm hi] at hb
  split at hb
  · cases hb
  · split at hb
    · cases hb
    · obtain ⟨b, hbuf, hb⟩ := bind_eq_ok_iff.1 hb
      obtain ⟨n, hn, hb⟩ := bind_eq_ok_iff.1 hb
      obtain rfl := Except.ok.inj hb
      have hl : b.layout = i.output.layout := HostBuffer.layout_of_write hbuf
      rw [Network.bindInput_eq hc h hm hi hl] at hn
      split at hn
      · obtain rfl := Except.ok.inj hn
        have hproper := HostBuffer.proper_fresh i.output.layout
        exact ⟨h.withBuffer hc hm hi (hproper.write hbuf) hl (hproper.sized.read_of_write hbuf), rfl⟩
      · cases hn

theorem exists_bindValues (hc : p.Compiled t) (h : x.network.Sound p data)
    (hm : p.nodes[k]? = some m) (hi : x.network.instances[k]? = some i)
    (hk : m.primitive.kind = .inputLayout) (ht : i.output.layout.type = .float32)
    (hl : values.length = i.output.layout.count) : ∃ y, x.bindValues m.id values = .ok y := by
  obtain ⟨b, hb⟩ : ∃ b, HostBuffer.ofValues i.output.layout values = .ok b :=
    ⟨_, HostBuffer.write_eq_ok_iff.2 ⟨hl, ht, rfl⟩⟩
  have hlayout : b.layout = i.output.layout := HostBuffer.layout_of_write hb
  rw [bindValues_eq hc h hm hi, if_neg (by simp [ht]), if_neg (by simp [hl]), hb, ok_bind,
    Network.bindInput_eq hc h hm hi hlayout, if_pos hk]
  exact ⟨_, rfl⟩

theorem exists_bindValues_of_result (hc : p.Compiled t) (h : x.network.Sound p data)
    (hm : m ∈ p.nodes) (hk : m.primitive.kind = .inputLayout) {other : InputData} {placed : Placed}
    (hr : t.resultOf other m.id = some placed) : ∃ y, x.bindValues m.id placed.2 = .ok y := by
  obtain ⟨layout, hl, ht⟩ := hc.layout m hm
  obtain ⟨k, hm⟩ := List.mem_iff_getElem?.1 hm
  obtain ⟨i, hi⟩ := h.exists_instance (List.getElem?_eq_some_iff.1 hm).1
  have ho : placed.1 = i.output.layout := by
    rw [Topology.layoutOf_of_resultOf hr] at ht
    exact Option.some.inj (ht.trans (hl.symm.trans (h.standsFor hi hm).layout))
  obtain ⟨htype, hn⟩ := Topology.fits_of_resultOf hr
  exact exists_bindValues hc h hm hi hk (ho ▸ htype) (ho ▸ hn)

end HostNetwork

end InferenceGraph
