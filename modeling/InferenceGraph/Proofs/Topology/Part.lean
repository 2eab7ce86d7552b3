import InferenceGraph.Proofs.Program.Layouts

set_option autoImplicit false

namespace InferenceGraph.Topology

variable {ε : Type} [Extension ε]

structure PartOf (part t : Topology ε) : Prop where
  subset : part.primitives ⊆ t.primitives
  closed : part.Closed

namespace PartOf

variable {part t : Topology ε} (h : part.PartOf t) {a b id : PrimitiveId}
include h

theorem builtin (hb : t.Builtin) : part.Builtin := fun p hp => hb p (h.subset hp)

theorem dependsOn (hd : part.DependsOn a b) : t.DependsOn a b := by
  obtain ⟨p, hp, ha, hb⟩ := hd
  exact ⟨p, h.subset hp, ha, hb⟩

theorem acyclic (ha : t.Acyclic) : part.Acyclic :=
  fun _ hid => ha _ (Relation.TransGen.mono (fun _ _ => h.dependsOn) _ _ hid)

theorem dependsOn_of_mem (ha : a ∈ part.ids) (hd : t.DependsOn a b) : part.DependsOn a b := by
  obtain ⟨p, hp, rfl, hb⟩ := hd
  obtain ⟨q, hq, hid⟩ := List.mem_map.1 ha
  exact ⟨p, eq_of_id_eq (h.subset hq) hp hid ▸ hq, rfl, hb⟩

theorem reflTransGen_of_mem (ha : a ∈ part.ids) (hw : Relation.ReflTransGen t.DependsOn a b) :
    b ∈ part.ids ∧ Relation.ReflTransGen part.DependsOn a b := by
  induction hw with
  | refl => exact ⟨ha, .refl⟩
  | tail _ hd ih =>
    obtain ⟨hb, hw⟩ := ih
    have hpart := h.dependsOn_of_mem hb hd
    refine ⟨?_, hw.tail hpart⟩
    obtain ⟨p, hp, -, hc⟩ := hpart
    exact h.closed p hp _ hc

theorem get?_eq (hid : id ∈ part.ids) : part.get? id = t.get? id := by
  obtain ⟨p, hp, rfl⟩ := List.mem_map.1 hid
  rw [(part.get?_eq_some_iff p.id p).2 ⟨hp, rfl⟩, (t.get?_eq_some_iff p.id p).2 ⟨h.subset hp, rfl⟩]

theorem layoutOf_eq (ha : t.Acyclic) (hid : id ∈ part.ids) : part.layoutOf id = t.layoutOf id :=
  foldIn_congr ha (fun _ hw => h.get?_eq (h.reflTransGen_of_mem hid hw).1) fun _ _ => rfl

end PartOf

end InferenceGraph.Topology
