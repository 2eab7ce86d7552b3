import InferenceGraph.Proofs.Program.Acceptance
import InferenceGraph.Proofs.Topology.Meaning

set_option autoImplicit false

namespace InferenceGraph.Topology

variable {ε : Type} [Extension ε] {t t' : Topology ε} {o : CompileOptions} {id : PrimitiveId}
variable (h : t.primitives.Perm t'.primitives)
include h

theorem mem_ids_iff_of_perm : id ∈ t.ids ↔ id ∈ t'.ids := (h.map Primitive.id).mem_iff

theorem get?_of_perm (id : PrimitiveId) : t'.get? id = t.get? id := by
  refine Option.ext fun p => ?_
  rw [get?_eq_some_iff, get?_eq_some_iff, h.mem_iff]

theorem dependsOn_of_perm : t'.DependsOn = t.DependsOn := by
  funext a b
  simp only [DependsOn, h.mem_iff]

theorem kept_iff_of_perm : t.Kept o id ↔ t'.Kept o id := by
  simp only [Kept, mem_ids_iff_of_perm h, dependsOn_of_perm h]

theorem exposed_iff_of_perm : t.Exposed o id ↔ t'.Exposed o id := by
  simp only [Exposed, mem_ids_iff_of_perm h, dependsOn_of_perm h]

theorem Builtin.of_perm (hb : t.Builtin) : t'.Builtin := fun p hp => hb p (h.mem_iff.2 hp)

theorem Acyclic.of_perm (ha : t.Acyclic) : t'.Acyclic := by
  rw [Acyclic, dependsOn_of_perm h]
  exact ha

/-- Only what a primitive leads to matters for its value, and that is the same. -/
theorem fold_of_perm {α : Type} (f : Primitive ε → List α → Option α) (ha : t.Acyclic)
    (id : PrimitiveId) : t'.fold f id = t.fold f id :=
  foldIn_congr ha (fun b _ => get?_of_perm h b) fun _ _ => rfl

theorem layoutOf_of_perm (ha : t.Acyclic) (id : PrimitiveId) : t'.layoutOf id = t.layoutOf id :=
  fold_of_perm h _ ha id

theorem resultOf_of_perm (ha : t.Acyclic) (data : InputData) (id : PrimitiveId) :
    t'.resultOf data id = t.resultOf data id :=
  fold_of_perm h _ ha id

theorem Acceptable.of_perm (ha : t.Acceptable o) : t'.Acceptable o where
  valid p hp := ha.valid p (h.mem_iff.2 hp)
  closed p hp d hd := (mem_ids_iff_of_perm h).1 (ha.closed p (h.mem_iff.2 hp) d hd)
  acyclic := ha.acyclic.of_perm h
  requestable targets ht id hid := (mem_ids_iff_of_perm h).1 (ha.requestable targets ht id hid)
  layouts id hk := by
    rw [layoutOf_of_perm h ha.acyclic]
    exact ha.layouts id ((kept_iff_of_perm h).2 hk)

end InferenceGraph.Topology
