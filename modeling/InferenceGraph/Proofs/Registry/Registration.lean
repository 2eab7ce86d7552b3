import InferenceGraph.Proofs.Descriptor
import InferenceGraph.Proofs.Registry

set_option autoImplicit false

namespace InferenceGraph.Registry

variable {ε : Type} [Extension ε] [DecidableEq ε] {r r' : Registry ε} {kind : Kind ε}

/-- What a call leaves behind: the registry as it was, if the kind is refused. -/
def registering (r : Registry ε) (kind : Kind ε) : Registry ε :=
  match r.register kind with
  | .ok (_, r') => r'
  | .error _ => r

def after (r : Registry ε) (kinds : List (Kind ε)) : Registry ε := kinds.foldl registering r

theorem Reachable.registering (h : r.Reachable) (kind : Kind ε) :
    (r.registering kind).Reachable := by
  unfold Registry.registering
  split
  · next hr => exact h.register hr
  · exact h

theorem Reachable.after (h : r.Reachable) (kinds : List (Kind ε)) : (r.after kinds).Reachable := by
  induction kinds generalizing r with
  | nil => exact h
  | cons kind kinds ih => exact ih (h.registering kind)

/-- All ways to ask a registry for a type lead to the same types, which are numbered from one. -/
structure Agrees (r : Registry ε) : Prop where
  tags : r.types.map (fun type => type.tag.number.toNat) = List.range' 1 r.size
  nodup_names : (r.types.map PrimitiveType.name).Nodup
  nodup_kinds : r.kinds.Nodup
  exists_typeOfTag_iff : ∀ tag, (∃ type, r.typeOfTag tag = .ok type) ↔
    1 ≤ tag.number.toNat ∧ tag.number.toNat ≤ r.size
  typeOfTag_iff : ∀ tag type, r.typeOfTag tag = .ok type ↔ type ∈ r.types ∧ type.tag = tag
  tagOfName_iff : ∀ name tag, r.tagOfName name = .ok tag ↔
    ∃ type ∈ r.types, type.name = name ∧ type.tag = tag
  tagOfKind_iff : ∀ kind tag, r.tagOfKind kind = .ok tag ↔
    ∃ type ∈ r.types, type.kind = kind ∧ type.tag = tag

omit [DecidableEq ε] in
theorem Consistent.map_toNat_tag (h : r.Consistent) :
    r.types.map (fun type => type.tag.number.toNat) = List.range' 1 r.size := by
  have hl := h.size_lt
  have hplace : ∀ place ∈ List.range r.size, (TypeTag.ofPlace place).number.toNat = 1 + place := by
    intro place hp
    rw [List.mem_range] at hp
    rw [toNat_ofPlace (by omega), Nat.add_comm]
  calc r.types.map (fun type => type.tag.number.toNat)
      = (r.types.map PrimitiveType.tag).map fun tag => tag.number.toNat := by simp
    _ = (List.range r.size).map fun place => (TypeTag.ofPlace place).number.toNat := by
        simp [h.tags]
    _ = List.range' 1 r.size := by
        rw [List.range'_eq_map_range]
        exact List.map_congr_left hplace

omit [DecidableEq ε] in
theorem Consistent.exists_typeOfTag_iff (h : r.Consistent) {tag : TypeTag} :
    (∃ type, r.typeOfTag tag = .ok type) ↔ 1 ≤ tag.number.toNat ∧ tag.number.toNat ≤ r.size := by
  have hm : tag.number.toNat ∈ List.range' 1 r.size ↔
      ∃ type ∈ r.types, type.tag.number.toNat = tag.number.toNat := by
    rw [← h.map_toNat_tag, List.mem_map]
  have ht : ∀ type : PrimitiveType ε, type.tag.number.toNat = tag.number.toNat ↔ type.tag = tag :=
    fun type => by rw [UInt32.toNat_inj, TypeTag.mk.injEq]
  simp only [h.typeOfTag_eq_ok_iff, ← ht, ← hm, List.mem_range'_1]
  omega

theorem Consistent.agrees (h : r.Consistent) : r.Agrees where
  tags := h.map_toNat_tag
  nodup_names := h.nodup_names
  nodup_kinds := h.nodup_kinds
  exists_typeOfTag_iff _ := h.exists_typeOfTag_iff
  typeOfTag_iff _ _ := h.typeOfTag_eq_ok_iff
  tagOfName_iff _ _ := h.tagOfName_eq_ok_iff
  tagOfKind_iff _ _ := h.tagOfKind_eq_ok_iff

structure Extends (r r' : Registry ε) : Prop where
  typeOfTag : ∀ tag type, r.typeOfTag tag = .ok type → r'.typeOfTag tag = .ok type
  tagOfName : ∀ name tag, r.tagOfName name = .ok tag → r'.tagOfName name = .ok tag
  tagOfKind : ∀ kind tag, r.tagOfKind kind = .ok tag → r'.tagOfKind kind = .ok tag
  typeOfPrimitive : ∀ p type, r.typeOfPrimitive p = .ok type → r'.typeOfPrimitive p = .ok type
  exportPrimitive : ∀ p d, r.exportPrimitive p = .ok d → r'.exportPrimitive p = .ok d

theorem Consistent.extends_of_subset (h : r.Consistent) (h' : r'.Consistent)
    (hs : r.types ⊆ r'.types) : r.Extends r' := by
  have hp : ∀ p type, r.typeOfPrimitive p = .ok type → r'.typeOfPrimitive p = .ok type := by
    intro p type
    rw [h.typeOfPrimitive_eq_ok_iff, h'.typeOfPrimitive_eq_ok_iff]
    exact And.imp_left fun hm => hs hm
  constructor
  case typeOfPrimitive => exact hp
  case typeOfTag =>
    intro tag type
    rw [h.typeOfTag_eq_ok_iff, h'.typeOfTag_eq_ok_iff]
    exact And.imp_left fun hm => hs hm
  case tagOfName =>
    intro name tag
    rw [h.tagOfName_eq_ok_iff, h'.tagOfName_eq_ok_iff]
    exact fun ⟨type, hm, ht⟩ => ⟨type, hs hm, ht⟩
  case tagOfKind =>
    intro kind tag
    rw [h.tagOfKind_eq_ok_iff, h'.tagOfKind_eq_ok_iff]
    exact fun ⟨type, hm, ht⟩ => ⟨type, hs hm, ht⟩
  case exportPrimitive =>
    intro p d he
    obtain ⟨type, ht, hw⟩ := bind_eq_ok_iff.1 he
    rw [Outcome.ofExcept_eq_ok_iff] at ht
    rw [Registry.exportPrimitive, hp p type ht]
    exact hw

/-- The kind, or another one of its name, is registered. -/
def Taken (r : Registry ε) (kind : Kind ε) : Prop :=
  kind ∈ r.kinds ∨ kind.name ∈ r.types.map PrimitiveType.name

omit [DecidableEq ε] in
theorem taken_iff : r.Taken kind ↔ ∃ type ∈ r.types, type.name = kind.name := by
  rw [Taken, kinds, List.mem_map, List.mem_map]
  refine or_iff_right_of_imp ?_
  rintro ⟨type, hm, rfl⟩
  exact ⟨type, hm, rfl⟩

structure Registers (r : Registry ε) (kind : Kind ε) : Prop where
  duplicate_iff : (∃ name tag, r.register kind = .fail (.duplicateType name tag)) ↔ r.Taken kind
  duplicate : ∀ type ∈ r.types, type.name = kind.name →
    r.register kind = .fail (.duplicateType kind.name type.tag)
  success : ¬ r.Taken kind → r.size + 1 < UInt32.size → ∃ tag r',
    r.register kind = .ok (tag, r') ∧ tag.number.toNat = r.size + 1 ∧
      r'.types = r.types ++ [⟨kind, tag⟩] ∧ r.Extends r'
  full : ¬ r.Taken kind → UInt32.size ≤ r.size + 1 → r.register kind = .breach .tooManyKinds
  unchanged : r.Taken kind → r.registering kind = r

theorem Consistent.registers (h : r.Consistent) (kind : Kind ε) : r.Registers kind := by
  have hnone : ¬ r.Taken kind → r.taken? kind = none := by
    intro ht
    rw [h.taken?_eq_none_iff]
    exact fun type hm hn => ht (taken_iff.2 ⟨type, hm, hn⟩)
  have hdup : ∀ type ∈ r.types, type.name = kind.name →
      r.register kind = .fail (.duplicateType kind.name type.tag) := by
    intro type hm hn
    simp only [Registry.register, h.taken?_eq_some_iff.2 ⟨type, hm, hn, rfl⟩]
  constructor
  case duplicate => exact hdup
  case duplicate_iff =>
    constructor
    · rintro ⟨name, tag, hr⟩
      by_contra ht
      rw [Registry.register, hnone ht] at hr
      by_cases hl : r.size + 1 < UInt32.size <;> simp [hl, Outcome.fail, Outcome.breach] at hr
    · intro ht
      obtain ⟨type, hm, hn⟩ := taken_iff.1 ht
      exact ⟨_, _, hdup type hm hn⟩
  case success =>
    intro ht hl
    have hr : r.register kind = .ok (.ofPlace r.size, r.push kind) :=
      register_eq_ok_iff.2 ⟨hnone ht, hl, rfl, rfl⟩
    refine ⟨_, _, hr, toNat_ofPlace hl, rfl, h.extends_of_subset (h.register hr) ?_⟩
    exact List.subset_append_left ..
  case full =>
    intro ht hl
    simp only [Registry.register, hnone ht, Nat.not_lt.2 hl, if_false]
  case unchanged =>
    intro ht
    obtain ⟨type, hm, hn⟩ := taken_iff.1 ht
    rw [registering, hdup type hm hn]
    rfl

/-- Whether the type of a primitive is found depends on its own kind alone. -/
structure Finds (r : Registry ε) (p : Primitive ε) : Prop where
  typeOfPrimitive_iff : (∃ type, r.typeOfPrimitive p = .ok type) ↔ p.kind ∈ r.kinds
  exportPrimitive_iff : (∃ d, r.exportPrimitive p = .ok d) ↔ p.kind ∈ r.kinds
  kind_eq : ∀ type, r.typeOfPrimitive p = .ok type → type.kind = p.kind
  unknown : p.kind ∉ r.kinds → r.typeOfPrimitive p = .error (.unknownTypeName p.kindName) ∧
    r.exportPrimitive p = .fail (.unknownTypeName p.kindName)

theorem Consistent.exists_typeOfPrimitive_iff (h : r.Consistent) {p : Primitive ε} :
    (∃ type, r.typeOfPrimitive p = .ok type) ↔ p.kind ∈ r.kinds := by
  simp only [h.typeOfPrimitive_eq_ok_iff, kinds, List.mem_map]

theorem Consistent.typeOfPrimitive_unknown (h : r.Consistent) {p : Primitive ε}
    (hk : p.kind ∉ r.kinds) : r.typeOfPrimitive p = .error (.unknownTypeName p.kindName) := by
  have hl : r.tagsByKind.lookup p.kind = none := by
    refine Option.eq_none_iff_forall_ne_some.2 fun tag ht => hk ?_
    obtain ⟨type, hm, hkind, -⟩ := h.lookup_tagsByKind.1 ht
    exact List.mem_map.2 ⟨type, hm, hkind⟩
  simp only [typeOfPrimitive, tagOfKind, hl, error_bind, Primitive.kindName]

theorem Consistent.finds (h : r.Consistent) (p : Primitive ε) : r.Finds p where
  typeOfPrimitive_iff := h.exists_typeOfPrimitive_iff
  kind_eq type ht := (h.typeOfPrimitive_eq_ok_iff.1 ht).2
  unknown hk := by
    have hu := h.typeOfPrimitive_unknown hk
    exact ⟨hu, by rw [exportPrimitive, hu]; rfl⟩
  exportPrimitive_iff := by
    rw [← h.exists_typeOfPrimitive_iff]
    constructor
    · rintro ⟨d, hd⟩
      obtain ⟨type, ht, -⟩ := bind_eq_ok_iff.1 hd
      exact ⟨type, Outcome.ofExcept_eq_ok_iff.1 ht⟩
    · rintro ⟨type, ht⟩
      obtain ⟨-, hk⟩ := h.typeOfPrimitive_eq_ok_iff.1 ht
      have he : r.exportPrimitive p = p.kind.writePrimitive p type.tag := by
        rw [exportPrimitive, ht, ← hk]
        rfl
      exact ⟨_, he.trans (Kind.writePrimitive_kind p type.tag)⟩

end InferenceGraph.Registry
