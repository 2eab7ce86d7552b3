import InferenceGraph.Proofs.Sequence
import InferenceGraph.Registry

set_option autoImplicit false

namespace InferenceGraph

section Reversed

variable {α β κ : Type} [BEq κ] [LawfulBEq κ] {key : α → κ} {value : α → β}

theorem lookup_reverse_map_eq_some_iff {xs : List α} (hn : (xs.map key).Nodup) {k : κ} {v : β} :
    ((xs.map fun x => (key x, value x)).reverse.lookup k) = some v ↔
      ∃ x ∈ xs, key x = k ∧ value x = v := by
  rw [lookup_eq_some_iff_mem]
  · simp
  · simpa [Function.comp_def] using hn

end Reversed

namespace Registry

variable {ε : Type} [Extension ε]

/-- The list of types and the two maps agree, and the types are apart. -/
structure Consistent (r : Registry ε) : Prop where
  tags : r.types.map PrimitiveType.tag = (List.range r.size).map TypeTag.ofPlace
  byName : r.tagsByName = (r.types.map fun type => (type.name, type.tag)).reverse
  byKind : r.tagsByKind = (r.types.map fun type => (type.kind, type.tag)).reverse
  nodup_names : (r.types.map PrimitiveType.name).Nodup
  size_lt : r.size < UInt32.size

theorem toNat_ofPlace {place : Nat} (h : place + 1 < UInt32.size) :
    (TypeTag.ofPlace place).number.toNat = place + 1 := by
  rw [TypeTag.ofPlace, UInt32.toNat_ofNat']
  exact Nat.mod_eq_of_lt h

theorem consistent_empty : (empty : Registry ε).Consistent := by
  constructor <;> simp [empty, size]

@[simp] theorem size_push (r : Registry ε) (kind : Kind ε) : (r.push kind).size = r.size + 1 := by
  simp [push, size]

theorem Consistent.push {r : Registry ε} (h : r.Consistent) {kind : Kind ε}
    (hn : ∀ type ∈ r.types, type.name ≠ kind.name) (hl : r.size + 1 < UInt32.size) :
    (r.push kind).Consistent := by
  constructor
  case tags =>
    rw [size_push, List.range_succ, List.map_append, ← h.tags]
    simp [Registry.push]
  case byName => simp [Registry.push, h.byName, PrimitiveType.name]
  case byKind => simp [Registry.push, h.byKind]
  case nodup_names =>
    have ha := h.nodup_names
    simp only [Registry.push, List.map_append, List.nodup_append]
    simpa [ha, PrimitiveType.name] using hn
  case size_lt => simpa using hl

namespace Consistent

variable {r : Registry ε} (h : r.Consistent) {type type' : PrimitiveType ε} {tag : TypeTag}
include h

theorem nodup_kinds : r.kinds.Nodup := by
  have hn : (r.kinds.map Kind.name).Nodup := by
    rw [kinds, List.map_map]
    exact h.nodup_names
  exact List.Nodup.of_map Kind.name hn

theorem tag_eq {place : Nat} (hp : r.types[place]? = some type) : type.tag = .ofPlace place := by
  have hi := congrArg (·[place]?) h.tags
  have hlt : place < r.size := (List.getElem?_eq_some_iff.1 hp).1
  simpa [hp, hlt] using hi

theorem toNat_tag {place : Nat} (hp : r.types[place]? = some type) :
    type.tag.number.toNat = place + 1 := by
  have hlt : place < r.size := (List.getElem?_eq_some_iff.1 hp).1
  have hl := h.size_lt
  rw [h.tag_eq hp, toNat_ofPlace (by omega)]

theorem tag_injective (hm : type ∈ r.types) (hm' : type' ∈ r.types) (ht : type.tag = type'.tag) :
    type = type' := by
  obtain ⟨place, hp⟩ := List.mem_iff_getElem?.1 hm
  obtain ⟨place', hp'⟩ := List.mem_iff_getElem?.1 hm'
  have hn := h.toNat_tag hp
  rw [ht, h.toNat_tag hp'] at hn
  obtain rfl : place' = place := by omega
  exact Option.some.inj (hp.symm.trans hp')

theorem typeOfTag_eq_ok_iff : r.typeOfTag tag = .ok type ↔ type ∈ r.types ∧ type.tag = tag := by
  constructor
  · intro ht
    unfold typeOfTag at ht
    split at ht
    · cases ht
    · next place hplace =>
      split at ht
      · next hp =>
        cases ht
        have hn : type.tag.number = tag.number := by
          rw [← UInt32.toNat_inj, h.toNat_tag hp, hplace]
        exact ⟨List.mem_of_getElem? hp, congrArg TypeTag.mk hn⟩
      · cases ht
  · rintro ⟨hm, rfl⟩
    obtain ⟨place, hp⟩ := List.mem_iff_getElem?.1 hm
    simp only [typeOfTag, h.toNat_tag hp, hp]

theorem lookup_tagsByName {name : String} :
    r.tagsByName.lookup name = some tag ↔ ∃ type ∈ r.types, type.name = name ∧ type.tag = tag := by
  rw [h.byName]
  exact lookup_reverse_map_eq_some_iff h.nodup_names

theorem tagOfName_eq_ok_iff {name : String} :
    r.tagOfName name = .ok tag ↔ ∃ type ∈ r.types, type.name = name ∧ type.tag = tag := by
  rw [← h.lookup_tagsByName, tagOfName]
  cases r.tagsByName.lookup name <;> simp

variable [DecidableEq ε] {kind : Kind ε}

theorem lookup_tagsByKind :
    r.tagsByKind.lookup kind = some tag ↔ ∃ type ∈ r.types, type.kind = kind ∧ type.tag = tag := by
  rw [h.byKind]
  exact lookup_reverse_map_eq_some_iff h.nodup_kinds

theorem tagOfKind_eq_ok_iff :
    r.tagOfKind kind = .ok tag ↔ ∃ type ∈ r.types, type.kind = kind ∧ type.tag = tag := by
  rw [← h.lookup_tagsByKind, tagOfKind]
  cases r.tagsByKind.lookup kind <;> simp

theorem typeOfPrimitive_eq_ok_iff {p : Primitive ε} :
    r.typeOfPrimitive p = .ok type ↔ type ∈ r.types ∧ type.kind = p.kind := by
  simp only [typeOfPrimitive, bind_eq_ok_iff, h.tagOfKind_eq_ok_iff, h.typeOfTag_eq_ok_iff]
  constructor
  · rintro ⟨tag, ⟨type', hm', hk', rfl⟩, hm, ht⟩
    have he : type = type' := h.tag_injective hm hm' ht
    exact ⟨hm, he ▸ hk'⟩
  · rintro ⟨hm, hk⟩
    exact ⟨type.tag, ⟨type, hm, hk, rfl⟩, hm, rfl⟩

/-- A kind that is taken is taken by its name: the second map is not needed. -/
theorem taken?_eq_lookup : r.taken? kind = r.tagsByName.lookup kind.name := by
  unfold taken?
  cases hn : r.tagsByName.lookup kind.name with
  | some tag => rfl
  | none =>
    refine Option.eq_none_iff_forall_ne_some.2 fun tag hk => ?_
    obtain ⟨type, hm, rfl, ht⟩ := h.lookup_tagsByKind.1 hk
    cases hn.symm.trans (h.lookup_tagsByName.2 ⟨type, hm, rfl, ht⟩)

theorem taken?_eq_some_iff :
    r.taken? kind = some tag ↔ ∃ type ∈ r.types, type.name = kind.name ∧ type.tag = tag := by
  rw [h.taken?_eq_lookup, h.lookup_tagsByName]

theorem taken?_eq_none_iff :
    r.taken? kind = none ↔ ∀ type ∈ r.types, type.name ≠ kind.name := by
  simp only [Option.eq_none_iff_forall_ne_some, ne_eq, h.taken?_eq_some_iff]
  grind

end Consistent

section Register

variable [DecidableEq ε] {r r' : Registry ε} {kind : Kind ε}

theorem register_eq_ok_iff {tag : TypeTag} : r.register kind = .ok (tag, r') ↔
    r.taken? kind = none ∧ r.size + 1 < UInt32.size ∧ tag = .ofPlace r.size ∧ r' = r.push kind := by
  unfold register
  cases r.taken? kind with
  | some tag' => simp
  | none =>
    by_cases hl : r.size + 1 < UInt32.size <;> simp [hl, Outcome.breach, eq_comm]

inductive Reachable : Registry ε → Prop
  | empty : Reachable .empty
  | register {r r' : Registry ε} {kind : Kind ε} {tag : TypeTag} (h : Reachable r)
      (hr : r.register kind = .ok (tag, r')) : Reachable r'

theorem Consistent.register (h : r.Consistent) {tag : TypeTag}
    (hr : r.register kind = .ok (tag, r')) : r'.Consistent := by
  obtain ⟨hn, hl, -, rfl⟩ := register_eq_ok_iff.1 hr
  exact h.push (h.taken?_eq_none_iff.1 hn) hl

theorem Reachable.consistent (h : r.Reachable) : r.Consistent := by
  induction h with
  | empty => exact consistent_empty
  | register _ hr ih => exact ih.register hr

theorem Reachable.exists_typeOfPrimitive (h : r.Reachable) {p : Primitive ε}
    (hp : p.kind ∈ r.kinds) : ∃ type, r.typeOfPrimitive p = .ok type ∧ type.kind = p.kind := by
  obtain ⟨type, hm, hk⟩ := List.mem_map.1 hp
  exact ⟨type, h.consistent.typeOfPrimitive_eq_ok_iff.2 ⟨hm, hk⟩, hk⟩

theorem Reachable.registerAll (h : r.Reachable) {kinds : List (Kind ε)}
    (hr : r.registerAll kinds = .ok r') : r'.Reachable := by
  induction kinds generalizing r with
  | nil =>
    cases hr
    exact h
  | cons kind kinds ih =>
    obtain ⟨⟨tag, r₁⟩, hk, hr⟩ := Outcome.bind_eq_ok_iff.1 hr
    exact ih (h.register hk) hr

theorem reachable_standard : (standard : Registry ε).Reachable :=
  Reachable.empty.registerAll registerAll_builtins

end Register

end Registry

end InferenceGraph
