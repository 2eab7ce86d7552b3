import InferenceGraph.Proofs.Descriptor
import InferenceGraph.Proofs.Registry

set_option autoImplicit false

namespace InferenceGraph.Registry

variable {ε : Type} [Extension ε] [DecidableEq ε] {r : Registry ε} {d : Descriptor ε}
  {p : Primitive ε} {type : PrimitiveType ε}

theorem Reachable.importPrimitive_eq_ok_iff (h : r.Reachable) (hb : p.kind.isBuiltin = true) :
    r.importPrimitive (some d) = .ok p ↔ r.exportPrimitive p = .ok d.canonical := by
  have hc := h.consistent
  simp only [importPrimitive, exportPrimitive, bind_eq_ok_iff, Outcome.ofExcept_eq_ok_iff,
    hc.typeOfTag_eq_ok_iff, hc.typeOfPrimitive_eq_ok_iff]
  constructor
  · rintro ⟨type, ⟨hm, htag⟩, hr⟩
    have hk := Kind.kind_of_readPrimitive hr
    refine ⟨type, ⟨hm, hk.symm⟩, ?_⟩
    rw [← hk] at hr ⊢
    rw [htag]
    exact (Kind.readPrimitive_eq_ok_iff hb).1 hr
  · rintro ⟨type, ⟨hm, hk⟩, hw⟩
    rw [hk] at hw
    have htag : type.tag = d.tag := by
      rw [Kind.writePrimitive_kind] at hw
      exact congrArg Descriptor.tag (Except.ok.inj hw)
    refine ⟨type, ⟨hm, htag⟩, ?_⟩
    rw [htag] at hw
    rw [hk]
    exact (Kind.readPrimitive_eq_ok_iff hb).2 hw

/-- Import undoes export, for every primitive whose builtin kind is registered. -/
theorem importPrimitive_exportPrimitive (hr : r.Reachable) (hk : p.kind ∈ r.kinds)
    (hb : p.kind.isBuiltin = true) :
    ∃ d, r.exportPrimitive p = .ok d ∧ r.importPrimitive (some d) = .ok p := by
  obtain ⟨type, ht, htk⟩ := hr.exists_typeOfPrimitive hk
  have he : r.exportPrimitive p = p.kind.writePrimitive p type.tag := by
    rw [exportPrimitive, ht, ← htk]
    rfl
  have hw := Kind.writePrimitive_kind p type.tag
  refine ⟨_, he.trans hw, (hr.importPrimitive_eq_ok_iff hb).2 ?_⟩
  rw [Kind.canonical_of_writePrimitive hb hw, he, hw]

/-- Export undoes import up to what a descriptor does not say. -/
theorem exportPrimitive_importPrimitive (hr : r.Reachable) (ht : r.typeOfTag d.tag = .ok type)
    (hb : type.kind.isBuiltin = true) (h : r.importPrimitive (some d) = .ok p) :
    r.exportPrimitive p = .ok d.canonical ∧ r.importPrimitive (some d.canonical) = .ok p := by
  have hk : p.kind = type.kind := by
    obtain ⟨type', ht', hread⟩ := bind_eq_ok_iff.1 h
    obtain rfl := Except.ok.inj (ht.symm.trans (Outcome.ofExcept_eq_ok_iff.1 ht'))
    exact Kind.kind_of_readPrimitive hread
  have he := (hr.importPrimitive_eq_ok_iff (hk ▸ hb)).1 h
  refine ⟨he, (hr.importPrimitive_eq_ok_iff (hk ▸ hb)).2 ?_⟩
  rw [Descriptor.canonical_canonical, he]

def twice : Primitive Empty where
  id := ⟨"b", by decide, by decide⟩
  inputs := [⟨"a", by decide, by decide⟩]
  padding := .symmetric ⟨0, 0, 1, 1⟩ (0 / 0)
  kind := .eltwise
  params := Eltwise.mk ⟨"a", by decide, by decide⟩ .max true (-0)

theorem importPrimitive_exportPrimitive_twice :
    ∃ d, standard.exportPrimitive twice = .ok d ∧ standard.importPrimitive (some d) = .ok twice :=
  importPrimitive_exportPrimitive reachable_standard (by decide) rfl

/-- The same primitive with bytes, an entry and a truth value that do not count. -/
def looseTwice : Descriptor Empty where
  tag := ⟨3⟩
  id := some [98, 0, 255]
  inputs := some [some [97, 0], none]
  inputSize := 1
  padding := .symmetric ⟨0, 0, 1, 1⟩ (0 / 0)
  fields := .eltwise ⟨some [97, 0, 98], 2, 7, -0⟩

theorem exportPrimitive_importPrimitive_looseTwice :
    standard.exportPrimitive twice = .ok looseTwice.canonical ∧
      standard.importPrimitive (some looseTwice.canonical) = .ok twice := by
  have h : standard.importPrimitive (some looseTwice) = .ok twice := by
    rw [reachable_standard.importPrimitive_eq_ok_iff rfl]
    rfl
  have ht : (standard : Registry Empty).typeOfTag looseTwice.tag = .ok ⟨.eltwise, ⟨3⟩⟩ := rfl
  exact exportPrimitive_importPrimitive reachable_standard ht rfl h

end InferenceGraph.Registry
