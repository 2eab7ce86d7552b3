import InferenceGraph.Proofs.Descriptor.Checks
import InferenceGraph.Proofs.Registry
import InferenceGraph.Session

set_option autoImplicit false

namespace InferenceGraph

open Check

variable {ε : Type} [Extension ε] {r : Registry ε} {d : Descriptor ε}

namespace Descriptor

/-- What the caller promises of a descriptor: it may be read as one of the kind of its tag. -/
structure Readable (r : Registry ε) (d : Descriptor ε) : Prop where
  inputs : ∀ texts, d.inputs = some texts → d.inputSize ≤ texts.length
  fields : ∀ type ∈ r.types, type.tag = d.tag → type.kind.Fits d.fields

/-- The tag is registered, the id and the inputs that count are ids, and the kind of the tag knows
its fields. -/
structure WellFormed (r : Registry ε) (d : Descriptor ε) : Prop where
  tag : ∃ type ∈ r.types, type.tag = d.tag
  id : d.id.IsId
  array : d.inputSize ≠ 0 → d.inputs ≠ none
  inputs : ∀ texts, d.inputs = some texts → ∀ text ∈ texts.take d.inputSize, text.IsId
  fields : ∀ type ∈ r.types, type.tag = d.tag → type.kind.Knows d.fields

end Descriptor

namespace Registry

def checks (r : Registry ε) : Option (Descriptor ε) → List Check
  | none => [⟨False, .invalidDescriptor .absent⟩]
  | some d => ⟨∃ type ∈ r.types, type.tag = d.tag, .unknownType d.tag⟩ ::
      match r.types.find? fun type => type.tag = d.tag with
      | some type => d.checks type.kind
      | none => []

theorem Consistent.find?_eq_some_iff (h : r.Consistent) {tag : TypeTag} {type : PrimitiveType ε} :
    r.types.find? (fun type => type.tag = tag) = some type ↔ type ∈ r.types ∧ type.tag = tag := by
  constructor
  · intro ht
    exact ⟨List.mem_of_find?_eq_some ht, by simpa using List.find?_some ht⟩
  · rintro ⟨hm, rfl⟩
    have hs : (r.types.find? fun type' => type'.tag = type.tag).isSome := by
      rw [List.find?_isSome]
      exact ⟨type, hm, by simp⟩
    obtain ⟨type', ht⟩ := Option.isSome_iff_exists.1 hs
    have he : type'.tag = type.tag := by simpa using List.find?_some ht
    rw [ht, h.tag_injective (List.mem_of_find?_eq_some ht) hm he]

theorem Consistent.typeOfTag_eq_error (h : r.Consistent) {tag : TypeTag}
    (hno : ¬∃ type ∈ r.types, type.tag = tag) : r.typeOfTag tag = .error (.unknownType tag) := by
  cases ht : r.typeOfTag tag with
  | ok type => exact absurd ⟨type, h.typeOfTag_eq_ok_iff.1 ht⟩ hno
  | error e =>
    unfold typeOfTag at ht
    repeat' split at ht
    all_goals cases ht
    all_goals rfl

theorem Consistent.wellFormed_iff (h : r.Consistent) (hd : d.Readable r) :
    d.WellFormed r ↔ AllHold (r.checks (some d)) := by
  rw [checks, allHold_cons]
  constructor
  · rintro ⟨⟨type, hm, ht⟩, hid, ha, hi, hf⟩
    refine ⟨⟨type, hm, ht⟩, ?_⟩
    rw [h.find?_eq_some_iff.2 ⟨hm, ht⟩]
    simp only [Descriptor.checks, allHold_append]
    exact ⟨(ForeignText.isId_iff _).1 hid, allHold_arrayChecks.2 ⟨ha, hi⟩,
      (Kind.knows_iff (hd.fields type hm ht)).1 (hf type hm ht)⟩
  · rintro ⟨⟨type, hm, ht⟩, hc⟩
    rw [h.find?_eq_some_iff.2 ⟨hm, ht⟩] at hc
    simp only [Descriptor.checks, allHold_append] at hc
    obtain ⟨hid, hi, hf⟩ := hc
    obtain ⟨ha, hi⟩ := allHold_arrayChecks.1 hi
    refine ⟨⟨type, hm, ht⟩, (ForeignText.isId_iff _).2 hid, ha, hi, fun type' hm' ht' => ?_⟩
    obtain rfl := h.tag_injective hm hm' (ht.trans ht'.symm)
    exact (Kind.knows_iff (hd.fields type hm ht)).2 hf

theorem Consistent.follows_importPrimitive (h : r.Consistent) {d? : Option (Descriptor ε)}
    (hd : ∀ d, d? = some d → d.Readable r) : Follows (r.importPrimitive d?) (r.checks d?) := by
  cases d? with
  | none => exact follows_cons (fun _ => rfl) False.elim
  | some d =>
    refine follows_cons ?_ ?_
    · intro hno
      rw [importPrimitive, h.typeOfTag_eq_error hno]
      rfl
    · rintro ⟨type, hm, ht⟩
      rw [h.find?_eq_some_iff.2 ⟨hm, ht⟩, importPrimitive, h.typeOfTag_eq_ok_iff.2 ⟨hm, ht⟩]
      exact Kind.follows_readPrimitive ((hd d rfl).fields type hm ht) (hd d rfl).inputs

end Registry

variable [DecidableEq ε]

namespace Session

/-- The topology grows by the primitive that is read; where none is read or its id is used, the
session stays as it is. -/
structure Adds (s : Session ε) (d? : Option (Descriptor ε)) : Prop where
  refused : ∀ failure, s.registry.importPrimitive d? = .error failure →
    s.addDescriptor d? = (.error (.failure failure), s)
  clash : ∀ p, s.registry.importPrimitive d? = .ok p → p.id ∈ s.topology.ids →
    s.addDescriptor d? = (.error (.failure (.error (.duplicatePrimitiveId p.id))), s)
  added : ∀ p, s.registry.importPrimitive d? = .ok p → ∀ hid : p.id ∉ s.topology.ids,
    s.addDescriptor d? = (.ok (s.topology.push p hid), s.withTopology (s.topology.push p hid))

theorem adds (s : Session ε) (d? : Option (Descriptor ε)) : s.Adds d? where
  refused failure h := by
    rw [addDescriptor, Topology.addDescriptor, h]
    rfl
  clash p h hid := by
    rw [addDescriptor, Topology.addDescriptor, h, ok_bind, Topology.add, dif_pos hid]
    rfl
  added p h hid := by
    rw [addDescriptor, Topology.addDescriptor, h, ok_bind, Topology.add, dif_neg hid]
    rfl

end Session

namespace Registry

/-- A descriptor is accepted if it is well-formed, which is the case if it passes every check;
otherwise the first check that it does not pass is reported. A session acts on the answer. -/
structure Judges (r : Registry ε) (d? : Option (Descriptor ε)) : Prop where
  accepted : (∃ p, r.importPrimitive d? = .ok p) ↔ ∃ d, d? = some d ∧ d.WellFormed r
  passed : (∃ d, d? = some d ∧ d.WellFormed r) ↔ AllHold (r.checks d?)
  refused : ∀ failure, r.importPrimitive d? = .error failure ↔
    ∃ e, failure = .error e ∧ FirstViolated (r.checks d?) e
  session : ∀ s : Session ε, s.registry = r → s.Adds d?

theorem Reachable.judges (h : r.Reachable) {d? : Option (Descriptor ε)}
    (hd : ∀ d, d? = some d → d.Readable r) : r.Judges d? := by
  have hfollows := h.consistent.follows_importPrimitive hd
  have hpassed : (∃ d, d? = some d ∧ d.WellFormed r) ↔ AllHold (r.checks d?) := by
    cases d? with
    | none => simp [checks]
    | some d => simpa using h.consistent.wellFormed_iff (hd d rfl)
  exact ⟨hfollows.ok.trans hpassed.symm, hpassed, hfollows.error, fun s _ => s.adds d?⟩

/-- The second input is absent, the third is not UTF-8, and neither is there a mode nine nor a
second operand. -/
def brokenTwice : Descriptor Empty where
  tag := ⟨3⟩
  id := some [98, 0]
  inputs := some [some [97, 0], none, some [255, 0]]
  inputSize := 3
  padding := .symmetric ⟨0, 0, 0, 0⟩ 0
  fields := .eltwise ⟨none, 9, 0, 0⟩

theorem readable_brokenTwice : brokenTwice.Readable standard where
  inputs texts h := by
    obtain rfl := Option.some.inj h
    exact Nat.le_refl 3
  fields type hm ht := by
    have h : standard.typeOfTag ⟨3⟩ = .ok type :=
      reachable_standard.consistent.typeOfTag_eq_ok_iff.2 ⟨hm, ht⟩
    have hk : type.kind = .eltwise := congrArg PrimitiveType.kind (Except.ok.inj h.symm)
    rw [hk]
    exact .eltwise _

theorem judges_brokenTwice :
    (standard : Registry Empty).Reachable ∧ brokenTwice.Readable standard ∧
      standard.importPrimitive (some brokenTwice) =
        .fail (.invalidDescriptor (.absentText "input[1]")) ∧
      standard.Judges (some brokenTwice) := by
  refine ⟨reachable_standard, readable_brokenTwice, by rfl, ?_⟩
  exact reachable_standard.judges fun d hd => Option.some.inj hd ▸ readable_brokenTwice

end Registry

end InferenceGraph
