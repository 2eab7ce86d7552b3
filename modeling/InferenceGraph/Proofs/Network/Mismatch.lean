import InferenceGraph.Proofs.Layout
import InferenceGraph.Proofs.Network.Executed
import InferenceGraph.Proofs.Scalar.PlainText

set_option autoImplicit false

namespace InferenceGraph

open Text

theorem ElementType.text_injective : Function.Injective ElementType.text := by
  have hall : ∀ s ∈ all, ∀ t ∈ all, s.text = t.text → s = t := by decide
  exact fun s t h => hall s s.mem_all t t.mem_all h

theorem ElementType.not_mem_text (t : ElementType) : ' ' ∉ t.text.toList := by
  have hall : ∀ t ∈ all, ' ' ∉ t.text.toList := by decide
  exact hall t t.mem_all

theorem Format.text_injective : Function.Injective Format.text := by
  intro f g h
  cases f <;> cases g <;> first | rfl | exact absurd h (by decide)

theorem Format.not_mem_text (f : Format) : ' ' ∉ f.text.toList := by cases f <;> decide

namespace Padding

/-- What is written of a padding that adds something. -/
def written (p : Padding) : String :=
  " pad(lower: " ++ (p.lower.text ++ ", upper: " ++ (p.upper.text ++ ", fill: " ++
    (Scalar.plainText p.fill ++ ")")))

theorem written_injective : Function.Injective written := by
  have hlower := TensorSize.delimited_text ", upper: " (c := ',') rfl rfl
  have hupper := TensorSize.delimited_text ", fill: " (c := ',') rfl rfl
  have hfill := (delimited_field ")" (c := ')') rfl).of_injective Scalar.plainText_injective
    (Q := fun _ => True) fun x _ hm => by
      rcases Scalar.mem_plainText hm with hdigit | hsign
      · exact absurd hdigit (by decide)
      · exact absurd hsign (by decide)
  have hall := (hlower.pair (hupper.pair hfill)).literal " pad(lower: "
  intro p q h
  obtain ⟨lower, upper, fill⟩ := p
  obtain ⟨lower', upper', fill'⟩ := q
  have he := hall.eq (x := (lower, upper, fill)) (y := (lower', upper', fill'))
    ⟨trivial, trivial, trivial⟩ ⟨trivial, trivial, trivial⟩ h
  cases he
  rfl

end Padding

namespace Layout

theorem delimited_box : Delimited (fun _ : ElementType × Format × TensorSize => True) fun x =>
    x.1.text ++ " " ++ (x.2.1.text ++ " [" ++ (x.2.2.text ++ "]")) := by
  have htype := (delimited_field " " (c := ' ') rfl).of_injective ElementType.text_injective
    (Q := fun _ => True) fun t _ => t.not_mem_text
  have hformat := (delimited_field " [" (c := ' ') rfl).of_injective Format.text_injective
    (Q := fun _ => True) fun f _ => f.not_mem_text
  have hsize := TensorSize.delimited_text "]" (c := ']') rfl rfl
  exact (htype.pair (hformat.pair hsize)).mono fun _ _ => ⟨trivial, trivial, trivial⟩

variable {l m : Layout}

def heading (l : Layout) : String :=
  l.type.text ++ " " ++ (l.format.text ++ " [" ++ (l.size.text ++ "]"))

def margin (l : Layout) : String := if l.isPadded then l.padding.written else ""

theorem text_eq (l : Layout) : l.text = l.heading ++ l.margin := by
  unfold text heading margin
  split <;> simp only [Padding.written, String.append_assoc, String.append_empty]

/-- Nothing differs but the filling value of a padding that adds nothing. -/
structure AlikeUnpadded (l m : Layout) : Prop where
  type : l.type = m.type
  format : l.format = m.format
  size : l.size = m.size
  left : l.isPadded = false
  right : m.isPadded = false

theorem AlikeUnpadded.text_eq (h : AlikeUnpadded l m) : l.text = m.text := by
  have hheading : l.heading = m.heading := by
    rw [heading, heading, h.type, h.format, h.size]
  have hmargin : l.margin = m.margin := by
    rw [margin, margin, h.left, h.right, if_neg Bool.false_ne_true, if_neg Bool.false_ne_true]
  rw [Layout.text_eq l, Layout.text_eq m, hheading, hmargin]

theorem eq_or_alike_of_text_eq (h : l.text = m.text) : l = m ∨ AlikeUnpadded l m := by
  have hlists := congrArg String.toList h
  rw [l.text_eq, m.text_eq, String.toList_append, String.toList_append] at hlists
  obtain ⟨hbox, hrest⟩ := delimited_box (x := (l.type, l.format, l.size))
    (y := (m.type, m.format, m.size)) trivial trivial hlists
  obtain ⟨htype, hformat, hsize⟩ := by simpa only [Prod.mk.injEq] using hbox
  have hrest : l.margin = m.margin := String.toList_inj.1 hrest
  unfold margin at hrest
  have hwritten (p : Padding) : p.written ≠ "" := by
    intro he
    have hlength := congrArg String.toList he
    simp [Padding.written] at hlength
  cases hl : l.isPadded <;> cases hm : m.isPadded <;> rw [hl, hm] at hrest
  · exact .inr ⟨htype, hformat, hsize, hl, hm⟩
  · exact absurd hrest.symm (hwritten _)
  · exact absurd hrest (hwritten _)
  · have hpadding := Padding.written_injective hrest
    cases l
    cases m
    simp_all

theorem text_eq_iff_of_not_same (h : l.same m = false) : l.text = m.text ↔ AlikeUnpadded l m := by
  refine ⟨fun htext => ?_, AlikeUnpadded.text_eq⟩
  rcases eq_or_alike_of_text_eq htext with rfl | halike
  · rw [same_refl] at h
    cases h
  · exact halike

end Layout

namespace Network

variable {ε : Type} [Extension ε] [DecidableEq ε]

theorem not_same_of_bindInput {n : Network ε} {id name : PrimitiveId} {source : Source}
    {expected actual : Layout}
    (h : n.bindInput id source = .fail (.inputLayoutMismatch name expected actual)) :
    name = id ∧ actual = source.layout ∧ expected.same actual = false := by
  -- The steps before the comparison fail in other ways.
  have hget {α : Type} {b : Breach} {o : Option α} {cause : GraphError} :
      Outcome.get b o ≠ .fail cause := fun he => by
    cases (Outcome.get_eq_error_iff.1 he).2
  unfold bindInput at h
  rcases bind_eq_error_iff.1 h with hindex | ⟨index, -, h⟩
  · obtain ⟨cause, hcause, he⟩ := Outcome.ofExcept_eq_error_iff.1 hindex
    cases he
    unfold Program.nodeIndex at hcause
    split at hcause <;> cases hcause
  rcases bind_eq_error_iff.1 h with hnode | ⟨m, -, h⟩
  · exact absurd hnode hget
  split at h
  · rcases bind_eq_error_iff.1 h with hlayout | ⟨layout, -, h⟩
    · rcases bind_eq_error_iff.1 hlayout with hnode | ⟨m, -, hlayout⟩
      · exact absurd hnode hget
      · exact absurd hlayout hget
    split at h
    · rcases bind_eq_error_iff.1 h with hinstance | ⟨i, -, h⟩
      · exact absurd hinstance hget
      · cases h
    · next hsame =>
      cases h
      exact ⟨rfl, rfl, by simpa using hsame⟩
  · cases h

/-- Both layouts of a mismatch are written with one text exactly if they are alike and neither is
padded, so that what differs is the filling value of nothing. This holds of any two layouts that are
not the same. -/
theorem texts_of_mismatch :
    (∀ l m : Layout, l.same m = false → (l.text = m.text ↔ l.AlikeUnpadded m)) ∧
      ∀ (n : Network ε) (id name : PrimitiveId) (source : Source) (expected actual : Layout),
        n.bindInput id source = .fail (.inputLayoutMismatch name expected actual) →
          name = id ∧ actual = source.layout ∧ expected.same actual = false ∧
            (expected.text = actual.text ↔ expected.AlikeUnpadded actual) := by
  refine ⟨fun l m => Layout.text_eq_iff_of_not_same, ?_⟩
  intro n id name source expected actual h
  obtain ⟨hname, hactual, hsame⟩ := not_same_of_bindInput h
  exact ⟨hname, hactual, hsame, Layout.text_eq_iff_of_not_same hsame⟩

section Copies

variable {p : Program Empty} {n : Network Empty}

theorem bindInput_copies (hp : Program.ofTopology .standard Topology.copies .standard = .ok p)
    (hn : ofProgram p .host = .ok n) (source : Source)
    (hs : inputBuffer.layout.same source.layout = false) :
    n.bindInput Topology.source source =
      .fail (.inputLayoutMismatch Topology.source inputBuffer.layout source.layout) := by
  have hr := Program.ready_of_ofTopology hp
  have hc := Program.compiled_of_ofTopology (by decide) hp
  have hid : Topology.source ∈ p.ids := (Program.ids_iff_of_ofTopology hp).2
    (show Topology.source ∈ Topology.copies.ids by decide)
  obtain ⟨m, hm, hid⟩ := List.mem_map.1 hid
  have hkind : ∀ q ∈ Topology.copies.primitives, q.id = Topology.source → q.kind = .inputLayout := by
    decide
  obtain ⟨layout, hl, hlayout⟩ := hc.layout m hm
  have hof : Topology.copies.layoutOf Topology.source = some inputBuffer.layout := by cbv
  rw [hid, hof, Option.some.injEq] at hlayout
  subst hlayout
  exact ((intact_of_ofProgram hr hn).setsInput hr _ source).mismatch m hm hid
    (hkind _ (hc.linked.primitive m hm) hid) _ hl hs

end Copies

def framedBuffer : Source := .fresh (.elsewhere
  ((Layout.unpadded .float32 .bfyx ⟨1, 1, 1, 2⟩).withPadding (.symmetric ⟨0, 0, 1, 1⟩ 1)))

/-- A filling value for no padding. -/
def filledBuffer : Source := .fresh (.elsewhere
  ((Layout.unpadded .float32 .bfyx ⟨1, 1, 1, 2⟩).withPadding (.symmetric .zero 1)))

theorem texts_of_mismatch_framed : ∃ (p : Program Empty) (n : Network Empty),
    Program.ofTopology .standard Topology.copies .standard = .ok p ∧ ofProgram p .host = .ok n ∧
      n.bindInput Topology.source framedBuffer =
        .fail (.inputLayoutMismatch Topology.source inputBuffer.layout framedBuffer.layout) ∧
      inputBuffer.layout.text ≠ framedBuffer.layout.text ∧
      inputBuffer.layout.text = filledBuffer.layout.text := by
  obtain ⟨p, hp⟩ := Topology.exists_program_copies (o := .standard) fun _ h => by cases h
  obtain ⟨n, hn, -⟩ := sound_of_ofProgram (Program.compiled_of_ofTopology (by decide) hp)
  have hmismatch := bindInput_copies hp hn framedBuffer (by decide)
  obtain ⟨-, -, -, htext⟩ := texts_of_mismatch.2 n _ _ _ _ _ hmismatch
  have hfilled := (texts_of_mismatch (ε := Empty)).1 inputBuffer.layout filledBuffer.layout
    (by decide)
  exact ⟨p, n, hp, hn, hmismatch, fun h => absurd (htext.1 h).right (by decide),
    hfilled.2 ⟨rfl, rfl, rfl, by decide, by decide⟩⟩

/-- The buffer is refused, and the two texts in the message are one. -/
theorem texts_of_mismatch_filled : ∃ (p : Program Empty) (n : Network Empty),
    Program.ofTopology .standard Topology.copies .standard = .ok p ∧ ofProgram p .host = .ok n ∧
      n.bindInput Topology.source filledBuffer =
        .fail (.inputLayoutMismatch Topology.source inputBuffer.layout filledBuffer.layout) ∧
      inputBuffer.layout.text = filledBuffer.layout.text := by
  obtain ⟨p, hp⟩ := Topology.exists_program_copies (o := .standard) fun _ h => by cases h
  obtain ⟨n, hn, -⟩ := sound_of_ofProgram (Program.compiled_of_ofTopology (by decide) hp)
  have halike : inputBuffer.layout.AlikeUnpadded filledBuffer.layout :=
    ⟨rfl, rfl, rfl, by decide, by decide⟩
  exact ⟨p, n, hp, hn, bindInput_copies hp hn filledBuffer (by decide), halike.text_eq⟩

end Network

end InferenceGraph
