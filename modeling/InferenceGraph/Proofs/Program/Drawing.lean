import InferenceGraph.Program.Drawing
import InferenceGraph.Proofs.Layout.Text
import InferenceGraph.Proofs.Text.Escape

/-!
# Reading a drawing back

Each part of a drawing shows where it ends, whatever the ids and parameters are: what comes from
outside has no angle bracket, and the next bracket belongs to the table around it. So a drawing is
read back piece by piece, and programs that are drawn the same agree on all that is drawn.
-/

set_option autoImplicit false

namespace InferenceGraph

open Text

namespace Drawing

theorem not_mem_escape (s : String) : '<' ∉ (escape s).toList :=
  fun h => (ne_angle_of_mem_escape h).1 rfl

theorem delimited_row :
    Delimited (fun cells : String × String => '<' ∉ cells.1.toList ∧ '<' ∉ cells.2.toList)
      fun cells => row cells.1 cells.2 := by
  have hkey := delimited_field "</TD><TD>" rfl
  have hvalue := delimited_field "</TD></TR>\n" rfl
  refine ((hkey.pair hvalue).literal "<TR><TD>").congr ?_
  intro cells
  simp only [row, String.append_assoc]

def heading (id name : String) : String := row (escape id) ("<B>" ++ name ++ "</B>")

theorem delimited_heading :
    Delimited (fun cells : String × String => '<' ∉ cells.2.toList)
      fun cells => heading cells.1 cells.2 := by
  have hid := (delimited_field "</TD><TD><B>" rfl).of_injective (Q := fun _ => True)
    escape_injective fun s _ => not_mem_escape s
  have hname := delimited_field "</B></TD></TR>\n" rfl
  refine (((hid.pair hname).literal "<TR><TD>").mono fun _ h => ⟨trivial, h⟩).congr ?_
  intro cells
  simp only [heading, row, String.append_assoc]
  rfl

/-- What the line of a node says, in this order. -/
structure Line where
  index : Nat
  id : String
  name : String
  properties : List (String × String)
  color : String

namespace Line

def text (l : Line) : String :=
  Nat.repr l.index ++ " [label=<" ++ ("<TABLE BORDER=\"0\">\n" ++ heading l.id l.name ++
    String.join (l.properties.map fun (key, value) => row key value) ++ "</TABLE>\n") ++
    ">, color=\"" ++ l.color ++ "\", shape=box, width=2]\n"

/-- Nothing in the line is taken for the end of a cell or of the colour. -/
structure Clean (l : Line) : Prop where
  name : '<' ∉ l.name.toList
  properties : ∀ cells ∈ l.properties, '<' ∉ cells.1.toList ∧ '<' ∉ cells.2.toList
  color : '"' ∉ l.color.toList

theorem delimited_text : Delimited Clean text := by
  have hindex := delimited_number " [label=<" rfl (by decide)
  -- A row and the end of the table differ in their second character.
  have hrows := delimited_row.list "</TABLE>\n" fun cells r s h => by
    simp only [row, String.toList_append, List.append_assoc] at h
    exact absurd (List.cons.inj (List.cons.inj h).2).1 (by decide)
  have hcolor := delimited_field "\", shape=box, width=2]\n" rfl
  have hparts : Function.Injective fun l : Line =>
      (l.index, (l.id, l.name), l.properties, l.color) := by
    rintro ⟨⟩ ⟨⟩ h
    simpa [and_assoc] using h
  have hall := hindex.pair ((delimited_heading.pair (hrows.pair (hcolor.literal
    ">, color=\""))).literal "<TABLE BORDER=\"0\">\n")
  refine (hall.of_injective hparts fun l hl => ⟨trivial, hl.name, hl.properties, hl.color⟩).congr ?_
  intro l
  simp only [text, String.append_assoc]

end Line

theorem delimited_edgeLine :
    Delimited (fun _ : Nat × Nat => True) fun edge => edgeLine edge.1 edge.2 := by
  have hsource := delimited_number " -> " rfl (by decide)
  have htarget := delimited_number "\n" rfl (by decide)
  refine ((hsource.pair htarget).mono fun _ _ => ⟨trivial, trivial⟩).congr ?_
  intro edge
  simp only [edgeLine, String.append_assoc]

/-- The edges, each from a source to the target that is given the number of its place. -/
def arrowsFrom (start : Nat) (edges : List (List Nat)) : List (Nat × Nat) :=
  (edges.zipIdx start).flatMap fun (sources, target) => sources.map fun source => (source, target)

theorem le_of_mem_arrowsFrom {start : Nat} {edges : List (List Nat)} {arrow : Nat × Nat}
    (h : arrow ∈ arrowsFrom start edges) : start ≤ arrow.2 := by
  obtain ⟨⟨sources, target⟩, he, hm⟩ := List.mem_flatMap.1 h
  obtain ⟨source, -, rfl⟩ := List.mem_map.1 hm
  exact (List.le_snd_of_mem_zipIdx he :)

/-- The arrows to a target tell its dependencies, in order and with repeats. -/
theorem filter_arrowsFrom (start place : Nat) (edges : List (List Nat)) :
    (arrowsFrom start edges).filter (fun arrow => arrow.2 = start + place) =
      (edges[place]?.getD []).map fun source => (source, start + place) := by
  induction edges generalizing start place with
  | nil => simp [arrowsFrom]
  | cons sources edges ih =>
    have hcons : arrowsFrom start (sources :: edges) =
        sources.map (fun source => (source, start)) ++ arrowsFrom (start + 1) edges := by
      rw [arrowsFrom, List.zipIdx_cons, List.flatMap_cons, arrowsFrom]
    rw [hcons, List.filter_append]
    cases place with
    | zero =>
      have hrest : (arrowsFrom (start + 1) edges).filter (fun arrow => arrow.2 = start + 0) = [] := by
        refine List.filter_eq_nil_iff.2 fun arrow ha => ?_
        have hle := le_of_mem_arrowsFrom ha
        simp only [decide_eq_true_eq]
        omega
      rw [hrest, List.append_nil, List.filter_eq_self.2 (by simp)]
      rfl
    | succ place =>
      have hfirst : (sources.map fun source => (source, start)).filter
          (fun arrow => arrow.2 = start + (place + 1)) = [] := by simp
      have hplace : start + (place + 1) = start + 1 + place := by omega
      rw [hfirst, List.nil_append, hplace, ih]
      rfl

theorem edges_eq_of_arrows_eq {edges edges' : List (List Nat)}
    (hlength : edges.length = edges'.length) (h : arrowsFrom 0 edges = arrowsFrom 0 edges') :
    edges = edges' := by
  refine List.ext_getElem hlength fun place hp hp' => ?_
  have hsource : Function.Injective fun source : Nat => (source, 0 + place) :=
    fun _ _ he => congrArg Prod.fst he
  have hplace : (edges[place]?.getD []).map (fun source => (source, 0 + place)) =
      (edges'[place]?.getD []).map fun source => (source, 0 + place) := by
    rw [← filter_arrowsFrom, ← filter_arrowsFrom, h]
  simpa [List.getElem?_eq_getElem hp, List.getElem?_eq_getElem hp'] using
    List.map_injective_iff.2 hsource hplace

variable {ε ε' : Type} [Extension ε] [Extension ε'] {p : Program ε} {q : Program ε'} {index : Nat}
  {n : Node ε} {m : Node ε'}

theorem properties_eq (p : Program ε) (index : Nat) (n : Node ε) :
    properties p index n =
      [("layout", (n.layout?.map Layout.text).getD "?")] ++
        ((p.outputs.idxOf? index).map fun place => ("output", Nat.repr place)).toList ++
        (n.primitive.padding.sides?.map fun sides => ("padding", sides)).toList ++
        [("params", escape n.primitive.text)] := by
  unfold properties Padding.sides?
  dsimp only
  cases n.layout? <;> cases p.outputs.idxOf? index <;> cases n.primitive.padding.isNone <;> rfl

theorem lookup_properties (p : Program ε) (index : Nat) (n : Node ε) :
    (properties p index n).lookup "layout" = some ((n.layout?.map Layout.text).getD "?") ∧
    (properties p index n).lookup "output" = (p.outputs.idxOf? index).map Nat.repr ∧
    (properties p index n).lookup "padding" = n.primitive.padding.sides? ∧
    (properties p index n).lookup "params" = some (escape n.primitive.text) := by
  rw [properties_eq]
  cases p.outputs.idxOf? index <;> cases n.primitive.padding.sides? <;> exact ⟨rfl, rfl, rfl, rfl⟩

theorem not_mem_properties {cells : String × String} (h : cells ∈ properties p index n) :
    '<' ∉ cells.1.toList ∧ '<' ∉ cells.2.toList := by
  have hlayout : '<' ∉ ((n.layout?.map Layout.text).getD "?").toList := by
    cases n.layout? with
    | none => decide
    | some layout => exact layout.not_mem_text
  have hkeys : '<' ∉ "layout".toList ∧ '<' ∉ "output".toList ∧ '<' ∉ "padding".toList ∧
      '<' ∉ "params".toList := by decide
  rw [properties_eq] at h
  simp only [List.mem_append, List.mem_singleton, Option.mem_toList,
    Option.map_eq_some_iff] at h
  obtain ((rfl | ⟨place, -, rfl⟩) | ⟨sides, hs, rfl⟩) | rfl := h
  · exact ⟨hkeys.1, hlayout⟩
  · exact ⟨hkeys.2.1, not_mem_repr rfl place⟩
  · exact ⟨hkeys.2.2.1, Padding.not_mem_sides hs⟩
  · exact ⟨hkeys.2.2.2, not_mem_escape _⟩

def line (p : Program ε) (index : Nat) (n : Node ε) : Line :=
  ⟨index, n.id.text, n.type.name, properties p index n, color n.type.tag⟩

theorem not_mem_color (tag : TypeTag) : '"' ∉ (color tag).toList := by
  have hall : ∀ name ∈ colors, '"' ∉ name.toList := by decide
  unfold color
  cases h : colors[tag.number.toNat % colors.length]? with
  | none => decide
  | some name => exact hall name (List.mem_of_getElem? h)

theorem clean_line (h : '<' ∉ n.type.name.toList) : (line p index n).Clean where
  name := h
  properties := fun _ => not_mem_properties
  color := not_mem_color n.type.tag

def lines (p : Program ε) : List Line := p.nodes.zipIdx.map fun (n, index) => line p index n

/-- What a drawing tells about a node. -/
structure Agree (p : Program ε) (q : Program ε') (index : Nat) (n : Node ε) (m : Node ε') : Prop where
  id : n.id = m.id
  name : n.type.name = m.type.name
  layout : n.layout?.map Layout.text = m.layout?.map Layout.text
  place : p.outputs.idxOf? index = q.outputs.idxOf? index
  lower : n.primitive.padding.lower = m.primitive.padding.lower
  upper : n.primitive.padding.upper = m.primitive.padding.upper
  params : n.primitive.text = m.primitive.text
  dependencies : n.dependencies = m.dependencies

theorem id_eq_of_text_eq {a b : PrimitiveId} (h : a.text = b.text) : a = b := by
  cases a
  cases b
  congr

theorem agree_of_line_eq (h : line p index n = line q index m)
    (hd : n.dependencies = m.dependencies) : Agree p q index n m := by
  obtain ⟨-, hid, hname, hproperties, -⟩ := Line.mk.inj h
  obtain ⟨hlayout, hplace, hsides, hparams⟩ := lookup_properties p index n
  obtain ⟨hlayout', hplace', hsides', hparams'⟩ := lookup_properties q index m
  rw [hproperties] at hlayout hplace hsides hparams
  have hpadding := Padding.eq_of_sides_eq (hsides.symm.trans hsides')
  exact {
    id := id_eq_of_text_eq hid
    name := hname
    layout := Layout.map_text_eq_of_getD_eq (Option.some.inj (hlayout.symm.trans hlayout'))
    place := Option.map_injective repr_injective (hplace.symm.trans hplace')
    lower := hpadding.1
    upper := hpadding.2
    params := escape_injective (Option.some.inj (hparams.symm.trans hparams'))
    dependencies := hd }

theorem join_map_join {α : Type} (f : α → List String) (xs : List α) :
    String.join (xs.map fun x => String.join (f x)) = String.join (xs.flatMap f) := by
  induction xs with
  | nil => rfl
  | cons x xs ih => rw [List.map_cons, String.join_cons, ih, List.flatMap_cons, String.join_append]

theorem drawing_eq (p : Program ε) :
    p.drawing = "digraph \x7b\n\n" ++ ((String.join ((lines p).map Line.text) ++ "\n") ++
      (String.join ((arrowsFrom 0 p.edges).map fun edge => edgeLine edge.1 edge.2) ++
        "\n\x7d\n")) := by
  have hedges : (arrowsFrom 0 p.edges).map (fun edge => edgeLine edge.1 edge.2) =
      p.nodes.zipIdx.flatMap fun (n, index) =>
        n.dependencies.map fun dep => edgeLine dep index := by
    rw [arrowsFrom, Program.edges, List.zipIdx_map, List.flatMap_map, List.map_flatMap]
    simp only [List.map_map, Prod.map]
    rfl
  rw [hedges, ← join_map_join, lines, List.map_map]
  simp only [Program.drawing, String.append_assoc]
  rfl

theorem lines_and_arrows_eq (hp : ∀ n ∈ p.nodes, '<' ∉ n.type.name.toList)
    (hq : ∀ m ∈ q.nodes, '<' ∉ m.type.name.toList) (h : p.drawing = q.drawing) :
    lines p = lines q ∧ arrowsFrom 0 p.edges = arrowsFrom 0 q.edges := by
  have hlines := Line.delimited_text.list "\n" fun l r s => by
    simp only [Line.text, String.toList_append, List.append_assoc]
    exact repr_append_ne rfl _ _ _
  have harrows := delimited_edgeLine.list "\n\x7d\n" fun edge r s => by
    simp only [edgeLine, String.toList_append, List.append_assoc]
    exact repr_append_ne rfl _ _ _
  have hclean {δ : Type} [Extension δ] {o : Program δ}
      (ho : ∀ n ∈ o.nodes, '<' ∉ n.type.name.toList) : ∀ l ∈ lines o, l.Clean := by
    intro l hl
    obtain ⟨⟨n, index⟩, hn, rfl⟩ := List.mem_map.1 hl
    exact clean_line (ho n (List.fst_mem_of_mem_zipIdx hn))
  rw [drawing_eq, drawing_eq] at h
  exact Prod.mk.inj ((hlines.pair harrows).literal "digraph \x7b\n\n" |>.eq
    (x := (lines p, arrowsFrom 0 p.edges)) (y := (lines q, arrowsFrom 0 q.edges))
    ⟨hclean hp, fun _ _ => trivial⟩ ⟨hclean hq, fun _ _ => trivial⟩ h)

end Drawing

namespace Program

open Drawing

variable {ε ε' : Type} [Extension ε] [Extension ε']

/-- Programs that are drawn the same agree on what is drawn, whatever the ids and parameters are. -/
theorem drawing_unambiguous :
    (∀ s : String,
      escape s = replaced (replaced (replaced s "&" "&amp;") "<" "&lt;") ">" "&gt;" ∧
      replaced (replaced (replaced (escape s) "&lt;" "<") "&gt;" ">") "&amp;" "&" = s ∧
      '<' ∉ (escape s).toList ∧ '>' ∉ (escape s).toList) ∧
    ∀ (p : Program ε) (q : Program ε'), (∀ n ∈ p.nodes, '<' ∉ n.type.name.toList) →
      (∀ m ∈ q.nodes, '<' ∉ m.type.name.toList) → p.drawing = q.drawing →
      p.size = q.size ∧ ∀ index n m, p.nodes[index]? = some n → q.nodes[index]? = some m →
        Agree p q index n m := by
  refine ⟨fun s => ⟨escape_eq_replaced s, replaced_escape s, not_mem_escape s,
    fun h => (ne_angle_of_mem_escape h).2 rfl⟩, fun p q hp hq h => ?_⟩
  obtain ⟨hlines, harrows⟩ := lines_and_arrows_eq hp hq h
  have hsize : p.size = q.size := by
    simpa [lines, size] using congrArg List.length hlines
  have hedges := edges_eq_of_arrows_eq (by simpa [edges, size] using hsize) harrows
  refine ⟨hsize, fun index n m hn hm => agree_of_line_eq ?_ ?_⟩
  · have hline := congrArg (·[index]?) hlines
    simpa [lines, hn, hm] using hline
  · have hedge := congrArg (·[index]?) hedges
    simpa [edges, hn, hm] using hedge

def markup : PrimitiveId := ⟨"a</TD>\n0 -> 1 &lt;", by decide, by decide⟩

def ofMarkup (isOutput : Bool) (index : NodeIndex) : Program Empty where
  nodes := [{
    primitive := .ofParams markup [] .inputLayout ⟨.unpadded .float32 .bfyx ⟨1, 1, 1, 2⟩⟩
    type := ⟨.inputLayout, ⟨1⟩⟩
    dependencies := []
    users := []
    layout? := none
    isOutput := isOutput }]
  index := index
  outputs := [0]

theorem agree_ofMarkup :
    (ofMarkup false []).drawing = (ofMarkup true [(markup, 0)]).drawing ∧
    (∀ n ∈ (ofMarkup false []).nodes, '<' ∉ n.type.name.toList) ∧
    (∀ m ∈ (ofMarkup true [(markup, 0)]).nodes, '<' ∉ m.type.name.toList) ∧
    (ofMarkup false []).size = (ofMarkup true [(markup, 0)]).size ∧
    ∀ index n m, (ofMarkup false []).nodes[index]? = some n →
      (ofMarkup true [(markup, 0)]).nodes[index]? = some m →
      Agree (ofMarkup false []) (ofMarkup true [(markup, 0)]) index n m := by
  have hkind : '<' ∉ (Kind.inputLayout : Kind Empty).name.toList := by decide
  have hname (isOutput : Bool) (index : NodeIndex) :
      ∀ n ∈ (ofMarkup isOutput index).nodes, '<' ∉ n.type.name.toList := by
    intro n hn
    rw [List.mem_singleton.1 hn]
    exact hkind
  have hdrawing : (ofMarkup false []).drawing = (ofMarkup true [(markup, 0)]).drawing := rfl
  exact ⟨hdrawing, hname _ _, hname _ _,
    drawing_unambiguous.2 _ _ (hname _ _) (hname _ _) hdrawing⟩

end Program

end InferenceGraph
