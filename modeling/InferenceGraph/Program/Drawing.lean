import InferenceGraph.Program

/-!
# Drawings

A program as a graph description for drawing tools: each node is a table of its properties, its
colour tells its kind, and an arrow leads from every dependency to the node that has it. Texts that
come from outside are written without angle brackets, so they cannot be taken for the table's own.
-/

set_option autoImplicit false

namespace InferenceGraph

namespace Drawing

def escapeChar : Char → List Char
  | '&' => ['&', 'a', 'm', 'p', ';']
  | '<' => ['&', 'l', 't', ';']
  | '>' => ['&', 'g', 't', ';']
  | c => [c]

/-- A text without angle brackets; an ampersand begins an escape. -/
def escape (s : String) : String := String.ofList (s.toList.flatMap escapeChar)

theorem ne_angle_of_mem_escape {s : String} {c : Char} (h : c ∈ (escape s).toList) :
    c ≠ '<' ∧ c ≠ '>' := by
  simp only [escape, String.toList_ofList, List.mem_flatMap] at h
  obtain ⟨x, -, hc⟩ := h
  unfold escapeChar at hc
  split at hc <;> simp at hc <;> grind

def colors : List String := ["gray", "green", "blue", "purple", "brown", "yellow"]

def color (tag : TypeTag) : String := (colors[tag.number.toNat % colors.length]?).getD ""

def row (key value : String) : String := "<TR><TD>" ++ key ++ "</TD><TD>" ++ value ++ "</TD></TR>\n"

variable {ε : Type} [Extension ε]

def properties (p : Program ε) (index : Nat) (n : Node ε) : List (String × String) :=
  let layout :=
    match n.layout? with
    | some layout => layout.text
    | none => "?"
  let output :=
    match p.outputs.idxOf? index with
    | some place => [("output", Nat.repr place)]
    | none => []
  let padding := n.primitive.padding
  let padding :=
    if padding.isNone then [] else [("padding", padding.lower.text ++ " / " ++ padding.upper.text)]
  [("layout", layout)] ++ output ++ padding ++ [("params", escape n.primitive.text)]

def table (p : Program ε) (index : Nat) (n : Node ε) : String :=
  "<TABLE BORDER=\"0\">\n" ++ row (escape n.id.text) ("<B>" ++ n.type.name ++ "</B>") ++
    String.join ((properties p index n).map fun (key, value) => row key value) ++ "</TABLE>\n"

def nodeLine (p : Program ε) (index : Nat) (n : Node ε) : String :=
  Nat.repr index ++ " [label=<" ++ table p index n ++ ">, color=\"" ++ color n.type.tag ++
    "\", shape=box, width=2]\n"

def edgeLine (source target : Nat) : String := Nat.repr source ++ " -> " ++ Nat.repr target ++ "\n"

def edgeLines (index : Nat) (n : Node ε) : String :=
  String.join (n.dependencies.map fun dep => edgeLine dep index)

end Drawing

def Program.drawing {ε : Type} [Extension ε] (p : Program ε) : String :=
  "digraph \x7b\n\n" ++
    String.join (p.nodes.zipIdx.map fun (n, index) => Drawing.nodeLine p index n) ++ "\n" ++
    String.join (p.nodes.zipIdx.map fun (n, index) => Drawing.edgeLines index n) ++ "\n\x7d\n"

end InferenceGraph
