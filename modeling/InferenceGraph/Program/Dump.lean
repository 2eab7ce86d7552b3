import InferenceGraph.FileTree
import InferenceGraph.Program.Compilation
import InferenceGraph.Program.Drawing

/-!
# Saved stages

The drawing of each stage of a compilation can be saved to a directory, one file for each stage. A
stage is saved before the next one is tried, so a file that cannot be written stops the
compilation, whatever the later stages would have come to.
-/

set_option autoImplicit false

namespace InferenceGraph

def Stage.fileName (s : Stage) : String := s.name ++ ".gv"

namespace Compilation

variable {ε : Type} [Extension ε]

def saveStages (directory : Path) (t : FileTree) :
    List (Stage × Program ε) → Except GraphError Unit × FileTree
  | [] => (.ok (), t)
  | (stage, p) :: rest =>
    match t.save directory stage.fileName p.drawing with
    | (.ok (), t) => saveStages directory t rest
    | (.error (path, fault), t) => (.error (.unsaved path.text fault), t)

/-- How the compilation ends if its stages are saved. -/
def saved (c : Compilation ε) (directory : Path) (t : FileTree) : Outcome (Program ε) × FileTree :=
  match saveStages directory t c.stages with
  | (.ok (), t) => (c.result, t)
  | (.error e, t) => (.fail e, t)

end Compilation

end InferenceGraph
