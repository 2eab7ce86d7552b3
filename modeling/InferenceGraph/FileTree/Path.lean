import InferenceGraph.FileTree.Fault

set_option autoImplicit false

namespace InferenceGraph

structure Path where
  text : String
  absolute : Bool
  /-- Names, and `..` for the directory above. -/
  steps : List String
  endsInDot : Bool
  deriving DecidableEq, Repr

namespace Path

def pieces : List Char → List (List Char)
  | [] => [[]]
  | c :: cs =>
    if c = '/' then [] :: pieces cs
    else
      match pieces cs with
      | [] => [[c]]
      | p :: ps => (c :: p) :: ps

def ofString (text : String) : Path :=
  let pieces := (pieces text.toList).map String.ofList
  { text := text
    absolute := text.toList.head? == some '/'
    steps := pieces.filter fun p => p ≠ "" && p ≠ "."
    endsInDot := (pieces.filter (· ≠ "")).getLast? == some "." }

def child (p : Path) (name : String) : Path :=
  let between := if p.text.isEmpty || p.text.toList.getLast? == some '/' then "" else "/"
  ofString (p.text ++ between ++ name)

def fault? (p : Path) : Option FileFault :=
  if p.text.toList.contains '\x00' then some .zeroInPath
  else if 4096 ≤ p.text.utf8ByteSize then some .nameTooLong
  else none

example : (ofString "/a//b/./c/").steps = ["a", "b", "c"] ∧
    (ofString "a/.").endsInDot = true := by
  decide +kernel

example : ((ofString "").child "x").text = "x" ∧ ((ofString "a/").child "x").text = "a/x" ∧
    ((ofString "a").child "x").text = "a/x" := by decide +kernel

end Path

end InferenceGraph
