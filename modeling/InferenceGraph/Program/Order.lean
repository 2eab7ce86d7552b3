/-!
# Processing order

A depth-first search over dependency edges. Roots are visited by their numbers and dependencies in
the order they are declared, and a node is finished after all it depends on, so the finished nodes
stand in a processing order. The search keeps its own stack, so a long chain of nodes is no
different from a short one, and a mark for every node. A dependency that is marked as being visited
closes a cycle. What some nodes depend on is collected from a list of nodes to look at, each node
once.
-/

set_option autoImplicit false

namespace InferenceGraph.Order

inductive Mark where
  | fresh | visiting | finished
  deriving DecidableEq, Repr

/-- A node being visited, and those of its dependencies that were not looked at yet. -/
structure Frame where
  node : Nat
  pending : List Nat
  deriving DecidableEq, Repr

/-- The edges as a function; a node that does not exist depends on nothing. -/
def dependenciesOf (edges : List (List Nat)) (node : Nat) : List Nat := edges[node]?.getD []

section Count

variable {α : Type} [BEq α] [LawfulBEq α] {marks : List α} {a b : α}

theorem count_set_le (marks : List α) (node : Nat) (h : b ≠ a) :
    (marks.set node b).count a ≤ marks.count a := by
  by_cases hn : node < marks.length
  · rw [List.count_set hn, beq_eq_false_iff_ne.2 h]
    simp
  · exact Nat.le_of_eq (by rw [List.set_eq_of_length_le (Nat.le_of_not_lt hn)])

theorem count_set_lt {node : Nat} (hf : marks[node]? = some a) (h : b ≠ a) :
    (marks.set node b).count a < marks.count a := by
  obtain ⟨hn, hm⟩ := List.getElem?_eq_some_iff.1 hf
  have hpos := List.count_pos_iff.2 (List.mem_of_getElem? hf)
  rw [List.count_set hn, beq_eq_false_iff_ne.2 h, hm]
  simp only [BEq.rfl, if_true, Bool.false_eq_true, if_false]
  omega

end Count

structure Search where
  marks : List Mark
  order : List Nat
  /-- The nodes being visited, the innermost first. -/
  stack : List Frame
  /-- The nodes that were not tried as roots yet. -/
  roots : List Nat
  deriving DecidableEq, Repr

namespace Search

def start (edges : List (List Nat)) : Search where
  marks := List.replicate edges.length .fresh
  order := []
  stack := []
  roots := List.range edges.length

def path (s : Search) : List Nat := (s.stack.map Frame.node).reverse

/-- The path from `node` on, closed by `node` itself. -/
def cycleAt (s : Search) (node : Nat) : List Nat :=
  s.path.drop ((s.path.idxOf? node).getD 0) ++ [node]

def enter (edges : List (List Nat)) (s : Search) (node : Nat) : Search :=
  { s with
    marks := s.marks.set node .visiting
    stack := ⟨node, dependenciesOf edges node⟩ :: s.stack }

def finish (s : Search) (node : Nat) (below : List Frame) : Search :=
  { s with
    marks := s.marks.set node .finished
    order := s.order ++ [node]
    stack := below }

@[simp] theorem marks_enter (edges : List (List Nat)) (s : Search) (node : Nat) :
    (s.enter edges node).marks = s.marks.set node .visiting := rfl

@[simp] theorem order_enter (edges : List (List Nat)) (s : Search) (node : Nat) :
    (s.enter edges node).order = s.order := rfl

@[simp] theorem path_enter (edges : List (List Nat)) (s : Search) (node : Nat) :
    (s.enter edges node).path = s.path ++ [node] := by
  simp [path, enter]

@[simp] theorem marks_finish (s : Search) (node : Nat) (below : List Frame) :
    (s.finish node below).marks = s.marks.set node .finished := rfl

@[simp] theorem order_finish (s : Search) (node : Nat) (below : List Frame) :
    (s.finish node below).order = s.order ++ [node] := rfl

/-- Looks at one root or one dependency, or finishes a node. Ends with an order or a cycle. -/
def step (edges : List (List Nat)) (s : Search) : Search ⊕ Except (List Nat) (List Nat) :=
  match s.stack with
  | [] =>
    match s.roots with
    | [] => .inr (.ok s.order)
    | root :: roots =>
      let s : Search := { s with roots := roots }
      .inl (if s.marks[root]? = some .fresh then s.enter edges root else s)
  | ⟨node, []⟩ :: below => .inl (s.finish node below)
  | ⟨node, dep :: pending⟩ :: below =>
    let s : Search := { s with stack := ⟨node, pending⟩ :: below }
    match s.marks[dep]? with
    | some .fresh => .inl (s.enter edges dep)
    | some .visiting => .inr (.error (s.cycleAt dep))
    | _ => .inl s

/-- How many steps the frames are good for, if no new node is met. -/
def weight : List Frame → Nat
  | [] => 0
  | f :: below => f.pending.length + 1 + weight below

/-- What is left to do: the fresh nodes, and the steps until the next of them is met. -/
def todo (s : Search) : Nat × Nat := (s.marks.count .fresh, s.roots.length + weight s.stack)

theorem todo_lt {edges : List (List Nat)} {s s' : Search} (h : s.step edges = .inl s') :
    Prod.Lex (· < ·) (· < ·) s'.todo s.todo := by
  obtain ⟨marks, order, stack, roots⟩ := s
  match stack, roots with
  | [], [] => cases h
  | [], root :: roots =>
    simp only [step] at h
    split at h
    · next hf =>
      cases h
      exact .left _ _ (count_set_lt hf (by decide))
    · cases h
      exact .right _ (by simp [weight])
  | ⟨node, []⟩ :: below, roots =>
    cases h
    refine Prod.Lex.right' _ (count_set_le marks node (by decide)) ?_
    simp [finish, weight]
  | ⟨node, dep :: pending⟩ :: below, roots =>
    simp only [step] at h
    split at h
    · next hf =>
      cases h
      exact .left _ _ (count_set_lt hf (by decide))
    · cases h
    · cases h
      exact .right _ (by simp [weight])

theorem wellFounded_step (edges : List (List Nat)) :
    WellFounded fun after before : Search => before.step edges = .inl after :=
  Subrelation.wf (fun h => todo_lt h) (InvImage.wf todo (Prod.lex ⟨_, Nat.lt_wfRel.wf⟩ Nat.lt_wfRel).wf)

def run (edges : List (List Nat)) (s : Search) : Except (List Nat) (List Nat) :=
  match _h : s.step edges with
  | .inl s' => run edges s'
  | .inr result => result
termination_by s.todo
decreasing_by exact todo_lt _h

end Search

/-- All nodes, each after its dependencies, or a cycle of dependencies: the first node again at
the end, each node depending on the next one. -/
def ofEdges (edges : List (List Nat)) : Except (List Nat) (List Nat) := (Search.start edges).run edges

/-- What is collected for some targets: the nodes met so far, and those to look at. -/
structure Worklist where
  kept : List Bool
  todo : List Nat
  deriving DecidableEq, Repr

namespace Worklist

/-- The last target is looked at first. -/
def start (edges : List (List Nat)) (targets : List Nat) : Worklist where
  kept := List.replicate edges.length false
  todo := targets.reverse

/-- Looks at one node. If it is new, it is kept, and its dependencies are put on top, the last of
them first. -/
def step (edges : List (List Nat)) (w : Worklist) : Option Worklist :=
  match w.todo with
  | [] => none
  | node :: todo =>
    if w.kept[node]? = some false then
      some ⟨w.kept.set node true, (dependenciesOf edges node).reverse ++ todo⟩
    else some { w with todo := todo }

def left (w : Worklist) : Nat × Nat := (w.kept.count false, w.todo.length)

theorem left_lt {edges : List (List Nat)} {w w' : Worklist} (h : w.step edges = some w') :
    Prod.Lex (· < ·) (· < ·) w'.left w.left := by
  obtain ⟨kept, todo⟩ := w
  cases todo with
  | nil => cases h
  | cons node todo =>
    simp only [step] at h
    split at h
    · next hf =>
      cases h
      exact .left _ _ (count_set_lt hf (by decide))
    · cases h
      exact .right _ (by simp)

theorem wellFounded_step (edges : List (List Nat)) :
    WellFounded fun after before : Worklist => before.step edges = some after :=
  Subrelation.wf (fun h => left_lt h)
    (InvImage.wf left (Prod.lex ⟨_, Nat.lt_wfRel.wf⟩ Nat.lt_wfRel).wf)

def run (edges : List (List Nat)) (w : Worklist) : Worklist :=
  match _h : w.step edges with
  | some w' => run edges w'
  | none => w
termination_by w.left
decreasing_by exact left_lt _h

end Worklist

/-- The targets and all nodes that one of them depends on, directly or not. -/
def needed (edges : List (List Nat)) (targets : List Nat) : List Nat :=
  let last := (Worklist.start edges targets).run edges
  (List.range edges.length).filter fun node => last.kept[node]? = some true

end InferenceGraph.Order
