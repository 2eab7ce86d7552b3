import InferenceGraph.Proofs.Order.Search
import InferenceGraph.Proofs.Program.Ordering

/-!
# The search by recursion

The processing order as a plain recursion: a node is visited after its dependencies, along a path
of the nodes whose visits have not ended. The search with a stack of its own comes to the same
order, or to the same cycle. What is left of a search, its frames from the innermost outwards and
then the roots, is what is left of the recursion, and no step changes what that comes to.
-/

set_option autoImplicit false

namespace InferenceGraph.Order

def offPath (edges : List (List Nat)) (path : List Nat) : Nat :=
  ((List.range edges.length).filter fun node => node ∉ path).length

theorem offPath_lt {edges : List (List Nat)} {path : List Nat} {node : Nat}
    (hlt : node < edges.length) (hn : node ∉ path) :
    offPath edges (path ++ [node]) < offPath edges path := by
  have he : ((List.range edges.length).filter fun i => i ∉ path ++ [node]) =
      ((List.range edges.length).filter fun i => i ∉ path).filter fun i => i ≠ node := by
    rw [List.filter_filter]
    refine List.filter_congr fun i _ => ?_
    simp [and_comm]
  rw [offPath, offPath, he]
  refine List.length_filter_lt_length_iff_exists.2 ⟨node, ?_, by simp⟩
  simpa using ⟨hlt, hn⟩

/-- Visits a node at the end of a path, with the nodes finished before. Its dependencies are visited
first, in the order they are declared, and a node of the path closes a cycle: the path from that
node on, and the node again. What is finished, or does not exist, is passed over. -/
def visit (edges : List (List Nat)) (path order : List Nat) (node : Nat) :
    Except (List Nat) (List Nat) :=
  if node ∈ order ∨ edges.length ≤ node then .ok order
  else if node ∈ path then .error (path.dropWhile (· ≠ node) ++ [node])
  else do
    let order ← (dependenciesOf edges node).foldlM (visit edges (path ++ [node])) order
    return order ++ [node]
termination_by offPath edges path
decreasing_by exact offPath_lt (by omega) ‹_›

def byRecursion (edges : List (List Nat)) : Except (List Nat) (List Nat) :=
  (List.range edges.length).foldlM (visit edges []) []

section Visit

variable {edges : List (List Nat)} {path order : List Nat} {node : Nat}

theorem visit_passed (h : node ∈ order ∨ edges.length ≤ node) :
    visit edges path order node = .ok order := by
  rw [visit, if_pos h]

theorem visit_path (ho : node ∉ order) (hlt : node < edges.length) (hp : node ∈ path) :
    visit edges path order node = .error (path.dropWhile (· ≠ node) ++ [node]) := by
  rw [visit, if_neg (not_or.2 ⟨ho, Nat.not_le.2 hlt⟩), if_pos hp]

theorem visit_fresh (ho : node ∉ order) (hlt : node < edges.length) (hp : node ∉ path) :
    visit edges path order node = do
      let order ← (dependenciesOf edges node).foldlM (visit edges (path ++ [node])) order
      return order ++ [node] := by
  rw [visit, if_neg (not_or.2 ⟨ho, Nat.not_le.2 hlt⟩), if_neg hp]

end Visit

theorem drop_idxOf? {path : List Nat} {node : Nat} (h : node ∈ path) :
    path.drop ((path.idxOf? node).getD 0) = path.dropWhile (· ≠ node) := by
  induction path with
  | nil => cases h
  | cons first path ih =>
    by_cases hf : first = node
    · simp [List.idxOf?_cons, hf]
    · have hm : node ∈ path := (List.mem_cons.1 h).resolve_left (Ne.symm hf)
      obtain ⟨place, hp⟩ := Option.isSome_iff_exists.1 (List.isSome_idxOf?.2 hm)
      have ih := ih hm
      rw [hp] at ih
      simpa [List.idxOf?_cons, hf, hp] using ih

namespace Search

variable {edges : List (List Nat)} {s s' : Search} {node : Nat} {pending : List Nat}

/-- The pending dependencies of the innermost frame, that frame itself, the frames below it, and then
the roots. -/
def unwind (edges : List (List Nat)) (roots : List Nat) :
    (stack : List Frame) → (order : List Nat) → Except (List Nat) (List Nat)
  | [], order => roots.foldlM (visit edges []) order
  | ⟨node, pending⟩ :: below, order => do
    let path := (below.map Frame.node).reverse ++ [node]
    let order ← pending.foldlM (visit edges path) order
    unwind edges roots below (order ++ [node])

/-- What the recursion makes of what is left of a search. -/
def rest (edges : List (List Nat)) (s : Search) : Except (List Nat) (List Nat) :=
  unwind edges s.roots s.stack s.order

theorem cycleAt_eq (h : node ∈ s.path) :
    s.cycleAt node = s.path.dropWhile (· ≠ node) ++ [node] := by
  rw [cycleAt, drop_idxOf? h]

/-- The visit of the innermost node goes on, and then what it was called from. -/
theorem rest_enter (s : Search) (node : Nat) :
    (s.enter edges node).rest edges = (do
      let order ← (dependenciesOf edges node).foldlM (visit edges (s.path ++ [node])) s.order
      unwind edges s.roots s.stack (order ++ [node])) := rfl

theorem rest_root {root : Nat} {roots : List Nat} (hs : s.stack = [])
    (hr : s.roots = root :: roots) : s.rest edges =
      visit edges ({ s with roots := roots } : Search).path s.order root >>=
        unwind edges roots s.stack := by
  simp only [rest, path, hs, hr, unwind, List.foldlM_cons]
  rfl

theorem rest_dependency {dep : Nat} {below : List Frame}
    (hs : s.stack = ⟨node, dep :: pending⟩ :: below) : s.rest edges =
      visit edges ({ s with stack := ⟨node, pending⟩ :: below } : Search).path s.order dep >>=
        unwind edges s.roots (⟨node, pending⟩ :: below) := by
  simp only [rest, path, hs, unwind, List.foldlM_cons, List.map_cons, List.reverse_cons, bind_assoc]

theorem rest_finish {below : List Frame} (hs : s.stack = ⟨node, []⟩ :: below) :
    (s.finish node below).rest edges = s.rest edges := by
  rw [rest, rest, hs]
  rfl

end Search

variable {edges : List (List Nat)} {s s' : Search} {node : Nat}

/-- The marks are those of the nodes, and they say where each node is. -/
structure Charted (edges : List (List Nat)) (s : Search) : Prop extends Marked s where
  length : s.marks.length = edges.length

namespace Charted

variable (h : Charted edges s)
include h

theorem visit_fresh (hf : s.marks[node]? = some .fresh) :
    visit edges s.path s.order node >>= Search.unwind edges s.roots s.stack =
      (s.enter edges node).rest edges := by
  have hpath : node ∉ s.path := fun hm => by simp [(h.visiting node).2 hm] at hf
  have horder : node ∉ s.order := fun hm => by simp [(h.finished node).2 hm] at hf
  have hlt := h.length ▸ (List.getElem?_eq_some_iff.1 hf).1
  rw [Order.visit_fresh horder hlt hpath, Search.rest_enter, bind_assoc]
  rfl

theorem visit_path (hv : s.marks[node]? = some .visiting) :
    visit edges s.path s.order node = .error (s.cycleAt node) := by
  have hpath : node ∈ s.path := (h.visiting node).1 hv
  have horder : node ∉ s.order := fun hm => by simp [(h.finished node).2 hm] at hv
  have hlt := h.length ▸ (List.getElem?_eq_some_iff.1 hv).1
  rw [Order.visit_path horder hlt hpath, Search.cycleAt_eq hpath]

theorem visit_passed (hf : s.marks[node]? ≠ some .fresh) (hv : s.marks[node]? ≠ some .visiting) :
    visit edges s.path s.order node = .ok s.order := by
  refine Order.visit_passed ?_
  rw [← h.finished, ← h.length, ← List.getElem?_eq_none_iff]
  cases hm : s.marks[node]? with
  | none => exact .inr rfl
  | some mark =>
    cases mark with
    | fresh => exact absurd hm hf
    | visiting => exact absurd hm hv
    | finished => exact .inl rfl

theorem look (hv : s.marks[node]? ≠ some .visiting) {next : Search}
    (hn : next = if s.marks[node]? = some .fresh then s.enter edges node else s) :
    Charted edges next ∧ next.rest edges =
      visit edges s.path s.order node >>= Search.unwind edges s.roots s.stack := by
  subst hn
  split
  · next hf => exact ⟨⟨h.toMarked.enter hf, by simpa using h.length⟩, (h.visit_fresh hf).symm⟩
  · next hf => exact ⟨h, by rw [h.visit_passed hf hv]; rfl⟩

theorem next {dep : Nat} {pending : List Nat} {below : List Frame}
    (hs : s.stack = ⟨node, dep :: pending⟩ :: below) :
    Charted edges { s with stack := ⟨node, pending⟩ :: below } := by
  have hp : Search.path { s with stack := ⟨node, pending⟩ :: below } = s.path := by
    simp [Search.path, hs]
  exact ⟨h.toMarked.of_path rfl rfl hp, h.length⟩

end Charted

/-- A step keeps what the recursion makes of what is left. -/
theorem Charted.step (h : Charted edges s) (hs : s.step edges = .inl s') :
    Charted edges s' ∧ s'.rest edges = s.rest edges := by
  simp only [Search.step] at hs
  split at hs
  · next hstack =>
    split at hs
    · cases hs
    · next root roots hroots =>
      have hl : Charted edges { s with roots := roots } := ⟨h.toMarked.of_path rfl rfl rfl, h.length⟩
      have hv : s.marks[root]? ≠ some .visiting := fun hm => by
        simpa [Search.path, hstack] using (h.visiting root).1 hm
      rw [Search.rest_root hstack hroots]
      exact hl.look hv (Sum.inl.inj hs).symm
  · next node below hstack =>
    obtain rfl := Sum.inl.inj hs
    exact ⟨⟨h.toMarked.finish hstack, by simpa using h.length⟩, Search.rest_finish hstack⟩
  · next node dep pending below hstack =>
    have hl := h.next hstack
    rw [Search.rest_dependency hstack]
    split at hs
    · next hf => exact hl.look (by simp [hf]) (by simp [hf, Sum.inl.inj hs])
    · cases hs
    · next hf hv => exact hl.look hv (by rw [if_neg hf]; exact (Sum.inl.inj hs).symm)

theorem Charted.result {result : Except (List Nat) (List Nat)} (h : Charted edges s)
    (hs : s.step edges = .inr result) : s.rest edges = result := by
  simp only [Search.step] at hs
  split at hs
  · next hstack =>
    split at hs
    · next hroots =>
      rw [Search.rest, hstack, hroots]
      exact Sum.inr.inj hs
    · cases hs
  · cases hs
  · next node dep pending below hstack =>
    have hl := h.next hstack
    split at hs
    · cases hs
    · next hv =>
      rw [Search.rest_dependency hstack, hl.visit_path hv]
      exact Sum.inr.inj hs
    · cases hs

theorem charted_start (edges : List (List Nat)) : Charted edges (.start edges) :=
  ⟨searching_start.toMarked, searching_start.length⟩

theorem Charted.run (h : Charted edges s) : s.run edges = s.rest edges := by
  fun_induction Search.run edges s with
  | case1 s s' hs ih =>
    obtain ⟨hcharted, hrest⟩ := h.step hs
    exact (ih hcharted).trans hrest
  | case2 s result hs => exact (h.result hs).symm

/-- The search with a stack of its own is the recursion. -/
theorem ofEdges_eq_byRecursion (edges : List (List Nat)) : ofEdges edges = byRecursion edges :=
  (charted_start edges).run

example : byRecursion [[], [0], [1, 4], [2], [3]] = .error [2, 4, 3, 2] := by cbv

end InferenceGraph.Order

namespace InferenceGraph.Program

variable {ε : Type} [Extension ε]

theorem exists_nodes_iff (p : Program ε) {numbers : List Nat} {names : List PrimitiveId} :
    (∃ nodes, numbers.mapM p.node = .ok nodes ∧ nodes.map Node.id = names) ↔
      numbers.map (p.ids[·]?) = names.map some := by
  have hnodes {nodes : List (Node ε)} :
      numbers.mapM p.node = .ok nodes ↔ numbers.map (p.nodes[·]?) = nodes.map some :=
    mapM_eq_ok_iff_of_option fun i n => by simp [node]
  have hids : numbers.map (p.ids[·]?) = (numbers.map (p.nodes[·]?)).map (Option.map Node.id) := by
    simp [Function.comp_def, getElem?_ids]
  simp only [hnodes, hids]
  constructor
  · rintro ⟨nodes, hn, rfl⟩
    rw [hn]
    simp
  · intro hm
    obtain ⟨nodes, hn⟩ : ∃ nodes : List (Node ε), numbers.map (p.nodes[·]?) = nodes.map some := by
      refine exists_map_some fun i hi => ?_
      have hs := List.mem_map_of_mem (f := fun i : Nat => (p.nodes[i]?).map Node.id) hi
      simp only [List.map_map, Function.comp_def] at hm
      rw [hm] at hs
      obtain ⟨name, -, hname⟩ := List.mem_map.1 hs
      obtain ⟨n, hn, -⟩ := Option.map_eq_some_iff.1 hname.symm
      exact ⟨n, hn⟩
    refine ⟨nodes, hn, map_some_injective ?_⟩
    rw [← hm, hn]
    simp

/-- A program finds the order, or reports the cycle by the ids of its nodes, that the recursion comes
to on its edges. -/
theorem order_byRecursion (p : Program ε) :
    Order.ofEdges p.edges = Order.byRecursion p.edges ∧
      (∀ order, p.order = .ok order ↔ Order.byRecursion p.edges = .ok order) ∧
      ∀ names, p.order = .fail (.graphCycle names) ↔
        ∃ cycle, Order.byRecursion p.edges = .error cycle ∧
          cycle.map (p.ids[·]?) = names.map some := by
  have hsearch := Order.ofEdges_eq_byRecursion p.edges
  rw [← hsearch, Program.order]
  cases Order.ofEdges p.edges with
  | ok order => simp [Outcome.fail]
  | error cycle =>
    simp only [← p.exists_nodes_iff, Except.error.injEq, exists_eq_left', true_and]
    cases hn : cycle.mapM p.node with
    | ok nodes => simp [Outcome.fail]
    | error f =>
      -- A number without a node is a breach, which no cycle is reported by.
      obtain ⟨-, i, -, -, -, hi⟩ := mapM_eq_error hn
      obtain ⟨-, rfl⟩ := Outcome.get_eq_error_iff.1 hi
      simp [Outcome.fail]

end InferenceGraph.Program
