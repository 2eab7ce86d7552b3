import InferenceGraph.Program.Order
import InferenceGraph.Proofs.Sequence
import Mathlib.Data.List.Chain
import Mathlib.Data.List.Nodup
import Mathlib.Data.List.Perm.Basic
import Mathlib.Logic.Relation

/-!
# Correctness of the processing order

The search keeps every node in one of three places: not met, on the stack, or finished. The frames
of the stack are a path of dependencies, so a dependency met again on the stack closes a cycle; the
finished nodes stand after their dependencies, so a search that ends gives a processing order. The
two outcomes exclude each other, and one of them is reached on every graph.
-/

set_option autoImplicit false

namespace InferenceGraph.Order

/-- A way along a relation from an element back to itself that meets no other element twice. The
element stands at both ends. -/
def IsCycle {α : Type} (r : α → α → Prop) (cycle : List α) : Prop :=
  ∃ first rest, cycle = first :: (rest ++ [first]) ∧ (first :: rest).Nodup ∧ cycle.IsChain r

def Acyclic {α : Type} (r : α → α → Prop) : Prop := ∀ a, ¬ Relation.TransGen r a a

theorem transGen_of_isChain {α : Type} {r : α → α → Prop} {a b : α} {rest : List α}
    (h : (a :: (rest ++ [b])).IsChain r) : Relation.TransGen r a b := by
  induction rest generalizing a with
  | nil => exact .single (by simpa using h)
  | cons c rest ih =>
    rw [List.cons_append, List.isChain_cons_cons] at h
    exact .head h.1 (ih h.2)

theorem IsCycle.not_acyclic {α : Type} {r : α → α → Prop} {cycle : List α}
    (h : IsCycle r cycle) : ¬ Acyclic r := by
  obtain ⟨first, rest, rfl, -, hc⟩ := h
  exact fun ha => ha first (transGen_of_isChain hc)

theorem IsCycle.exists_next {α : Type} {r : α → α → Prop} {cycle : List α} {a : α}
    (h : IsCycle r cycle) (ha : a ∈ cycle) : ∃ b, r a b := by
  obtain ⟨first, rest, rfl, -, hc⟩ := h
  have hm : a ∈ first :: rest := by
    rw [← List.cons_append, List.mem_append, List.mem_singleton] at ha
    exact ha.elim id fun ha => ha ▸ List.mem_cons_self
  obtain ⟨before, after, he⟩ := List.append_of_mem hm
  rw [← List.cons_append, he, List.append_assoc] at hc
  have hc := (List.isChain_append.1 hc).2.1
  cases after with
  | nil => exact ⟨first, by simpa using hc⟩
  | cons b after =>
    rw [List.cons_append, List.cons_append, List.isChain_cons_cons] at hc
    exact ⟨b, hc.1⟩

/-- Every node stands after its dependencies. -/
def Sorted (deps : Nat → List Nat) (order : List Nat) : Prop :=
  ∀ i node, order[i]? = some node → ∀ d ∈ deps node, d ∈ order.take i

variable {deps : Nat → List Nat} {order : List Nat}

theorem Sorted.nil : Sorted deps [] := by
  intro i node h
  simp at h

theorem Sorted.snoc {node : Nat} (h : Sorted deps order) (hd : ∀ d ∈ deps node, d ∈ order) :
    Sorted deps (order ++ [node]) := by
  intro i m hm d hdm
  rcases Nat.lt_or_ge i order.length with hi | hi
  · rw [List.getElem?_append_left hi] at hm
    rw [List.take_append_of_le_length (by omega)]
    exact h i m hm d hdm
  · rw [List.getElem?_append_right hi] at hm
    obtain ⟨hi, rfl⟩ : i - order.length = 0 ∧ node = m := by
      cases hj : i - order.length <;> simp_all
    have hi : i = order.length := by omega
    subst hi
    simpa using hd d hdm

/-- A dependency stands at a smaller place than the node that has it. -/
theorem Sorted.idxOf_lt {node d : Nat} (h : Sorted deps order) (hn : node ∈ order)
    (hd : d ∈ deps node) : order.idxOf d < order.idxOf node := by
  have hi := List.idxOf_lt_length_iff.2 hn
  have ht := h (order.idxOf node) node (by simp [hi]) d hd
  exact (List.mem_take_iff_idxOf_lt (List.mem_of_mem_take ht)).1 ht

theorem Sorted.acyclic (h : Sorted deps order)
    (hm : ∀ a, deps a ≠ [] → a ∈ order) : Acyclic fun a b => b ∈ deps a := by
  intro a ha
  have hlt : ∀ b, Relation.TransGen (fun a b => b ∈ deps a) a b →
      order.idxOf b < order.idxOf a := by
    intro b hb
    induction hb with
    | single hb => exact h.idxOf_lt (hm a (List.ne_nil_of_mem hb)) hb
    | tail _ hb ih =>
      rename_i b c _
      have := h.idxOf_lt (hm b (List.ne_nil_of_mem hb)) hb
      omega
  exact Nat.lt_irrefl _ (hlt a ha)

/-- What the frames below a node know: it is a dependency of the frame next to it, whose other
dependencies are finished or pending, and so on down. -/
def Below (deps : Nat → List Nat) (order : List Nat) : (above : Nat) → List Frame → Prop
  | _, [] => True
  | above, ⟨node, pending⟩ :: below =>
    above ∈ deps node ∧ (∀ d ∈ deps node, d ∈ order ∨ d ∈ pending ∨ d = above) ∧
      (∀ d ∈ pending, d ∈ deps node) ∧ Below deps order node below

def Tracks (deps : Nat → List Nat) (order : List Nat) : List Frame → Prop
  | [] => True
  | ⟨node, pending⟩ :: below =>
    (∀ d ∈ deps node, d ∈ order ∨ d ∈ pending) ∧ (∀ d ∈ pending, d ∈ deps node) ∧
      Below deps order node below

theorem Below.mono {above node : Nat} {stack : List Frame} (h : Below deps order above stack) :
    Below deps (order ++ [node]) above stack := by
  induction stack generalizing above with
  | nil => trivial
  | cons f below ih =>
    obtain ⟨ha, hd, hp, hb⟩ := h
    refine ⟨ha, ?_, hp, ih hb⟩
    intro d hm
    rcases hd d hm with h | h
    · exact .inl (by simp [h])
    · exact .inr h

theorem Tracks.root {root : Nat} : Tracks deps order [⟨root, deps root⟩] :=
  ⟨fun _ hm => .inr hm, fun _ hm => hm, trivial⟩

theorem Tracks.finish {node : Nat} {below : List Frame}
    (h : Tracks deps order (⟨node, []⟩ :: below)) : Tracks deps (order ++ [node]) below := by
  obtain ⟨-, -, hb⟩ := h
  cases below with
  | nil => trivial
  | cons f below =>
    obtain ⟨-, hd, hp, hb⟩ := hb
    refine ⟨?_, hp, hb.mono⟩
    intro d hm
    rcases hd d hm with h | h | rfl
    · exact .inl (by simp [h])
    · exact .inr h
    · exact .inl (by simp)

theorem Tracks.enter {node dep : Nat} {pending : List Nat} {below : List Frame}
    (h : Tracks deps order (⟨node, dep :: pending⟩ :: below)) :
    Tracks deps order (⟨dep, deps dep⟩ :: ⟨node, pending⟩ :: below) := by
  obtain ⟨hd, hi, hb⟩ := h
  refine ⟨fun d hm => .inr hm, fun d hm => hm, hi dep (by simp), ?_, ?_, hb⟩
  · intro d hm
    rcases hd d hm with h | h
    · exact .inl h
    · rcases List.mem_cons.1 h with rfl | h
      · exact .inr (.inr rfl)
      · exact .inr (.inl h)
  · exact fun d hm => hi d (by simp [hm])

theorem Tracks.skip {node dep : Nat} {pending : List Nat} {below : List Frame}
    (h : Tracks deps order (⟨node, dep :: pending⟩ :: below)) (ho : dep ∈ order) :
    Tracks deps order (⟨node, pending⟩ :: below) := by
  obtain ⟨hd, hi, hb⟩ := h
  refine ⟨?_, fun d hm => hi d (by simp [hm]), hb⟩
  intro d hm
  rcases hd d hm with h | h
  · exact .inl h
  · rcases List.mem_cons.1 h with rfl | h
    · exact .inl ho
    · exact .inr h

theorem Below.isChain {above : Nat} {stack : List Frame} (h : Below deps order above stack) :
    (above :: stack.map Frame.node).IsChain fun a b => a ∈ deps b := by
  induction stack generalizing above with
  | nil => simp
  | cons f below ih =>
    obtain ⟨ha, -, -, hb⟩ := h
    simp only [List.map_cons, List.isChain_cons_cons]
    exact ⟨ha, ih hb⟩

theorem isCycle_of_path {r : Nat → Nat → Prop} {path : List Nat} {node : Nat}
    (hc : path.IsChain r) (hu : path.Nodup) (hm : node ∈ path)
    (hl : ∀ last ∈ path.getLast?, r last node) :
    IsCycle r (path.drop ((path.idxOf? node).getD 0) ++ [node]) := by
  obtain ⟨i, hi⟩ := List.mem_iff_getElem?.1 hm
  have hidx : path.idxOf? node = some i := (idxOf?_eq_some_iff_of_nodup hu).2 hi
  obtain ⟨hlt, hnode⟩ := List.getElem?_eq_some_iff.1 hi
  -- The cycle is the path from the place of the node to its end.
  have hd : path.drop i = node :: path.drop (i + 1) := by
    rw [List.drop_eq_getElem_cons hlt, hnode]
  have hs : (node :: path.drop (i + 1)) <:+ path := hd ▸ List.drop_suffix i path
  rw [hidx, Option.getD_some, hd]
  refine ⟨node, path.drop (i + 1), rfl, hu.sublist hs.sublist, ?_⟩
  rw [List.isChain_append]
  refine ⟨hc.suffix hs, by simp, ?_⟩
  intro last hlast dep hdep
  obtain rfl : node = dep := by simpa using hdep
  refine hl last ?_
  rwa [← List.take_append_drop i path, hd, List.getLast?_append_of_ne_nil _ (by simp)]

theorem Tracks.isChain {s : Search} (h : Tracks deps order s.stack) :
    s.path.IsChain fun a b => b ∈ deps a := by
  rw [Search.path, List.isChain_reverse]
  cases hs : s.stack with
  | nil => simp
  | cons f below =>
    rw [hs] at h
    exact h.2.2.isChain

structure Marked (s : Search) : Prop where
  visiting : ∀ i : Nat, s.marks[i]? = some .visiting ↔ i ∈ s.path
  finished : ∀ i : Nat, s.marks[i]? = some .finished ↔ i ∈ s.order
  nodup_path : s.path.Nodup
  nodup_order : s.order.Nodup

variable {edges : List (List Nat)} {s s' : Search}

theorem getElem?_set_eq_some_iff {α : Type} {marks : List α} {node i : Nat} {mark other : α}
    (h : node < marks.length) : (marks.set node mark)[i]? = some other ↔
      node = i ∧ mark = other ∨ node ≠ i ∧ marks[i]? = some other := by
  rw [List.getElem?_set]
  by_cases hi : node = i
  · subst hi
    simp [h]
  · simp [hi]

theorem of_getElem?_set {marks : List Mark} {node i : Nat} {mark other : Mark}
    (hne : mark ≠ other) (h : (marks.set node mark)[i]? = some other) :
    i ≠ node ∧ marks[i]? = some other := by
  rw [List.getElem?_set] at h
  split at h
  · split at h <;> simp_all
  · exact ⟨Ne.symm ‹_›, h⟩

theorem Marked.enter (h : Marked s) {node : Nat} (hf : s.marks[node]? = some .fresh) :
    Marked (s.enter edges node) := by
  have hlt := (List.getElem?_eq_some_iff.1 hf).1
  have hpath : node ∉ s.path := fun hm => by simp [(h.visiting node).2 hm] at hf
  have horder : node ∉ s.order := fun hm => by simp [(h.finished node).2 hm] at hf
  constructor
  case visiting =>
    intro i
    rw [Search.marks_enter, getElem?_set_eq_some_iff hlt, h.visiting, Search.path_enter]
    grind
  case finished =>
    intro i
    rw [Search.marks_enter, getElem?_set_eq_some_iff hlt, h.finished, Search.order_enter]
    grind
  case nodup_path =>
    rw [Search.path_enter, List.nodup_append]
    exact ⟨h.nodup_path, by simp, fun a ha b hb => by grind⟩
  case nodup_order => exact h.nodup_order

theorem Marked.finish (h : Marked s) {node : Nat} {pending : List Nat} {below : List Frame}
    (hs : s.stack = ⟨node, pending⟩ :: below) : Marked (s.finish node below) := by
  have he : s.path = (s.finish node below).path ++ [node] := by
    simp [Search.path, Search.finish, hs]
  have hv : s.marks[node]? = some .visiting := (h.visiting node).2 (by simp [he])
  have hlt := (List.getElem?_eq_some_iff.1 hv).1
  have horder : node ∉ s.order := fun hm => by simp [(h.finished node).2 hm] at hv
  have hpath := h.nodup_path
  rw [he, List.nodup_append] at hpath
  constructor
  case visiting =>
    intro i
    rw [Search.marks_finish, getElem?_set_eq_some_iff hlt, h.visiting, he]
    grind
  case finished =>
    intro i
    rw [Search.marks_finish, getElem?_set_eq_some_iff hlt, h.finished, Search.order_finish]
    grind
  case nodup_path => exact hpath.1
  case nodup_order =>
    rw [Search.order_finish, List.nodup_append]
    exact ⟨h.nodup_order, by simp, fun a ha b hb => by grind⟩

theorem Marked.of_path (h : Marked s) (hm : s'.marks = s.marks) (ho : s'.order = s.order)
    (hp : s'.path = s.path) : Marked s' := by
  obtain ⟨hv, hf, hnp, hno⟩ := h
  constructor
  case visiting => rwa [hm, hp]
  case finished => rwa [hm, ho]
  case nodup_path => rwa [hp]
  case nodup_order => rwa [ho]

theorem mem_dependenciesOf_iff {node d : Nat} :
    d ∈ dependenciesOf edges node ↔ ∃ es, edges[node]? = some es ∧ d ∈ es := by
  unfold dependenciesOf
  cases edges[node]? <;> simp

def Resolved (edges : List (List Nat)) : Prop := ∀ es ∈ edges, ∀ d ∈ es, d < edges.length

theorem Resolved.lt {node d : Nat} (h : Resolved edges) (hd : d ∈ dependenciesOf edges node) :
    d < edges.length := by
  obtain ⟨es, he, hd⟩ := mem_dependenciesOf_iff.1 hd
  exact h es (List.mem_of_getElem? he) d hd

theorem order_eq_of_step {result : List Nat} (hs : s.step edges = .inr (.ok result)) :
    s.stack = [] ∧ s.roots = [] ∧ s.order = result := by
  simp only [Search.step] at hs
  split at hs
  · split at hs <;> simp_all
  · cases hs
  · split at hs <;> cases hs

/-- The invariant of the search. A node is fresh only as long as it is to be tried as a root. -/
structure Searching (edges : List (List Nat)) (s : Search) : Prop extends Marked s where
  length : s.marks.length = edges.length
  fresh : ∀ i : Nat, s.marks[i]? = some .fresh → i ∈ s.roots
  sorted : Sorted (dependenciesOf edges) s.order
  tracks : Tracks (dependenciesOf edges) s.order s.stack

theorem searching_start : Searching edges (.start edges) := by
  refine ⟨⟨?_, ?_, ?_, ?_⟩, ?_, ?_, Sorted.nil, trivial⟩
  all_goals simp +contextual [Search.start, Search.path, List.getElem?_replicate]

namespace Searching

variable {node dep root : Nat} {pending roots : List Nat} {below : List Frame}
variable (h : Searching edges s)
include h

theorem place {i : Nat} (hi : i < edges.length) :
    s.marks[i]? = some .fresh ∨ i ∈ s.path ∨ i ∈ s.order := by
  obtain ⟨mark, hm⟩ : ∃ mark, s.marks[i]? = some mark :=
    ⟨_, List.getElem?_eq_getElem (h.length ▸ hi)⟩
  rw [← h.visiting, ← h.finished, hm]
  cases mark <;> simp

theorem enterRoot (hs : s.stack = []) (hroots : s.roots = root :: roots)
    (hf : s.marks[root]? = some .fresh) :
    Searching edges (({ s with roots := roots } : Search).enter edges root) := by
  have hm : Marked { s with roots := roots } := h.toMarked.of_path rfl rfl rfl
  refine ⟨hm.enter hf, by simpa using h.length, fun i hi => ?_, h.sorted, ?_⟩
  · obtain ⟨hne, hi⟩ := of_getElem?_set (by decide) hi
    exact (List.mem_cons.1 (hroots ▸ h.fresh i hi)).resolve_left hne
  · rw [Search.enter, hs]
    exact Tracks.root

theorem passRoot (hroots : s.roots = root :: roots) (hf : s.marks[root]? ≠ some .fresh) :
    Searching edges { s with roots := roots } := by
  refine ⟨h.toMarked.of_path rfl rfl rfl, h.length, fun i hi => ?_, h.sorted, h.tracks⟩
  refine (List.mem_cons.1 (hroots ▸ h.fresh i hi)).resolve_left ?_
  rintro rfl
  exact hf hi

theorem finish (hs : s.stack = ⟨node, []⟩ :: below) : Searching edges (s.finish node below) := by
  have ht := h.tracks
  rw [hs] at ht
  refine ⟨h.toMarked.finish hs, by simpa using h.length, fun i hi => ?_, ?_, ht.finish⟩
  · exact h.fresh i (of_getElem?_set (by decide) hi).2
  · exact h.sorted.snoc fun d hd => by simpa using ht.1 d hd

theorem look (hs : s.stack = ⟨node, dep :: pending⟩ :: below) :
    Marked { s with stack := ⟨node, pending⟩ :: below } := by
  refine h.toMarked.of_path rfl rfl ?_
  simp [Search.path, hs]

theorem enter (hs : s.stack = ⟨node, dep :: pending⟩ :: below)
    (hf : s.marks[dep]? = some .fresh) :
    Searching edges (({ s with stack := ⟨node, pending⟩ :: below } : Search).enter edges dep) := by
  have ht := h.tracks
  rw [hs] at ht
  refine ⟨(h.look hs).enter hf, by simpa using h.length, fun i hi => ?_, h.sorted, ht.enter⟩
  exact h.fresh i (of_getElem?_set (by decide) hi).2

theorem mem_order (hr : Resolved edges) (hs : s.stack = ⟨node, dep :: pending⟩ :: below)
    (hf : s.marks[dep]? ≠ some .fresh) (hv : s.marks[dep]? ≠ some .visiting) : dep ∈ s.order := by
  have ht := h.tracks
  rw [hs] at ht
  rcases h.place (hr.lt (ht.2.1 dep (by simp))) with hm | hm | hm
  · exact absurd hm hf
  · exact absurd ((h.visiting dep).2 hm) hv
  · exact hm

theorem skip (hr : Resolved edges) (hs : s.stack = ⟨node, dep :: pending⟩ :: below)
    (hf : s.marks[dep]? ≠ some .fresh) (hv : s.marks[dep]? ≠ some .visiting) :
    Searching edges { s with stack := ⟨node, pending⟩ :: below } := by
  have ht := h.tracks
  rw [hs] at ht
  exact ⟨h.look hs, h.length, h.fresh, h.sorted, ht.skip (h.mem_order hr hs hf hv)⟩

theorem step (hr : Resolved edges) (hs : s.step edges = .inl s') : Searching edges s' := by
  simp only [Search.step] at hs
  split at hs
  · next hstack =>
    split at hs
    · cases hs
    · next root roots hroots =>
      obtain rfl := Sum.inl.inj hs
      by_cases hf : s.marks[root]? = some .fresh
      · rw [if_pos hf]
        exact h.enterRoot hstack hroots hf
      · rw [if_neg hf]
        exact h.passRoot hroots hf
  · next hstack =>
    cases hs
    exact h.finish hstack
  · next hstack =>
    split at hs
    · next hf =>
      cases hs
      exact h.enter hstack hf
    · cases hs
    · next hf hv =>
      cases hs
      exact h.skip hr hstack hf hv

theorem order_ok {order : List Nat} (hs : s.step edges = .inr (.ok order)) :
    order.Perm (List.range edges.length) ∧ Sorted (dependenciesOf edges) order := by
  obtain ⟨hstack, hroots, rfl⟩ := order_eq_of_step hs
  refine ⟨?_, h.sorted⟩
  rw [List.perm_ext_iff_of_nodup h.nodup_order List.nodup_range]
  intro i
  rw [List.mem_range]
  constructor
  · intro hi
    exact h.length ▸ (List.getElem?_eq_some_iff.1 ((h.finished i).2 hi)).1
  · intro hi
    rcases h.place hi with hm | hm | hm
    · simpa [hroots] using h.fresh i hm
    · simp [Search.path, hstack] at hm
    · exact hm

theorem isCycle {cycle : List Nat} (hs : s.step edges = .inr (.error cycle)) :
    IsCycle (fun a b => b ∈ dependenciesOf edges a) cycle := by
  simp only [Search.step] at hs
  split at hs
  · split at hs <;> cases hs
  · cases hs
  · next node dep pending below hstack =>
    split at hs
    · cases hs
    · next hv =>
      obtain rfl := Except.error.inj (Sum.inr.inj hs)
      have ht := h.tracks
      have hm := h.look hstack
      refine isCycle_of_path ?_ hm.nodup_path ((hm.visiting dep).1 hv) ?_
      · have hp : Search.path { s with stack := ⟨node, pending⟩ :: below } = s.path := by
          simp [Search.path, hstack]
        exact hp ▸ ht.isChain
      · intro last hl
        obtain rfl : node = last := by simpa [Search.path] using hl
        rw [hstack] at ht
        exact ht.2.1 dep (by simp)
    · cases hs

end Searching

/-- What a search comes to after some steps. -/
def Reaches (edges : List (List Nat)) : Search → Search → Prop :=
  Relation.ReflTransGen fun s s' => s.step edges = .inl s'

theorem Reaches.searching (hr : Resolved edges) (h : Reaches edges s s')
    (hs : Searching edges s) : Searching edges s' := by
  induction h with
  | refl => exact hs
  | tail _ hstep ih => exact ih.step hr hstep

theorem exists_last_of_run (edges : List (List Nat)) (s : Search) :
    ∃ last, Reaches edges s last ∧ last.step edges = .inr (s.run edges) := by
  fun_induction Search.run edges s with
  | case1 s s' hs ih =>
    obtain ⟨last, hl, he⟩ := ih
    exact ⟨last, .head hs hl, he⟩
  | case2 s result hs => exact ⟨s, .refl, hs⟩

theorem ofEdges_ok {order : List Nat} (h : Resolved edges) (ho : ofEdges edges = .ok order) :
    order.Perm (List.range edges.length) ∧ Sorted (dependenciesOf edges) order := by
  obtain ⟨last, hl, he⟩ := exists_last_of_run edges (.start edges)
  exact (hl.searching h searching_start).order_ok (he.trans (congrArg Sum.inr ho))

theorem isCycle_of_ofEdges {cycle : List Nat} (h : Resolved edges)
    (ho : ofEdges edges = .error cycle) :
    IsCycle (fun a b => b ∈ dependenciesOf edges a) cycle := by
  obtain ⟨last, hl, he⟩ := exists_last_of_run edges (.start edges)
  exact (hl.searching h searching_start).isCycle (he.trans (congrArg Sum.inr ho))

theorem exists_order_iff (h : Resolved edges) :
    (∃ order, ofEdges edges = .ok order) ↔ Acyclic fun a b => b ∈ dependenciesOf edges a := by
  constructor
  · rintro ⟨order, ho⟩
    obtain ⟨hp, hs⟩ := ofEdges_ok h ho
    refine hs.acyclic fun a ha => hp.symm.subset ?_
    obtain ⟨d, hd⟩ := List.exists_mem_of_ne_nil _ ha
    obtain ⟨es, he, -⟩ := mem_dependenciesOf_iff.1 hd
    exact List.mem_range.2 (List.getElem?_eq_some_iff.1 he).1
  · intro ha
    cases ho : ofEdges edges with
    | ok order => exact ⟨order, rfl⟩
    | error cycle => exact absurd ha (isCycle_of_ofEdges h ho).not_acyclic

end InferenceGraph.Order
