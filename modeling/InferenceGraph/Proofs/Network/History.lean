import InferenceGraph.Proofs.Network.Binding

set_option autoImplicit false

namespace InferenceGraph.Network

variable {ε : Type} [Extension ε] [DecidableEq ε] {r : Registry ε} {t : Topology ε}
variable {o : CompileOptions} {p : Program ε} {allocator : Allocator} {n : Network ε}
variable {fed : List PrimitiveId}

/-- What a network goes through: calls that set inputs, and runs with any dispatchers. -/
inductive Operation (ε : Type) [Extension ε] : Type 1 where
  | setInput (id : PrimitiveId) (source : Source)
  | run {σ τ : Type} (d : Dispatcher ε σ τ) (s : σ)

/-- What an operation makes of a network and of the inputs set so far, whatever becomes of it. -/
def Operation.apply : Network ε × List PrimitiveId → Operation ε → Network ε × List PrimitiveId
  | (n, fed), .setInput id source =>
    match n.bindInput id source with
    | .ok n => (n, id :: fed)
    | .error _ => (n, fed)
  | (n, fed), .run d s => ((n.run d s).2.1, fed)

def after (n : Network ε) (operations : List (Operation ε)) : Network ε × List PrimitiveId :=
  operations.foldl Operation.apply (n, [])

theorem Intact.apply (hr : p.Ready t) {state : Network ε × List PrimitiveId}
    (h : state.1.Intact p state.2) (operation : Operation ε) :
    (operation.apply state).1.Intact p (operation.apply state).2 := by
  obtain ⟨n, fed⟩ := state
  cases operation with
  | run d s => exact h.run d s
  | setInput id source =>
    rw [Operation.apply]
    split
    · next hb => exact h.bindInput hr hb
    · exact h

theorem Intact.foldl (hr : p.Ready t) {state : Network ε × List PrimitiveId}
    (h : state.1.Intact p state.2) (operations : List (Operation ε)) :
    (operations.foldl Operation.apply state).1.Intact p
      (operations.foldl Operation.apply state).2 := by
  induction operations generalizing state with
  | nil => exact h
  | cons operation operations ih => exact ih (h.apply hr operation)

theorem intact_after (hr : p.Ready t) (hn : ofProgram p allocator = .ok n)
    (operations : List (Operation ε)) :
    (n.after operations).1.Intact p (n.after operations).2 :=
  (intact_of_ofProgram hr hn).foldl hr operations

/-- What becomes of setting an input, check by check. -/
structure SetsInput (p : Program ε) (n : Network ε) (id : PrimitiveId) (source : Source) :
    Prop where
  unknown : id ∉ p.ids → n.bindInput id source = .fail (.unknownPrimitive id)
  notAnInput : ∀ m ∈ p.nodes, m.id = id → m.primitive.kind ≠ .inputLayout →
    n.bindInput id source = .fail (.notAnInput id)
  mismatch : ∀ m ∈ p.nodes, m.id = id → m.primitive.kind = .inputLayout →
    ∀ layout, m.layout? = some layout → layout.same source.layout = false →
      n.bindInput id source = .fail (.inputLayoutMismatch id layout source.layout)
  success_iff : (∃ n', n.bindInput id source = .ok n') ↔ ∃ m ∈ p.nodes, m.id = id ∧
    m.primitive.kind = .inputLayout ∧
      ∃ layout, m.layout? = some layout ∧ layout.same source.layout = true
  rebinds : ∀ n', n.bindInput id source = .ok n' → n'.program = n.program ∧
    ∃ (k : Nat) (i : Instance) (memory : Memory), n.instances[k]? = some i ∧ i.id = id ∧
      n'.instances = n.instances.set k { i with output := memory, hasData := true } ∧
        memory.layout = source.layout ∧ ∀ shared, source = .shared shared → memory = shared

theorem Intact.setsInput (hr : p.Ready t) (h : n.Intact p fed) (id : PrimitiveId)
    (source : Source) : n.SetsInput p id source := by
  constructor
  case unknown => exact fun hid => h.bindInput_unknown hr hid source
  case notAnInput =>
    rintro m hm rfl hk
    obtain ⟨k, hm⟩ := List.mem_iff_getElem?.1 hm
    obtain ⟨layout, hl⟩ := hr.hasLayout m (List.mem_of_getElem? hm)
    obtain ⟨i, hi, -⟩ := h.exists_instance hm
    rw [h.bindInput_eq hr hm hl hi, if_neg hk]
  case mismatch =>
    rintro m hm rfl hk layout hl hs
    obtain ⟨k, hm⟩ := List.mem_iff_getElem?.1 hm
    obtain ⟨i, hi, -⟩ := h.exists_instance hm
    rw [h.bindInput_eq hr hm hl hi, if_pos hk, if_neg (by simp [hs])]
  case success_iff =>
    constructor
    · rintro ⟨n', hb⟩
      obtain ⟨k, m, layout, hm, hid, hk, hl, hs⟩ := h.exists_node_of_bindInput hr hb
      exact ⟨m, List.mem_of_getElem? hm, hid, hk, layout, hl, hs⟩
    · rintro ⟨m, hm, rfl, hk, layout, hl, hs⟩
      obtain ⟨k, hm⟩ := List.mem_iff_getElem?.1 hm
      obtain ⟨i, hi, -⟩ := h.exists_instance hm
      exact ⟨_, by rw [h.bindInput_eq hr hm hl hi, if_pos hk, if_pos hs]⟩
  case rebinds =>
    intro n' hb
    obtain ⟨k, m, layout, hm, rfl, hk, hl, hs⟩ := h.exists_node_of_bindInput hr hb
    obtain ⟨i, hi, hserves⟩ := h.exists_instance hm
    rw [h.bindInput_eq hr hm hl hi, if_pos hk, if_pos hs] at hb
    cases hb
    refine ⟨rfl, k, i, _, hi, hserves.id, rfl, ?_, ?_⟩
    · cases source <;> simp [place, Source.layout]
    · rintro shared rfl
      rfl

def Operation.Rebinds (n : Network ε) : Operation ε → Prop
  | .setInput id source => ∃ n', n.bindInput id source = .ok n'
  | .run _ _ => False

theorem Operation.instances_apply {state : Network ε × List PrimitiveId} {operation : Operation ε}
    (h : ¬ operation.Rebinds state.1) : (operation.apply state).1.instances = state.1.instances ∧
      (operation.apply state).2 = state.2 := by
  obtain ⟨n, fed⟩ := state
  cases operation with
  | run d s => exact ⟨instances_run n d s, rfl⟩
  | setInput id source =>
    rw [apply]
    split
    · next n' hb => exact absurd ⟨n', hb⟩ h
    · exact ⟨rfl, rfl⟩

/-- Whatever a network goes through, its instances are those of the nodes of its program, in order,
each with a buffer of the inferred layout; those with data are the inputs that were set and all that
are no inputs. The checks of a further call decide what becomes of it, and no operation that fails
and no run binds anything. -/
theorem instances_after (hp : Program.ofTopology r t o = .ok p)
    (hn : ofProgram p allocator = .ok n) (operations : List (Operation ε)) :
    (n.after operations).1.Intact p (n.after operations).2 ∧
      (n.after operations).1.ids = p.ids ∧
      (∀ i ∈ (n.after operations).1.instances, ∀ d ∈ i.dependencies, d < i.index) ∧
      (∀ id source, (n.after operations).1.SetsInput p id source) ∧
      ∀ operation : Operation ε, ¬ operation.Rebinds (n.after operations).1 →
        (operation.apply (n.after operations)).1.instances = (n.after operations).1.instances ∧
          (operation.apply (n.after operations)).2 = (n.after operations).2 := by
  have hr := Program.ready_of_ofTopology hp
  have h := intact_after hr hn operations
  refine ⟨h, h.mirrored.ids_eq, ?_, fun id source => h.setsInput hr id source,
    fun _ => Operation.instances_apply⟩
  intro i hi d hd
  obtain ⟨k, hk⟩ := List.mem_iff_getElem?.1 hi
  obtain ⟨m, hm, hs⟩ := h.serving k i hk
  rw [hs.index]
  exact h.mirrored.dependencies_lt hr hk d hd

def attempts : List (Operation Empty) :=
  let buffer := Source.fresh (.elsewhere (.unpadded .float32 .bfyx ⟨1, 1, 1, 2⟩))
  [.setInput Topology.copy buffer,
    .run (fun _ (_ : List Unit) s => (.fail (.missingKernel "reorder"), s)) (),
    .setInput Topology.source buffer]

theorem instances_after_attempts :
    ∃ (p : Program Empty) (n : Network Empty),
      Program.ofTopology .standard Topology.copies .standard = .ok p ∧ ofProgram p .host = .ok n ∧
        (n.after attempts).1.Intact p (n.after attempts).2 := by
  obtain ⟨p, hp⟩ := Topology.exists_program_copies (o := .standard) fun _ h => by cases h
  obtain ⟨n, hn, -⟩ := sound_of_ofProgram (Program.compiled_of_ofTopology (by decide) hp)
  exact ⟨p, n, hp, hn, (instances_after hp hn attempts).1⟩

end InferenceGraph.Network
