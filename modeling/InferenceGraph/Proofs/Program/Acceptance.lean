import InferenceGraph.Proofs.Program.Layouts
import InferenceGraph.Proofs.Registry

set_option autoImplicit false

namespace InferenceGraph

variable {ε : Type} [Extension ε]

namespace Topology

def Valid (t : Topology ε) : Prop := ∀ p ∈ t.primitives, p.validate = .ok ()

instance (t : Topology ε) : Decidable t.Valid :=
  inferInstanceAs (Decidable (∀ p ∈ t.primitives, p.validate = .ok ()))

/-- Every part is checked after those above it. Layouts are only asked for where they are kept. -/
structure Acceptable (t : Topology ε) (o : CompileOptions) : Prop where
  valid : t.Valid
  closed : t.Closed
  acyclic : t.Acyclic
  requestable : t.Requestable o
  layouts : ∀ id, t.Kept o id → ∃ layout, t.layoutOf id = some layout

/-- The first part that does not hold, and what is reported about it. -/
inductive Violation (t : Topology ε) (o : CompileOptions) : GraphError → Prop
  | invalid {before after : List (Primitive ε)} {p : Primitive ε} {e : GraphError}
      (hp : t.primitives = before ++ p :: after) (hb : ∀ q ∈ before, q.validate = .ok ())
      (he : p.validate = .error e)
      (hid : (∃ fault, e = .invalidParameter p.id fault) ∨
        ∃ fault, e = .layoutIncompatible p.id fault) : Violation t o e
  | unresolved {p : Primitive ε} {missing : PrimitiveId} (hv : t.Valid) (hp : p ∈ t.primitives)
      (hd : missing ∈ p.dependencies) (hm : missing ∉ t.ids) :
      Violation t o (.unresolvedDependency p.id missing)
  | cyclic {names : List PrimitiveId} (hv : t.Valid) (hc : t.Closed)
      (hn : Order.IsCycle t.DependsOn names) : Violation t o (.graphCycle names)
  | unknown {targets : List PrimitiveId} {id : PrimitiveId} (hv : t.Valid) (hc : t.Closed)
      (ha : t.Acyclic) (ho : o.outputs = some targets) (hid : id ∈ targets) (hm : id ∉ t.ids) :
      Violation t o (.unknownPrimitive id)
  | incompatible {p : Primitive ε} {layouts : List Layout} {fault : LayoutFault} (hv : t.Valid)
      (hc : t.Closed) (ha : t.Acyclic) (hr : t.Requestable o) (hp : p ∈ t.primitives)
      (hk : t.Kept o p.id) (hl : p.dependencies.map t.layoutOf = layouts.map some)
      (he : p.layoutFrom layouts = .error (.error (.layoutIncompatible p.id fault))) :
      Violation t o (.layoutIncompatible p.id fault)

variable {t : Topology ε} {o : CompileOptions}

theorem Violation.not_acceptable {e : GraphError} (h : t.Violation o e) : ¬ t.Acceptable o := by
  intro ha
  cases h with
  | invalid hp hb he =>
    rw [ha.valid _ (by simp [hp])] at he
    cases he
  | unresolved _ hp hd hm => exact hm (ha.closed _ hp _ hd)
  | cyclic _ _ hn => exact hn.not_acyclic ha.acyclic
  | unknown _ _ _ ho hid hm => exact hm (ha.requestable _ ho _ hid)
  | incompatible _ _ _ _ hp hk hl he =>
    obtain ⟨layout, hs⟩ := ha.layouts _ hk
    obtain ⟨layouts, hl', hs⟩ := (layoutOf_eq_some_iff ha.acyclic hp).1 hs
    rw [hl] at hl'
    have hinj : Function.Injective (List.map (some : Layout → Option Layout)) :=
      List.map_injective_iff.2 fun _ _ h => Option.some.inj h
    rw [hinj hl', hs] at he
    cases he

end Topology

namespace Program

variable {r : Registry ε} {t : Topology ε} {o : CompileOptions} {first p : Program ε}

theorem resolve_error {nodes : List (Node ε)} (hp : nodes.map Node.primitive = t.primitives)
    {n : Node ε} {e : GraphError}
    (he : Node.resolve (Node.indexOf nodes) n = .error e) :
    ∃ missing ∈ n.primitive.dependencies, missing ∉ t.ids ∧
      e = .unresolvedDependency n.id missing := by
  obtain ⟨before, missing, after, hd, -, he⟩ := mapM_eq_error he
  refine ⟨missing, by simp [hd], ?_⟩
  have hids : nodes.map Node.id = t.ids := by
    rw [Topology.ids, ← hp, List.map_map]
    rfl
  rw [Node.indexOf_eq_zipIdx, hids] at he
  cases hl : t.ids.zipIdx.lookup missing with
  | some number => simp [hl] at he
  | none =>
    simp only [hl, Except.error.injEq] at he
    refine ⟨fun hm => ?_, he.symm⟩
    obtain ⟨i, hi⟩ := List.mem_iff_getElem?.1 hm
    have hs : t.ids.zipIdx.lookup missing = some i := (lookup_zipIdx_eq_some_iff t.ids_nodup).2 hi
    rw [hl] at hs
    cases hs

variable [DecidableEq ε]

theorem valid_of_initial (h : initial r t = .ok first) : t.Valid := by
  intro q hq
  rw [← primitives_of_initial h] at hq
  obtain ⟨n, hn, rfl⟩ := List.mem_map.1 hq
  exact (created_of_initial h n hn).valid

theorem exists_type (hr : r.Reachable) (hk : ∀ k ∈ Kind.builtins, k ∈ r.kinds) {q : Primitive ε}
    (hq : q.kind.isBuiltin = true) : ∃ type, r.typeOfPrimitive q = .ok type ∧
      Node.ofPrimitive type q = do
        Outcome.ofExcept q.validate
        return ⟨q, type, [], [], none, false⟩ := by
  obtain ⟨type, ht, hkind⟩ := hr.exists_typeOfPrimitive (hk _ ((Kind.mem_builtins_iff _).2 hq))
  exact ⟨type, ht, Node.ofPrimitive_eq hkind⟩

theorem ofTopology_nodes_error (hr : r.Reachable) (hk : ∀ k ∈ Kind.builtins, k ∈ r.kinds)
    (hb : t.Builtin) {f : Failure} (h : Node.ofTopology r t = .error f) :
    ∃ e, f = .error e ∧ t.Violation o e := by
  obtain ⟨before, q, after, hp, hbefore, he⟩ := mapM_eq_error h
  have hq := hb q (by simp [hp])
  obtain ⟨type, ht, hn⟩ := exists_type hr hk hq
  rw [ht, Outcome.ofExcept, ok_bind, hn] at he
  obtain he | ⟨_, -, he⟩ := bind_eq_error_iff.1 he
  · obtain ⟨e, hv, rfl⟩ := Outcome.ofExcept_eq_error_iff.1 he
    refine ⟨e, rfl, .invalid hp (fun q' hq' => ?_) hv (Primitive.validate_error hq hv)⟩
    obtain ⟨n, hn⟩ := hbefore q' hq'
    obtain ⟨type', ht', hn'⟩ := exists_type hr hk (hb q' (by simp [hp, hq']))
    rw [ht', Outcome.ofExcept, ok_bind, hn'] at hn
    obtain ⟨_, hv', -⟩ := bind_eq_ok_iff.1 hn
    exact Outcome.ofExcept_eq_ok_iff.1 hv'
  · cases he

theorem initial_error (hr : r.Reachable) (hk : ∀ k ∈ Kind.builtins, k ∈ r.kinds)
    (hb : t.Builtin) {f : Failure} (h : initial r t = .error f) :
    ∃ e, f = .error e ∧ t.Violation o e := by
  obtain h | ⟨nodes, hn, h⟩ := bind_eq_error_iff.1 h
  · exact ofTopology_nodes_error hr hk hb h
  · obtain h | ⟨linked, -, h⟩ := bind_eq_error_iff.1 h
    · obtain ⟨e, hc, rfl⟩ := Outcome.ofExcept_eq_error_iff.1 h
      obtain ⟨hp, hcreated⟩ := Node.created_of_ofTopology hn
      obtain hc | ⟨_, -, hc⟩ := bind_eq_error_iff.1 hc
      · obtain ⟨before, n, after, hns, -, he⟩ := mapM_eq_error hc
        have hmem : n ∈ nodes := by simp [hns]
        obtain ⟨missing, hd, hm, rfl⟩ := resolve_error hp he
        refine ⟨_, rfl, .unresolved (fun q hq => ?_) (hp ▸ List.mem_map_of_mem hmem) hd hm⟩
        rw [← hp] at hq
        obtain ⟨m, hm, rfl⟩ := List.mem_map.1 hq
        exact (hcreated m hm).valid
      · cases hc
    · cases h

theorem ofTopology_error_of_initial (hi : initial r t = .ok first) (hb : t.Builtin) {f : Failure}
    (h : ofTopology r t o = .error f) : ∃ e, f = .error e ∧ t.Violation o e := by
  have hl := linked_of_initial hi
  have hp := primitives_of_initial hi
  have hv := valid_of_initial hi
  have hc := hl.closed hp
  rw [ofTopology, hi, ok_bind] at h
  obtain hs | ⟨second, hs, h⟩ := bind_eq_error_iff.1 h
  · obtain ⟨names, rfl, hn⟩ | ⟨ha, targets, id, hout, hid, hm, rfl⟩ := sorted_error hl hp hs
    · exact ⟨_, rfl, .cyclic hv hc hn⟩
    · exact ⟨_, rfl, .unknown hv hc ha hout hid hm⟩
  · obtain ⟨kept, outputs, hto⟩ := sortedTo_of_sorted hl hp hs
    have hl2 := hto.arranged.linked hto.keepable hl
    obtain ⟨n, hn, layouts, hls, he⟩ := layoutFrom_of_infer_error hl2
      (hto.arranged.ordered hto.sorted) hb hto.acyclic (hto.kind_eq hi) h
    have hq := hl2.primitive n hn
    have hlen : layouts.length = n.primitive.dependencies.length := by
      simpa using (congrArg List.length hls).symm
    obtain ⟨layout, hok⟩ | ⟨fault, hf⟩ :=
      Primitive.answers_layoutFrom (hb _ hq) (hv _ hq) hlen
    · cases hok.symm.trans he
    · obtain rfl := Except.error.inj (hf.symm.trans he)
      have hk := (hto.mem_ids_iff (ids_of_primitives hp) hc).1 (List.mem_map_of_mem hn)
      exact ⟨_, rfl, .incompatible hv hc hto.acyclic hto.requestable hq hk hls hf⟩

/-- The programs between the stages: inference only gets to see what is kept. -/
theorem ofTopology_eq_infer {second : Program ε} (hi : initial r t = .ok first)
    (hs : first.sorted o = .ok second) :
    ofTopology r t o = second.infer ∧ ∀ id, id ∈ second.ids ↔ t.Kept o id := by
  have hp := primitives_of_initial hi
  have hl := linked_of_initial hi
  obtain ⟨kept, outputs, hto⟩ := sortedTo_of_sorted hl hp hs
  refine ⟨by rw [ofTopology, hi, ok_bind, hs, ok_bind], fun id => ?_⟩
  exact hto.mem_ids_iff (ids_of_initial hi) (hl.closed hp)

theorem acceptable_of_ofTopology (hb : t.Builtin) (h : ofTopology r t o = .ok p) :
    t.Acceptable o := by
  obtain ⟨first, second, kept, outputs, hp⟩ := passes_of_ofTopology h
  have hl := linked_of_initial hp.initial
  have hto := hp.sortedTo
  have hl2 := hto.arranged.linked hto.keepable hl
  have hc := hl.closed (primitives_of_initial hp.initial)
  refine ⟨valid_of_initial hp.initial, hc, hto.acyclic, hto.requestable, fun id hk => ?_⟩
  obtain ⟨i, n, hn, rfl⟩ := exists_node ((hto.mem_ids_iff (ids_of_initial hp.initial) hc).2 hk)
  obtain ⟨layout, -, hlayout⟩ := hp.inferredTo.hasLayout hl2 (hto.arranged.ordered hto.sorted)
    hb hto.acyclic (List.getElem?_eq_some_iff.1 hn).1 n hn
  exact ⟨layout, hlayout⟩

theorem exists_ofTopology (hi : initial r t = .ok first) (hb : t.Builtin) (ha : t.Acceptable o) :
    ∃ q, ofTopology r t o = .ok q := by
  cases h : ofTopology r t o with
  | ok q => exact ⟨q, rfl⟩
  | error f =>
    obtain ⟨e, -, hv⟩ := ofTopology_error_of_initial hi hb h
    exact absurd ha hv.not_acceptable

theorem exists_initial (hr : r.Reachable) (hk : ∀ k ∈ Kind.builtins, k ∈ r.kinds)
    (hb : t.Builtin) (ha : t.Acceptable o) : ∃ first, initial r t = .ok first := by
  cases hi : initial r t with
  | ok first => exact ⟨first, rfl⟩
  | error f =>
    obtain ⟨e, -, hv⟩ := initial_error (o := o) hr hk hb hi
    exact absurd ha hv.not_acceptable

/-- Compilation accepts exactly the acceptable topologies, never breaches, asks no layout rule of
what is not kept, and otherwise reports the first violation. -/
theorem ofTopology_accepts (hr : r.Reachable) (hk : ∀ k ∈ Kind.builtins, k ∈ r.kinds)
    (hb : t.Builtin) (o : CompileOptions) :
    ((∃ p, ofTopology r t o = .ok p) ↔ t.Acceptable o) ∧
      (∀ first second, initial r t = .ok first → first.sorted o = .ok second →
        ofTopology r t o = second.infer ∧ ∀ id, id ∈ second.ids ↔ t.Kept o id) ∧
      ∀ f, ofTopology r t o = .error f → ∃ e, f = .error e ∧ t.Violation o e := by
  refine ⟨⟨fun ⟨p, hp⟩ => acceptable_of_ofTopology hb hp, fun ha => ?_⟩,
    fun first second hi hs => ofTopology_eq_infer hi hs, fun f hf => ?_⟩
  · obtain ⟨first, hi⟩ := exists_initial hr hk hb ha
    exact exists_ofTopology hi hb ha
  · cases hi : initial r t with
    | ok first => exact ofTopology_error_of_initial hi hb hf
    | error f' =>
      rw [ofTopology, hi, error_bind, Except.error.injEq] at hf
      exact hf ▸ initial_error hr hk hb hi

end Program

namespace Topology

def source : PrimitiveId := ⟨"source", by decide, by decide⟩
def copy : PrimitiveId := ⟨"copy", by decide, by decide⟩
def spare : PrimitiveId := ⟨"spare", by decide, by decide⟩

/-- A copy of an input in another format, and a spare copy of the copy. -/
def copies : Topology Empty where
  primitives :=
    [.ofParams copy [source] .reorder (Reorder.mk .yxfb .float32),
      .ofParams source [] .inputLayout (InputLayout.mk (.unpadded .float32 .bfyx ⟨1, 1, 1, 2⟩)),
      .ofParams spare [copy] .reorder (Reorder.mk .bfyx .float32)]
  ids_nodup := by decide

theorem acceptable_copies {o : CompileOptions} (hr : copies.Requestable o) :
    copies.Acceptable o := by
  have ha : copies.Acyclic :=
    acyclic_of_rank (fun id => if id = spare then 2 else if id = copy then 1 else 0) (by decide)
  have hc : copies.Closed := by decide
  refine ⟨by decide, hc, ha, hr, fun id hk => ?_⟩
  have hl : ∀ p ∈ copies.primitives, (copies.layoutOf p.id).isSome := by
    rw [← List.all_eq_true]
    cbv
  obtain ⟨p, hp, rfl⟩ := List.mem_map.1 (hk.mem_ids hc hr)
  exact Option.isSome_iff_exists.1 (hl p hp)

theorem exists_program_copies {o : CompileOptions} (hr : copies.Requestable o) :
    ∃ p, Program.ofTopology .standard copies o = .ok p := by
  have hb : copies.Builtin := by decide
  have ha := acceptable_copies hr
  obtain ⟨first, hi⟩ := Program.exists_initial Registry.reachable_standard (fun _ hk => hk) hb ha
  exact Program.exists_ofTopology hi hb ha

end Topology

theorem Program.ofTopology_accepts_copies :
    ∃ p, ofTopology .standard Topology.copies ⟨some [Topology.copy], false⟩ = .ok p :=
  (ofTopology_accepts Registry.reachable_standard (fun _ hk => hk) (by decide) _).1.2
    (Topology.acceptable_copies fun targets ht id hid => by
      cases ht
      obtain rfl := List.mem_singleton.1 hid
      decide)

end InferenceGraph
