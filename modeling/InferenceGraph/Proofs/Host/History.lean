import InferenceGraph.Proofs.Host.Results

set_option autoImplicit false

namespace InferenceGraph

variable {ε : Type} [Extension ε]

inductive Call (ε : Type) [Extension ε] where
  | setInput (id : PrimitiveId) (values : List Float32)
  | run
  | setDispatcher (d : HostDispatcher ε)

variable [DecidableEq ε] {r : Registry ε} {t : Topology ε} {o : CompileOptions} {p : Program ε}
variable {x : HostNetwork ε} {data : InputData} {calls : List (Call ε)}
variable {values : List (PrimitiveId × List Float32)}

namespace Call

/-- Dispatchers may lack kernels, but the kernels that they have are the builtin ones. -/
def Usual : Call ε → Prop
  | .setDispatcher d => Kernel.Partial d.kernels
  | _ => True

/-- What a call makes of a network and of the values set last for its inputs. -/
def apply : HostNetwork ε × InputData → Call ε → HostNetwork ε × InputData
  | (x, data), .setInput id values =>
    match x.bindValues id values with
    | .ok y => (y, data.set id values)
    | .error _ => (x, data)
  | (x, data), .run => (x.run.2, data)
  | (x, data), .setDispatcher d => ({ x with dispatcher := d }, data)

end Call

namespace HostNetwork

def after (x : HostNetwork ε) (calls : List (Call ε)) : HostNetwork ε × InputData :=
  calls.foldl Call.apply (x, fun _ => none)

/-- What calls preserve: a sound network with builtin kernels only. -/
structure Live (p : Program ε) (state : HostNetwork ε × InputData) : Prop where
  sound : state.1.network.Sound p state.2
  kernels : Kernel.Partial state.1.dispatcher.kernels

theorem Live.apply (hc : p.Compiled t) {state : HostNetwork ε × InputData} (h : Live p state)
    {c : Call ε} (hu : c.Usual) : Live p (c.apply state) := by
  obtain ⟨x, data⟩ := state
  cases c with
  | setInput id values =>
    rw [Call.apply]
    split
    · next y hy =>
      obtain ⟨hs, hd⟩ := bindValues_ok hc h.sound hy
      exact ⟨hs, hd ▸ h.kernels⟩
    · exact h
  | run => exact ⟨sound_of_run hc h.sound h.kernels, h.kernels⟩
  | setDispatcher d => exact ⟨h.sound, hu⟩

theorem Live.foldl (hc : p.Compiled t) {state : HostNetwork ε × InputData} (h : Live p state)
    (hu : ∀ c ∈ calls, c.Usual) : Live p (calls.foldl Call.apply state) := by
  induction calls generalizing state with
  | nil => exact h
  | cons c calls ih =>
    have hs := h.apply hc (hu c (by simp))
    exact ih hs fun d hd => hu d (by simp [hd])

theorem exists_ofProgram (hb : t.Builtin) (hp : Program.ofTopology r t o = .ok p) :
    ∃ x, ofProgram p = .ok x := by
  obtain ⟨n, hn, -⟩ := Network.sound_of_ofProgram (Program.compiled_of_ofTopology hb hp)
  exact ⟨⟨n, .standard⟩, by rw [ofProgram, hn]; rfl⟩

theorem network_of_ofProgram (hx : ofProgram p = .ok x) :
    Network.ofProgram p .host = .ok x.network := by
  obtain ⟨n, hn, hx⟩ := bind_eq_ok_iff.1 hx
  obtain rfl := Except.ok.inj hx
  exact hn

theorem dispatcher_of_ofProgram (hx : ofProgram p = .ok x) :
    x.dispatcher = .standard := by
  obtain ⟨n, -, hx⟩ := bind_eq_ok_iff.1 hx
  obtain rfl := Except.ok.inj hx
  rfl

theorem isSome_apply {state : HostNetwork ε × InputData} {id : PrimitiveId}
    (h : (state.2 id).isSome) (c : Call ε) : ((c.apply state).2 id).isSome := by
  obtain ⟨x, data⟩ := state
  cases c with
  | setInput other values =>
    rw [Call.apply]
    split
    · by_cases he : id = other
      · simp [InputData.set, he]
      · simpa [InputData.set, he] using h
    · exact h
  | run => exact h
  | setDispatcher d => exact h

theorem isSome_foldl {state : HostNetwork ε × InputData} {id : PrimitiveId}
    (h : (state.2 id).isSome) (calls : List (Call ε)) :
    ((calls.foldl Call.apply state).2 id).isSome := by
  induction calls generalizing state with
  | nil => exact h
  | cons c calls ih => exact ih (isSome_apply h c)

theorem exists_bindInput_of_bindValues {y : HostNetwork ε} {id : PrimitiveId}
    {values : List Float32} (h : x.bindValues id values = .ok y) : ∃ b : HostBuffer,
      x.network.bindInput id (.fresh (.host b)) = .ok y.network ∧ y.dispatcher = x.dispatcher := by
  obtain ⟨index, -, h⟩ := bind_eq_ok_iff.1 h
  obtain ⟨layout, -, h⟩ := bind_eq_ok_iff.1 h
  split at h
  · cases h
  · split at h
    · cases h
    · obtain ⟨buffer, -, h⟩ := bind_eq_ok_iff.1 h
      obtain ⟨n, hn, h⟩ := bind_eq_ok_iff.1 h
      obtain rfl := Except.ok.inj h
      exact ⟨buffer, hn, rfl⟩

theorem kernels_apply {c : Call ε} (hc : ∀ d, c ≠ .setDispatcher d)
    (state : HostNetwork ε × InputData) :
    (c.apply state).1.dispatcher.kernels = state.1.dispatcher.kernels := by
  obtain ⟨x, data⟩ := state
  cases c with
  | setInput other values =>
    rw [Call.apply]
    split
    · next y hy =>
      obtain ⟨b, -, hd⟩ := exists_bindInput_of_bindValues hy
      exact congrArg HostDispatcher.kernels hd
    · rfl
  | run => rfl
  | setDispatcher d => exact absurd rfl (hc d)

theorem kernels_foldl (hc : ∀ c ∈ calls, ∀ d, c ≠ .setDispatcher d)
    (state : HostNetwork ε × InputData) :
    (calls.foldl Call.apply state).1.dispatcher.kernels = state.1.dispatcher.kernels := by
  induction calls generalizing state with
  | nil => rfl
  | cons c calls ih =>
    exact (ih (fun d hd => hc d (by simp [hd])) _).trans (kernels_apply (hc c (by simp)) state)

theorem kernels_after (hx : ofProgram p = .ok x) (hc : ∀ c ∈ calls, ∀ d, c ≠ .setDispatcher d) :
    (x.after calls).1.dispatcher.kernels = Kernel.builtins :=
  (kernels_foldl hc _).trans (congrArg HostDispatcher.kernels (dispatcher_of_ofProgram hx))

theorem live_after (hb : t.Builtin) (hp : Program.ofTopology r t o = .ok p)
    (hx : ofProgram p = .ok x) (hu : ∀ c ∈ calls, c.Usual) : Live p (x.after calls) := by
  have hc := Program.compiled_of_ofTopology hb hp
  obtain ⟨n, hn, hs⟩ := Network.sound_of_ofProgram hc
  obtain rfl := Except.ok.inj ((network_of_ofProgram hx).symm.trans hn)
  have hstart : Live p (x, fun _ => none) :=
    ⟨hs, dispatcher_of_ofProgram hx ▸ Kernel.partial_builtins⟩
  exact hstart.foldl hc hu

theorem exists_after_setInput (hb : t.Builtin) (hp : Program.ofTopology r t o = .ok p)
    (hx : ofProgram p = .ok x) {id : PrimitiveId} (hid : id ∈ p.ids)
    (hk : ∀ q ∈ t.primitives, q.id = id → q.kind = .inputLayout) {placed : Placed}
    (hr : t.resultOf data id = some placed) : ∃ y, x.bindValues id placed.2 = .ok y ∧
      x.after [.setInput id placed.2] = (y, InputData.set (fun _ => none) id placed.2) ∧
        y.dispatcher = .standard := by
  have hc := Program.compiled_of_ofTopology hb hp
  have hl : Live p (x.after []) := live_after hb hp hx (by simp)
  obtain ⟨m, hm, rfl⟩ := List.mem_map.1 hid
  obtain ⟨y, hy⟩ :=
    exists_bindValues_of_result hc hl.sound hm (hk _ (hc.linked.primitive m hm) rfl) hr
  obtain ⟨-, hd⟩ := bindValues_ok hc hl.sound hy
  refine ⟨y, hy, ?_, hd.trans (dispatcher_of_ofProgram hx)⟩
  change Call.apply (x.after []) (.setInput m.id placed.2) = _
  rw [Call.apply, hy]
  rfl

theorem exists_live (hb : t.Builtin) (hx : ofTopology r t o = .ok x)
    (hu : ∀ c ∈ calls, c.Usual) :
    ∃ p, Program.ofTopology r t o = .ok p ∧ p.Compiled t ∧ Live p (x.after calls) := by
  obtain ⟨p, hp, hx⟩ := bind_eq_ok_iff.1 hx
  exact ⟨p, hp, Program.compiled_of_ofTopology hb hp, live_after hb hp hx hu⟩

end HostNetwork

namespace Topology

def pair : List Float32 := [1, 2]

theorem acyclic_copies : copies.Acyclic :=
  (acceptable_copies (o := .standard) fun _ h => by cases h).acyclic

theorem resultOf_source : copies.resultOf (InputData.set (fun _ => none) source pair) source =
    some (.unpadded .float32 .bfyx ⟨1, 1, 1, 2⟩, pair) :=
  (resultOf_eq_some_iff acyclic_copies (p := copies.primitives[1]) (by simp [copies])).2
    ⟨[], rfl, rfl⟩

theorem resultOf_copy : copies.resultOf (InputData.set (fun _ => none) source pair) copy =
    some (.unpadded .float32 .yxfb ⟨1, 1, 1, 2⟩, pair) :=
  (resultOf_eq_some_iff acyclic_copies (p := copies.primitives[0]) (by simp [copies])).2
    ⟨[(_, pair)], congrArg (fun placed => [placed]) resultOf_source, rfl⟩

theorem resultOf_spare : copies.resultOf (InputData.set (fun _ => none) source pair) spare =
    some (.unpadded .float32 .bfyx ⟨1, 1, 1, 2⟩, pair) :=
  (resultOf_eq_some_iff acyclic_copies (p := copies.primitives[2]) (by simp [copies])).2
    ⟨[(_, pair)], congrArg (fun placed => [placed]) resultOf_copy, rfl⟩

theorem resultOf_copies {p : Primitive Empty} (hp : p ∈ copies.primitives) :
    ∃ placed, copies.resultOf (InputData.set (fun _ => none) source pair) p.id = some placed := by
  have hid : ∀ p ∈ copies.primitives, p.id = source ∨ p.id = copy ∨ p.id = spare := by decide
  rcases hid p hp with h | h | h
  · exact ⟨_, (congrArg _ h).trans resultOf_source⟩
  · exact ⟨_, (congrArg _ h).trans resultOf_copy⟩
  · exact ⟨_, (congrArg _ h).trans resultOf_spare⟩

variable {o : CompileOptions} {x : HostNetwork Empty} {calls : List (Call Empty)}

theorem exists_host_copies (hr : copies.Requestable o) :
    ∃ x, HostNetwork.ofTopology .standard copies o = .ok x := by
  obtain ⟨p, hp⟩ := exists_program_copies hr
  obtain ⟨x, hx⟩ := HostNetwork.exists_ofProgram (by decide) hp
  exact ⟨x, bind_eq_ok_iff.2 ⟨p, hp, hx⟩⟩

theorem exists_bindValues_copies (hx : HostNetwork.ofTopology .standard copies o = .ok x)
    (hs : copies.Kept o source) (hu : ∀ c ∈ calls, c.Usual) :
    ∃ y, (x.after calls).1.bindValues source pair = .ok y := by
  obtain ⟨p, hp, hc, hl⟩ := HostNetwork.exists_live (by decide) hx hu
  obtain ⟨m, hm, hid⟩ := List.mem_map.1 ((Program.ids_iff_of_ofTopology hp).2 hs)
  have hkind : ∀ q ∈ copies.primitives, q.id = source → q.kind = .inputLayout := by decide
  have hb := HostNetwork.exists_bindValues_of_result hc hl.sound hm
    (hkind _ (hc.linked.primitive m hm) hid) ((congrArg _ hid).trans resultOf_source)
  rw [hid] at hb
  exact hb

def interrupted : List (Call Empty) :=
  [.run, .setDispatcher .empty, .setInput source pair, .run, .setDispatcher .standard]

theorem usual_interrupted : ∀ c ∈ interrupted, c.Usual := by
  have he : Kernel.Partial (HostDispatcher.empty : HostDispatcher Empty).kernels :=
    fun name kernel hl => by cases hl
  simp [interrupted, Call.Usual, he, HostDispatcher.standard, Kernel.partial_builtins]

theorem after_interrupted (hx : HostNetwork.ofTopology .standard copies o = .ok x)
    (hs : copies.Kept o source) :
    (x.after interrupted).2 = InputData.set (fun _ => none) source pair ∧
      (x.after interrupted).1.dispatcher = .standard := by
  obtain ⟨y, hy⟩ := exists_bindValues_copies hx hs fun c hc =>
    usual_interrupted c ((List.take_sublist 2 interrupted).subset hc)
  have hset : x.after (interrupted.take 3) = (y, InputData.set (fun _ => none) source pair) := by
    change Call.apply (x.after (interrupted.take 2)) (.setInput source pair) = _
    rw [Call.apply, hy]
    rfl
  change ((interrupted.drop 3).foldl Call.apply (x.after (interrupted.take 3))).2 = _ ∧
    ((interrupted.drop 3).foldl Call.apply (x.after (interrupted.take 3))).1.dispatcher = _
  rw [hset]
  exact ⟨rfl, rfl⟩

theorem exists_run_interrupted (hx : HostNetwork.ofTopology .standard copies o = .ok x)
    (hs : copies.Kept o source) : ∃ values, (x.after interrupted).1.run.1 = .ok values := by
  obtain ⟨p, hp, hc, hl⟩ := HostNetwork.exists_live (by decide) hx usual_interrupted
  obtain ⟨hdata, hd⟩ := after_interrupted hx hs
  refine HostNetwork.exists_run hc hl.sound (by rw [hd]; rfl) fun m hm => ?_
  rw [hdata]
  exact resultOf_copies (hc.linked.primitive m hm)

end Topology

end InferenceGraph
