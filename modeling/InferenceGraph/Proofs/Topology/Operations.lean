import InferenceGraph.Proofs.Sequence
import InferenceGraph.Topology
import Mathlib.Data.List.Nodup

/-!
# Topologies as lists of entries

What a topology goes through is what a list of entries would go through, each stored under the id of
its primitive and no id twice: a new entry comes last, a used id is refused, primitives that are
added together are kept up to the first whose id is used, and removing an entry closes the gap. All
that can be asked of the topology is what the list shows.
-/

set_option autoImplicit false

namespace InferenceGraph.Topology

variable {ε : Type} [Extension ε]

inductive Operation (ε : Type) [Extension ε] where
  | add (p : Primitive ε)
  | addAll (ps : List (Primitive ε))
  | addDescriptor (r : Registry ε) (d : Option (Descriptor ε))
  | remove (id : PrimitiveId)

inductive Answer (ε : Type) [Extension ε] where
  | added (result : Outcome Unit)
  | removed (p : Option (Primitive ε))

abbrev Entry (ε : Type) [Extension ε] := PrimitiveId × Primitive ε

def entryOf (p : Primitive ε) : Entry ε := (p.id, p)

def keys (es : List (Entry ε)) : List PrimitiveId := es.map Prod.fst

/-- Primitives that can be added after these entries: no id is stored, and none comes twice. -/
def Unused (es : List (Entry ε)) (ps : List (Primitive ε)) : Prop :=
  (ps.map Primitive.id).Nodup ∧ ∀ p ∈ ps, p.id ∉ keys es

variable [DecidableEq ε]

/-- What becomes of a list of entries, and what is answered. -/
inductive Listed : List (Entry ε) → Operation ε → Answer ε → List (Entry ε) → Prop
  | add {es : List (Entry ε)} {p : Primitive ε} (h : p.id ∉ keys es) :
    Listed es (.add p) (.added (.ok ())) (es ++ [(p.id, p)])
  | refuse {es : List (Entry ε)} {p : Primitive ε} (h : p.id ∈ keys es) :
    Listed es (.add p) (.added (.fail (.duplicatePrimitiveId p.id))) es
  | addAll {es : List (Entry ε)} {ps : List (Primitive ε)} (h : Unused es ps) :
    Listed es (.addAll ps) (.added (.ok ())) (es ++ ps.map entryOf)
  | addBefore {es : List (Entry ε)} {before : List (Primitive ε)} {p : Primitive ε}
      {rest : List (Primitive ε)} (h : Unused es before)
      (hp : p.id ∈ keys (es ++ before.map entryOf)) :
    Listed es (.addAll (before ++ p :: rest)) (.added (.fail (.duplicatePrimitiveId p.id)))
      (es ++ before.map entryOf)
  | addDescriptor {es es' : List (Entry ε)} {r : Registry ε} {d : Option (Descriptor ε)}
      {p : Primitive ε} {a : Answer ε} (hd : r.importPrimitive d = .ok p)
      (h : Listed es (.add p) a es') :
    Listed es (.addDescriptor r d) a es'
  | unreadable {es : List (Entry ε)} {r : Registry ε} {d : Option (Descriptor ε)} {f : Failure}
      (hd : r.importPrimitive d = .error f) :
    Listed es (.addDescriptor r d) (.added (.error f)) es
  | remove {before after : List (Entry ε)} {id : PrimitiveId} {p : Primitive ε} :
    Listed (before ++ (id, p) :: after) (.remove id) (.removed (some p)) (before ++ after)
  | absent {es : List (Entry ε)} {id : PrimitiveId} (h : id ∉ keys es) :
    Listed es (.remove id) (.removed none) es

inductive Listing : List (Entry ε) → List (Operation ε) → List (Answer ε) → List (Entry ε) → Prop
  | nil {es : List (Entry ε)} : Listing es [] [] es
  | cons {es es' es'' : List (Entry ε)} {operation : Operation ε} {a : Answer ε}
      {operations : List (Operation ε)} {answers : List (Answer ε)}
      (h : Listed es operation a es') (hs : Listing es' operations answers es'') :
    Listing es (operation :: operations) (a :: answers) es''

def apply (t : Topology ε) : Operation ε → Answer ε × Topology ε
  | .add p =>
    match t.add p with
    | .ok t => (.added (.ok ()), t)
    | .error e => (.added (.fail e), t)
  | .addAll ps => (.added (Outcome.ofExcept (t.addAll ps).2), (t.addAll ps).1)
  | .addDescriptor r d =>
    match t.addDescriptor r d with
    | .ok t => (.added (.ok ()), t)
    | .error f => (.added (.error f), t)
  | .remove id => (.removed (t.remove id).1, (t.remove id).2)

def run (t : Topology ε) : List (Operation ε) → List (Answer ε) × Topology ε
  | [] => ([], t)
  | operation :: operations =>
    let (a, t) := t.apply operation
    let (answers, t) := t.run operations
    (a :: answers, t)

omit [DecidableEq ε]

/-- All that can be asked of a topology, by a list of entries. -/
structure Shows (t : Topology ε) (es : List (Entry ε)) : Prop where
  primitives : t.primitives = es.map Prod.snd
  ids : t.ids = keys es
  size : t.size = es.length
  get? : ∀ id, t.get? id = es.lookup id
  contains : ∀ id, t.contains id = true ↔ id ∈ keys es
  keyed : ∀ e ∈ es, e.1 = e.2.id
  nodup : (keys es).Nodup

def entries (t : Topology ε) : List (Entry ε) := t.primitives.map entryOf

variable (t : Topology ε)

@[simp] theorem keys_entries : keys t.entries = t.ids := by
  simp [keys, entries, ids, entryOf, Function.comp_def]

theorem shows_entries : t.Shows t.entries := by
  constructor
  case primitives => simp [entries, entryOf, Function.comp_def]
  case ids => exact t.keys_entries.symm
  case size => simp [size, entries]
  case contains => simp [contains_iff]
  case keyed => simp [entries, entryOf]
  case nodup => exact t.keys_entries ▸ t.ids_nodup
  case get? =>
    intro id
    rw [get?, entries]
    induction t.primitives with
    | nil => rfl
    | cons p ps ih =>
      rw [List.find?_cons, List.map_cons, entryOf, List.lookup_cons, ih]
      by_cases hid : p.id = id
      · simp [hid]
      · have hne : (id == p.id) = false := beq_eq_false_iff_ne.2 (Ne.symm hid)
        simp [hid, hne]

variable {t} {t' : Topology ε} {p : Primitive ε} {ps : List (Primitive ε)} {id : PrimitiveId}

theorem add_of_mem (h : p.id ∈ keys t.entries) : t.add p = .error (.duplicatePrimitiveId p.id) := by
  rw [keys_entries] at h
  rw [add, dif_pos h]

theorem add_of_not_mem (h : p.id ∉ keys t.entries) :
    ∃ t', t.add p = .ok t' ∧ t'.entries = t.entries ++ [entryOf p] := by
  rw [keys_entries] at h
  exact ⟨t.push p h, by rw [add, dif_neg h], by simp [entries, push]⟩

theorem unused_cons {es : List (Entry ε)} (hp : p.id ∉ keys es) :
    Unused es (p :: ps) ↔ Unused (es ++ [entryOf p]) ps := by
  have hkeys : keys (es ++ [entryOf p]) = keys es ++ [p.id] := by simp [keys, entryOf]
  rw [Unused, Unused, hkeys, List.map_cons, List.nodup_cons]
  simp only [List.forall_mem_cons, List.mem_append, List.mem_singleton, not_or, List.mem_map,
    not_exists, not_and]
  constructor
  · rintro ⟨⟨hnew, hn⟩, -, hu⟩
    exact ⟨hn, fun q hq => ⟨hu q hq, fun he => hnew q hq he⟩⟩
  · rintro ⟨hn, hu⟩
    exact ⟨⟨fun q hq he => (hu q hq).2 he, hn⟩, hp, fun q hq => (hu q hq).1⟩

theorem addAll_cases (t : Topology ε) (ps : List (Primitive ε)) :
    Unused t.entries ps ∧ (t.addAll ps).2 = .ok () ∧
        (t.addAll ps).1.entries = t.entries ++ ps.map entryOf ∨
      ∃ before p rest, ps = before ++ p :: rest ∧ Unused t.entries before ∧
        p.id ∈ keys (t.entries ++ before.map entryOf) ∧
        (t.addAll ps).2 = .error (.duplicatePrimitiveId p.id) ∧
        (t.addAll ps).1.entries = t.entries ++ before.map entryOf := by
  induction ps generalizing t with
  | nil => exact .inl ⟨⟨List.nodup_nil, fun _ hp => nomatch hp⟩, rfl, by simp [addAll]⟩
  | cons p ps ih =>
    by_cases hp : p.id ∈ keys t.entries
    · refine .inr ⟨[], p, ps, rfl, ⟨List.nodup_nil, fun _ hp => nomatch hp⟩, by simpa using hp, ?_⟩
      simp [addAll, add_of_mem hp]
    · obtain ⟨t', ht, hentries⟩ := add_of_not_mem hp
      have happ : ∀ qs : List (Primitive ε),
          t'.entries ++ qs.map entryOf = t.entries ++ (p :: qs).map entryOf := by simp [hentries]
      have hall : t.addAll (p :: ps) = t'.addAll ps := by rw [addAll, ht]
      rw [hall]
      rcases ih t' with ⟨hu, hok, he⟩ | ⟨before, q, rest, rfl, hu, hq, herr, he⟩
      · exact .inl ⟨(unused_cons hp).2 (hentries ▸ hu), hok, by rw [he, happ]⟩
      · exact .inr ⟨p :: before, q, rest, rfl, (unused_cons hp).2 (hentries ▸ hu), by rwa [← happ],
          herr, by rw [he, happ]⟩

theorem exists_entry (h : t.get? id = some p) :
    ∃ before after, t.entries = before ++ (id, p) :: after ∧
      (t.remove id).2.entries = before ++ after := by
  obtain ⟨hp, rfl⟩ := (t.get?_eq_some_iff id p).1 h
  obtain ⟨before, after, hsplit⟩ := List.append_of_mem hp
  have hn := t.ids_nodup
  rw [hsplit, List.map_append, List.map_cons, List.nodup_append] at hn
  obtain ⟨-, hafter, hbefore⟩ := hn
  refine ⟨before.map entryOf, after.map entryOf, by simp [entries, hsplit, entryOf], ?_⟩
  have hb : before.filter (fun q => q.id ≠ p.id) = before := List.filter_eq_self.2 fun q hq =>
    decide_eq_true (hbefore _ (List.mem_map_of_mem hq) _ List.mem_cons_self)
  have ha : after.filter (fun q => q.id ≠ p.id) = after := List.filter_eq_self.2 fun q hq =>
    decide_eq_true fun he => (List.nodup_cons.1 hafter).1 (he ▸ List.mem_map_of_mem hq)
  change (t.primitives.filter fun q => q.id ≠ p.id).map entryOf = _
  rw [hsplit, List.filter_append, List.filter_cons_of_neg (by simp), hb, ha, List.map_append]

theorem remove_of_none (h : t.get? id = none) :
    id ∉ keys t.entries ∧ (t.remove id).2.entries = t.entries := by
  have hne : ∀ q ∈ t.primitives, q.id ≠ id := by simpa [get?] using h
  refine ⟨?_, ?_⟩
  · rw [keys_entries]
    intro hid
    obtain ⟨q, hq, he⟩ := List.mem_map.1 hid
    exact hne q hq he
  · change (t.primitives.filter fun q => q.id ≠ id).map entryOf = _
    rw [List.filter_eq_self.2 fun q hq => decide_eq_true (hne q hq)]
    rfl

theorem exists_moved (h : t.get? id = some p) :
    ∃ before after t', t.entries = before ++ (id, p) :: after ∧
      (t.remove id).2.add p = .ok t' ∧ t'.entries = before ++ after ++ [(id, p)] := by
  obtain ⟨before, after, hsplit, hremoved⟩ := exists_entry h
  obtain ⟨-, rfl⟩ := (t.get?_eq_some_iff id p).1 h
  have hn : (keys t.entries).Nodup := t.shows_entries.nodup
  have hnew : p.id ∉ keys (t.remove p.id).2.entries := by
    rw [hsplit, keys, List.map_append, List.map_cons, List.nodup_middle, List.nodup_cons] at hn
    rw [hremoved, keys, List.map_append]
    exact hn.1
  obtain ⟨t', ht, hentries⟩ := add_of_not_mem hnew
  exact ⟨before, after, t', hsplit, ht, by rw [hentries, hremoved]; rfl⟩

variable [DecidableEq ε]

theorem listed_add (t : Topology ε) (p : Primitive ε) :
    Listed t.entries (.add p) (t.apply (.add p)).1 (t.apply (.add p)).2.entries := by
  by_cases hp : p.id ∈ keys t.entries
  · rw [apply, add_of_mem hp]
    exact .refuse hp
  · obtain ⟨t', ht, hentries⟩ := add_of_not_mem hp
    rw [apply, ht]
    exact hentries ▸ .add hp

theorem listed_apply (t : Topology ε) (operation : Operation ε) :
    Listed t.entries operation (t.apply operation).1 (t.apply operation).2.entries := by
  cases operation with
  | add p => exact listed_add t p
  | addAll ps =>
    rw [apply]
    rcases addAll_cases t ps with ⟨hu, hok, he⟩ | ⟨before, p, rest, rfl, hu, hp, herr, he⟩
    · rw [hok, he]
      exact .addAll hu
    · rw [herr, he]
      exact .addBefore hu hp
  | addDescriptor r d =>
    cases hd : r.importPrimitive d with
    | error f =>
      rw [apply, addDescriptor, hd]
      exact .unreadable hd
    | ok p =>
      have happly : t.apply (.addDescriptor r d) = t.apply (.add p) := by
        rw [apply, apply, addDescriptor, hd, ok_bind]
        cases t.add p <;> rfl
      rw [happly]
      exact .addDescriptor hd (listed_add t p)
  | remove id =>
    rw [apply, show (t.remove id).1 = t.get? id from rfl]
    cases h : t.get? id with
    | none =>
      obtain ⟨hid, he⟩ := remove_of_none h
      rw [he]
      exact .absent hid
    | some p =>
      obtain ⟨before, after, hsplit, hremoved⟩ := exists_entry h
      rw [hsplit, hremoved]
      exact .remove

theorem listing_run (t : Topology ε) (operations : List (Operation ε)) :
    Listing t.entries operations (t.run operations).1 (t.run operations).2.entries := by
  induction operations generalizing t with
  | nil => exact .nil
  | cons operation operations ih => exact .cons (listed_apply t operation) (ih _)

/-- Whatever is done to a topology, it shows what a list of entries has become of which the same
was done, with the same answers, and a primitive that is removed and added again comes last. -/
theorem exists_listing (operations : List (Operation ε)) :
    ∃ es, Listing [] operations (empty.run operations).1 es ∧ (empty.run operations).2.Shows es ∧
      ∀ id p, (empty.run operations).2.get? id = some p →
        ∃ before after t', es = before ++ (id, p) :: after ∧
          ((empty.run operations).2.remove id).2.add p = .ok t' ∧
            t'.Shows (before ++ after ++ [(id, p)]) := by
  refine ⟨_, listing_run empty operations, shows_entries _, fun id p h => ?_⟩
  obtain ⟨before, after, t', hsplit, ht, hentries⟩ := exists_moved h
  exact ⟨before, after, t', hsplit, ht, hentries ▸ t'.shows_entries⟩

end InferenceGraph.Topology
