import InferenceGraph.Program.Dump
import InferenceGraph.Proofs.Sequence

/-!
# Saved compilations

Whether a text can be saved depends on the directories and the names, but neither on the texts that
are there nor on the text itself: a tree takes the same steps with the texts of its files wiped out.
So what stands in the drawings of the stages cannot be what stops a compilation.
-/

set_option autoImplicit false

namespace InferenceGraph

def Entry.blank : Entry → Entry
  | .file _ => .file ""
  | e => e

namespace FileTree

def blank (t : FileTree) : FileTree where
  entries := t.entries.map fun (location, e) => (location, e.blank)
  start := t.start

theorem lookup_blank (t : FileTree) (location : Location) :
    t.blank.lookup location = (t.lookup location).map Entry.blank := by
  unfold lookup
  split
  · rfl
  · rw [blank]
    induction t.entries with
    | nil => rfl
    | cons entry entries ih =>
      rw [List.map_cons, List.lookup_cons, List.lookup_cons]
      split
      · rfl
      · exact ih

theorem blank_insert (t : FileTree) (location : Location) (e : Entry) :
    (t.insert location e).blank = t.blank.insert location e.blank := by
  simp only [insert, blank, List.map_cons, List.filter_map]
  rfl

theorem follow_blank (t : FileTree) (location : Location) :
    t.blank.follow location = t.follow location := by
  rw [follow, follow, lookup_blank]
  cases t.lookup location with
  | none => rfl
  | some e => cases e <;> rfl

theorem isDirectory_blank (t : FileTree) (location : Location) :
    t.blank.isDirectory location = t.isDirectory location := by
  rw [isDirectory, isDirectory, lookup_blank]
  cases t.lookup location with
  | none => rfl
  | some e => cases e <;> rfl

theorem descend_blank (t : FileTree) (location : Location) (steps : List String) :
    t.blank.descend location steps =
      ((t.descend location steps).1, (t.descend location steps).2.blank) := by
  induction steps generalizing t location with
  | nil => rfl
  | cons step rest ih =>
    rw [descend, descend, lookup_blank, lookup_blank, follow_blank]
    cases t.lookup location with
    | none => rfl
    | some e =>
      cases e with
      | directory sealed =>
        by_cases hs : step = ".."
        · simp only [Option.map_some, Entry.blank, if_pos hs]
          exact ih _ _
        · simp only [Option.map_some, Entry.blank, if_neg hs]
          cases t.lookup (location ++ [step]) with
          | some child => exact ih _ _
          | none =>
            cases refusal? (sealed.map Seal.forDirectory) step with
            | some fault => rfl
            | none =>
              rw [Option.map_none, ← ih, blank_insert]
              rfl
      | _ => rfl

theorem enter_blank (t : FileTree) (location : Location) (step : String) :
    t.blank.enter location step = t.enter location step := by
  rw [enter, enter, lookup_blank, lookup_blank, follow_blank, isDirectory_blank]
  cases t.lookup location with
  | none => rfl
  | some e => cases e <;> cases t.lookup (location ++ [step]) <;> rfl

theorem makeDirectories_blank (t : FileTree) (p : Path) :
    t.blank.makeDirectories p = ((t.makeDirectories p).1, (t.makeDirectories p).2.blank) := by
  unfold makeDirectories
  cases p.steps.getLast? with
  | none => rfl
  | some last =>
    cases p.fault? with
    | some fault => rfl
    | none =>
      simp only [show t.blank.start = t.start from rfl, descend_blank]
      rcases t.descend (if p.absolute then [] else t.start)
        (if p.endsInDot then p.steps.dropLast else p.steps) with ⟨fault | location, t⟩
      · rfl
      · simp only [enter_blank, isDirectory_blank]
        split
        · rfl
        · split <;> rfl

theorem write_blank (t : FileTree) (location : Location) (name text : String) :
    t.blank.write location name "" = (t.write location name text).map blank := by
  rw [write, write, lookup_blank, lookup_blank, follow_blank]
  cases t.lookup (t.follow (location ++ [name])) with
  | some e =>
    cases e with
    | file old => exact congrArg Except.ok (blank_insert t _ (.file text)).symm
    | _ => rfl
  | none =>
    cases t.lookup location with
    | none => rfl
    | some e =>
      cases e with
      | directory sealed =>
        simp only [Option.map_some, Option.map_none, Entry.blank]
        cases refusal? (sealed.map Seal.forFile) name with
        | some fault => rfl
        | none => exact congrArg Except.ok (blank_insert t _ (.file text)).symm
      | _ => rfl

theorem save_blank (t : FileTree) (directory : Path) (name text : String) :
    t.blank.save directory name "" =
      ((t.save directory name text).1, (t.save directory name text).2.blank) := by
  rw [save, save, makeDirectories_blank]
  rcases t.makeDirectories directory with ⟨fault | location, t⟩
  · rfl
  · simp only
    rw [write_blank t location name text]
    cases (directory.child name).fault? with
    | some fault => rfl
    | none => cases t.write location name text <;> rfl

/-- Trees that only differ in texts stay so, and saving comes to the same in both. -/
theorem save_congr {t t' : FileTree} (h : t.blank = t'.blank) (directory : Path)
    (name text text' : String) :
    (t.save directory name text).1 = (t'.save directory name text').1 ∧
      (t.save directory name text).2.blank = (t'.save directory name text').2.blank := by
  have hs := t.save_blank directory name text
  rw [h, t'.save_blank directory name text'] at hs
  exact Prod.mk.inj hs.symm

end FileTree

namespace Compilation

variable {ε : Type} [Extension ε] {t t' : FileTree} {directory : Path}

theorem saveStages_congr (h : t.blank = t'.blank) {stages stages' : List (Stage × Program ε)}
    (hs : stages.map Prod.fst = stages'.map Prod.fst) :
    (saveStages directory t stages).1 = (saveStages directory t' stages').1 := by
  induction stages generalizing stages' t t' with
  | nil =>
    obtain rfl := List.map_eq_nil_iff.1 hs.symm
    rfl
  | cons entry stages ih =>
    obtain ⟨⟨_, p'⟩, stages', rfl, rfl, hrest⟩ := List.map_eq_cons_iff.1 hs.symm
    obtain ⟨stage, p⟩ := entry
    obtain ⟨hr, hb⟩ := FileTree.save_congr h directory stage.fileName p.drawing p'.drawing
    rw [saveStages, saveStages]
    rcases hu : t.save directory stage.fileName p.drawing with ⟨result, u⟩
    rcases hu' : t'.save directory stage.fileName p'.drawing with ⟨result', u'⟩
    rw [hu, hu'] at hr hb
    obtain rfl : result = result' := hr
    cases result with
    | error fault => rfl
    | ok _ => exact ih hb hrest.symm

theorem saved_eq_ok_iff {c : Compilation ε} {p : Program ε} :
    (c.saved directory t).1 = .ok p ↔
      (saveStages directory t c.stages).1 = .ok () ∧ c.result = .ok p := by
  rw [saved]
  rcases saveStages directory t c.stages with ⟨_ | _, u⟩ <;> simp

variable [DecidableEq ε] {r : Registry ε} {topology : Topology ε} {o : CompileOptions}

theorem stages_of_ofTopology {p : Program ε} (h : Program.ofTopology r topology o = .ok p) :
    (ofTopology r topology o).stages.map Prod.fst = [.initial, .sorted, .layouts] := by
  obtain ⟨first, hi, h⟩ := bind_eq_ok_iff.1 h
  obtain ⟨second, hs, hl⟩ := bind_eq_ok_iff.1 h
  simp only [ofTopology, hi, hs, hl]
  rfl

end Compilation

end InferenceGraph
