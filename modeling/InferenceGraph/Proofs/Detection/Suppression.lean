import InferenceGraph.Detection.Suppression
import InferenceGraph.Proofs.Scalar
import InferenceGraph.Proofs.Sequence
import Mathlib.Data.List.Induction

/-!
# Suppression is greedy

The candidates of a class are the indices of the scores above the threshold, in one order only. Of
these a candidate is kept if and only if it overlaps none of those kept before it by more than the
threshold that their number leaves, which says of every candidate in turn whether it is kept. The
loop comes to exactly this: what it has kept so far is greedy for the candidates it has seen.
-/

set_option autoImplicit false

namespace InferenceGraph

section Sorting

variable {α : Type} {le : α → α → Bool}
variable (htrans : ∀ a b c, le a b = true → le b c = true → le a c = true)
variable (htotal : ∀ a b, (le a b || le b a) = true)
include htrans htotal

theorem filter_mergeSort {c : α → Bool} (hc : ∀ a b, c a = true → c b = true → le a b = true)
    (xs : List α) : (xs.mergeSort le).filter c = xs.filter c := by
  have hp : (xs.filter c).Pairwise fun a b => le a b = true :=
    List.pairwise_of_forall_mem_list fun a ha b hb =>
      hc a b (List.of_mem_filter ha) (List.of_mem_filter hb)
  have hs := (List.sublist_mergeSort htrans htotal hp List.filter_sublist).filter c
  simp only [List.filter_filter, Bool.and_self] at hs
  refine (hs.eq_of_length ?_).symm
  exact ((List.mergeSort_perm xs le).filter c).length_eq.symm

/-- A stable sort puts elements in order, and keeps any order of those it does not tell apart. -/
theorem pairwise_mergeSort_stable {r : α → α → Prop} {xs : List α} (h : xs.Pairwise r) :
    (xs.mergeSort le).Pairwise fun a b => le a b = true ∧ (le b a = true → r a b) := by
  rw [List.pairwise_iff_forall_sublist]
  intro a b hs
  have hab := List.pairwise_iff_forall_sublist.1 (List.pairwise_mergeSort htrans htotal xs) hs
  refine ⟨hab, fun hba => ?_⟩
  have hrefl : ∀ x, le x x = true := fun x => by simpa using htotal x x
  have hc := filter_mergeSort htrans htotal (c := fun x => le a x && le x a) (fun x y hx hy => by
    rw [Bool.and_eq_true] at hx hy
    exact htrans x a y hx.2 hy.1) xs
  have hf := hs.filter fun x => le a x && le x a
  rw [hc] at hf
  simp only [List.filter_cons, List.filter_nil, hab, hba, hrefl, Bool.and_self, if_true] at hf
  exact List.pairwise_iff_forall_sublist.1 h (hf.trans List.filter_sublist)

end Sorting

namespace DetectionParameters

variable {p : DetectionParameters} {boxes : List Box} {scores : List Float32}

/-- The score of the first index is higher in the total order, or the same at a smaller index. -/
def Precedes (scores : List Float32) (i j : Nat) : Prop :=
  ∃ a b, scores[i]? = some a ∧ scores[j]? = some b ∧
    (Scalar.rank b < Scalar.rank a ∨ Scalar.rank a = Scalar.rank b ∧ i < j)

theorem Precedes.asymm {i j : Nat} (h : Precedes scores i j) : ¬ Precedes scores j i := by
  rintro ⟨b', a', hb', ha', h'⟩
  obtain ⟨a, b, ha, hb, h⟩ := h
  obtain rfl := Option.some.inj (ha.symm.trans ha')
  obtain rfl := Option.some.inj (hb.symm.trans hb')
  omega

/-- The indices of the scores above the threshold, in order, cut to the number asked for. -/
def Candidates (p : DetectionParameters) (scores : List Float32) (candidates : List Nat) : Prop :=
  ∃ all : List Nat, (∀ i, i ∈ all ↔ ∃ s, scores[i]? = some s ∧ s > p.scoreThreshold) ∧
    all.Pairwise (Precedes scores) ∧
    candidates = if p.candidates > -1 then all.take p.candidates.toInt.toNat else all

namespace Candidates

variable {candidates : List Nat} (h : p.Candidates scores candidates)
include h

theorem above {i : Nat} (hi : i ∈ candidates) :
    ∃ s, scores[i]? = some s ∧ s > p.scoreThreshold := by
  obtain ⟨all, hall, -, rfl⟩ := h
  refine (hall i).1 ?_
  split at hi
  · exact List.mem_of_mem_take hi
  · exact hi

theorem lt {i : Nat} (hi : i ∈ candidates) : i < scores.length := by
  obtain ⟨s, hs, -⟩ := h.above hi
  exact (List.getElem?_eq_some_iff.1 hs).1

theorem pairwise : candidates.Pairwise (Precedes scores) := by
  obtain ⟨all, -, hp, rfl⟩ := h
  split
  · exact hp.sublist (List.take_sublist _ _)
  · exact hp

theorem nodup : candidates.Nodup :=
  h.pairwise.imp fun {i j} hij (he : i = j) => hij.asymm (he ▸ hij)

theorem unique {other : List Nat} (h' : p.Candidates scores other) : other = candidates := by
  obtain ⟨all, hall, hp, rfl⟩ := h
  obtain ⟨all', hall', hp', rfl⟩ := h'
  have hnodup : ∀ {xs : List Nat}, xs.Pairwise (Precedes scores) → xs.Nodup := fun hx =>
    hx.imp fun {i j} hij (he : i = j) => hij.asymm (he ▸ hij)
  have hperm : all'.Perm all :=
    (List.perm_ext_iff_of_nodup (hnodup hp') (hnodup hp)).2 fun i => (hall' i).trans (hall i).symm
  rw [hperm.eq_of_pairwise (fun a b _ _ hab hba => absurd hba hab.asymm) hp' hp]

end Candidates

theorem candidates_ranking (p : DetectionParameters) (scores : List Float32) :
    p.Candidates scores (p.ranking scores) := by
  let above := scores.zipIdx.filter fun entry => entry.1 > p.scoreThreshold
  have habove : ∀ s i, (s, i) ∈ above ↔ scores[i]? = some s ∧ s > p.scoreThreshold := by
    intro s i
    simp only [above, List.mem_filter, List.mk_mem_zipIdx_iff_getElem?, decide_eq_true_eq]
  have hindex : above.Pairwise fun a b => a.2 < b.2 := by
    refine List.Pairwise.filter _ (List.pairwise_map.1 ?_)
    rw [List.zipIdx_map_snd]
    exact List.pairwise_lt_range'
  have hsorted : (above.mergeSort fun a b => scoreBefore a.1 b.1).Pairwise fun a b =>
      scoreBefore a.1 b.1 = true ∧ (scoreBefore b.1 a.1 = true → a.2 < b.2) :=
    pairwise_mergeSort_stable
      (fun a b c => by simpa [scoreBefore] using fun hab hbc => le_trans hbc hab)
      (fun a b => by simpa [scoreBefore] using le_total _ _) hindex
  refine ⟨(above.mergeSort fun a b => scoreBefore a.1 b.1).map Prod.snd, fun i => ?_, ?_, rfl⟩
  · simp only [List.mem_map, List.mem_mergeSort, Prod.exists, exists_eq_right, habove]
  · rw [List.pairwise_map]
    refine hsorted.imp_of_mem fun {a b} ha hb hab => ?_
    rw [List.mem_mergeSort] at ha hb
    refine ⟨a.1, b.1, ((habove _ _).1 ha).1, ((habove _ _).1 hb).1, ?_⟩
    simp only [scoreBefore, decide_eq_true_eq] at hab
    rcases lt_or_eq_of_le hab.1 with hlt | heq
    · exact .inl hlt
    · exact .inr ⟨heq.symm, hab.2 heq.ge⟩

/-- The overlap threshold after `kept` boxes. A decay below one multiplies it with every box, as long
as it is above a half. -/
def thresholdAfter (p : DetectionParameters) : (kept : Nat) → Float32
  | 0 => p.overlapThreshold
  | kept + 1 =>
    let threshold := p.thresholdAfter kept
    if p.decay < 1 ∧ threshold > 0.5 then threshold * p.decay else threshold

theorem lowered_thresholdAfter (p : DetectionParameters) (kept : Nat) :
    p.lowered (p.thresholdAfter kept) = p.thresholdAfter (kept + 1) := by
  rw [lowered, thresholdAfter]

theorem thresholdAfter_eq (h : ¬ p.decay < 1) (kept : Nat) :
    p.thresholdAfter kept = p.overlapThreshold := by
  induction kept with
  | zero => rfl
  | succ kept ih =>
    rw [thresholdAfter, ih]
    exact if_neg fun hd => h hd.1

def overlap? (boxes : List Box) (candidate kept : Nat) : Option Float32 :=
  boxes[candidate]?.bind fun a => boxes[kept]?.map a.iou

def Clears (boxes : List Box) (threshold : Float32) (candidate kept : Nat) : Prop :=
  ∃ o, overlap? boxes candidate kept = some o ∧ o ≤ threshold

theorem exists_overlap {c k : Nat} (hc : c < boxes.length) (hk : k < boxes.length) :
    ∃ o, overlap? boxes c k = some o :=
  ⟨boxes[c].iou boxes[k], by simp [overlap?, hc, hk]⟩

theorem exists_fits {threshold : Float32} {c : Nat} {kept : List Nat} (hc : c < boxes.length)
    (hkept : ∀ k ∈ kept, k < boxes.length) : ∃ b, fits boxes threshold c kept = .ok b ∧
      (b = true ↔ ∀ k ∈ kept, Clears boxes threshold c k) := by
  induction kept with
  | nil => exact ⟨true, rfl, by simp⟩
  | cons k kept ih =>
    have hk := hkept k (by simp)
    have ho : overlap? boxes c k = some (boxes[c].iou boxes[k]) := by simp [overlap?, hc, hk]
    rw [fits, List.getElem?_eq_getElem hc, List.getElem?_eq_getElem hk, Outcome.get_some, ok_bind,
      Outcome.get_some, ok_bind]
    split
    · next hle =>
      obtain ⟨b, hb, hiff⟩ := ih fun j hj => hkept j (by simp [hj])
      refine ⟨b, hb, hiff.trans ?_⟩
      rw [List.forall_mem_cons, iff_and_self]
      exact fun _ => ⟨_, ho, hle⟩
    · next hle =>
      refine ⟨false, rfl, ?_⟩
      simp only [Bool.false_eq_true, false_iff]
      intro hall
      obtain ⟨o, ho', hle'⟩ := hall k (by simp)
      obtain rfl := Option.some.inj (ho.symm.trans ho')
      exact hle hle'

/-- The kept ones of the candidates that stand before another one. -/
def keptBefore (kept before : List Nat) : List Nat := before.filter (· ∈ kept)

/-- A candidate is kept if and only if it clears those kept before it, by the threshold that their
number leaves. -/
structure Greedy (p : DetectionParameters) (boxes : List Box) (candidates kept : List Nat) :
    Prop where
  sublist : kept.Sublist candidates
  mem_iff : ∀ before c after, candidates = before ++ c :: after →
    (c ∈ kept ↔ ∀ k ∈ keptBefore kept before,
      Clears boxes (p.thresholdAfter (keptBefore kept before).length) c k)

namespace Greedy

variable {candidates kept : List Nat} {c : Nat}

theorem nil : p.Greedy boxes [] [] := ⟨.slnil, fun before c after h => by simp at h⟩

theorem not_mem_of_nodup (h : (candidates ++ [c]).Nodup) : c ∉ candidates := fun hm =>
  (List.nodup_append.1 h).2.2 c hm c (by simp) rfl

theorem eq_or_of_concat {before after : List Nat} {d : Nat}
    (h : candidates ++ [c] = before ++ d :: after) :
    (before = candidates ∧ d = c) ∨ ∃ rest, candidates = before ++ d :: rest := by
  rcases List.eq_nil_or_concat after with rfl | ⟨rest, e, rfl⟩
  · obtain ⟨h, hd⟩ := List.append_inj' h rfl
    exact .inl ⟨h.symm, (List.singleton_inj.1 hd).symm⟩
  · rw [List.concat_eq_append, ← List.cons_append, ← List.append_assoc] at h
    exact .inr ⟨rest, (List.append_inj' h rfl).1⟩

variable (h : p.Greedy boxes candidates kept) (hn : (candidates ++ [c]).Nodup)
include h hn

theorem keptBefore_all : keptBefore kept candidates = kept :=
  filter_of_sublist (List.nodup_append.1 hn).1 h.sublist

theorem keep (hc : ∀ k ∈ kept, Clears boxes (p.thresholdAfter kept.length) c k) :
    p.Greedy boxes (candidates ++ [c]) (kept ++ [c]) := by
  have hnot := not_mem_of_nodup hn
  have hsame : ∀ d ∈ candidates, d ∈ kept ++ [c] ↔ d ∈ kept := by
    intro d hd
    have hne : d ≠ c := fun he => hnot (he ▸ hd)
    simp [hne]
  have hbefore : ∀ before, before ⊆ candidates →
      keptBefore (kept ++ [c]) before = keptBefore kept before := fun before hb =>
    List.filter_congr fun d hd => by simp only [hsame d (hb hd)]
  refine ⟨h.sublist.append (List.Sublist.refl _), fun before d after he => ?_⟩
  rcases eq_or_of_concat he with ⟨rfl, rfl⟩ | ⟨rest, rfl⟩
  · rw [hbefore _ (List.Subset.refl _), h.keptBefore_all hn]
    simpa using hc
  · rw [hbefore _ (by simp), hsame d (by simp)]
    exact h.mem_iff before d rest rfl

theorem drop (hc : ¬ ∀ k ∈ kept, Clears boxes (p.thresholdAfter kept.length) c k) :
    p.Greedy boxes (candidates ++ [c]) kept := by
  refine ⟨h.sublist.trans (List.sublist_append_left _ _), fun before d after he => ?_⟩
  rcases eq_or_of_concat he with ⟨rfl, rfl⟩ | ⟨rest, rfl⟩
  · rw [h.keptBefore_all hn]
    exact iff_of_false (fun hm => not_mem_of_nodup hn (h.sublist.subset hm)) hc
  · exact h.mem_iff before d rest rfl

end Greedy

theorem exists_suppress {done rest kept : List Nat} (h : p.Greedy boxes done kept)
    (hn : (done ++ rest).Nodup) (hlt : ∀ i ∈ done ++ rest, i < boxes.length) :
    ∃ result, p.suppress boxes (p.thresholdAfter kept.length) kept rest = .ok result ∧
      p.Greedy boxes (done ++ rest) result := by
  induction rest generalizing done kept with
  | nil => exact ⟨kept, rfl, by rwa [List.append_nil]⟩
  | cons c rest ih =>
    have hsplit : done ++ c :: rest = (done ++ [c]) ++ rest := by simp
    have hn' : (done ++ [c]).Nodup := by
      rw [hsplit] at hn
      exact (List.nodup_append.1 hn).1
    obtain ⟨b, hb, hiff⟩ : ∃ b, fits boxes (p.thresholdAfter kept.length) c kept = .ok b ∧
        (b = true ↔ ∀ k ∈ kept, Clears boxes (p.thresholdAfter kept.length) c k) :=
      exists_fits (hlt c (by simp)) fun k hk => hlt k (by simp [h.sublist.subset hk])
    rw [hsplit] at hn hlt ⊢
    rw [suppress, hb, ok_bind]
    cases b with
    | true =>
      have hk := ih (h.keep hn' (hiff.1 rfl)) hn hlt
      rw [List.length_append, List.length_singleton, ← lowered_thresholdAfter] at hk
      exact hk
    | false => exact ih (h.drop hn' fun hc => by simpa using hiff.2 hc) hn hlt

theorem exists_survivors (p : DetectionParameters) (h : boxes.length = scores.length) :
    ∃ kept, p.survivors boxes scores = .ok kept ∧ p.Greedy boxes (p.ranking scores) kept := by
  have hc := candidates_ranking p scores
  exact exists_suppress Greedy.nil hc.nodup fun i hi => h ▸ hc.lt hi

namespace Greedy

variable {candidates kept : List Nat} (h : p.Greedy boxes candidates kept)
include h

theorem unique (hn : candidates.Nodup) {other : List Nat} (h' : p.Greedy boxes candidates other) :
    other = kept := by
  have hm : ∀ before after, candidates = before ++ after → ∀ k ∈ before,
      (k ∈ other ↔ k ∈ kept) := by
    -- Whether a candidate is kept depends only on those before it, so the two choices agree on
    -- the candidates one after another.
    intro before
    induction before using List.reverseRecOn with
    | nil => simp
    | append_singleton before c ih =>
      intro after he k hk
      rw [List.append_assoc, List.singleton_append] at he
      have ih := ih (c :: after) he
      rcases List.mem_append.1 hk with hk | hk
      · exact ih k hk
      · obtain rfl := List.mem_singleton.1 hk
        have hb : keptBefore other before = keptBefore kept before :=
          List.filter_congr fun d hd => by simp only [ih d hd]
        rw [h'.mem_iff before k after he, h.mem_iff before k after he, hb]
  rw [← filter_of_sublist hn h.sublist, ← filter_of_sublist hn h'.sublist]
  exact List.filter_congr fun d hd => by simp only [hm candidates [] (by simp) d hd]

theorem mem_of_head {c : Nat} (hc : candidates.head? = some c) : c ∈ kept := by
  obtain ⟨rest, rfl⟩ := List.head?_eq_some_iff.1 hc
  exact (h.mem_iff [] c rest rfl).2 fun k hk => by simp [keptBefore] at hk

theorem exists_rejecting (hlt : ∀ i ∈ candidates, i < boxes.length) {before after : List Nat}
    {c : Nat} (he : candidates = before ++ c :: after) (hc : c ∉ kept) :
    ∃ k ∈ keptBefore kept before, ∃ o, overlap? boxes c k = some o ∧
      ¬ o ≤ p.thresholdAfter (keptBefore kept before).length := by
  rw [h.mem_iff before c after he, not_forall] at hc
  obtain ⟨k, hc⟩ := hc
  rw [Classical.not_imp] at hc
  obtain ⟨hk, hc⟩ := hc
  obtain ⟨o, ho⟩ : ∃ o, overlap? boxes c k = some o :=
    exists_overlap (hlt c (by simp [he])) (hlt k (by simp [he, List.mem_of_mem_filter hk]))
  exact ⟨k, hk, o, ho, fun hle => hc ⟨o, ho, hle⟩⟩

theorem pairwise_clears (hd : ¬ p.decay < 1) :
    kept.Pairwise fun k c => Clears boxes p.overlapThreshold c k := by
  rw [List.pairwise_iff_forall_sublist]
  intro k c hs
  have hc : c ∈ kept := hs.subset (by simp)
  have hk : k ∈ kept := hs.subset (by simp)
  obtain ⟨first, second, he, hfirst, hsecond⟩ := List.cons_sublist_iff.1 (hs.trans h.sublist)
  obtain ⟨middle, after, rfl⟩ := List.append_of_mem (List.singleton_sublist.1 hsecond)
  rw [← List.append_assoc] at he
  have hclear := (h.mem_iff (first ++ middle) c after he).1 hc k
    (List.mem_filter.2 ⟨by simp [hfirst], by simpa using hk⟩)
  rwa [thresholdAfter_eq hd] at hclear

end Greedy

/-- What the survivors of a class are, and what follows from it. -/
structure Suppressed (p : DetectionParameters) (boxes : List Box) (scores : List Float32)
    (candidates kept : List Nat) : Prop where
  greedy : p.Greedy boxes candidates kept
  unique : ∀ other, p.Greedy boxes candidates other → other = kept
  nodup : kept.Nodup
  isNaN : ∀ i ∈ kept, ∃ s, scores[i]? = some s ∧ s.isNaN = false
  falling : kept.Pairwise fun i j =>
    ∃ a b, scores[i]? = some a ∧ scores[j]? = some b ∧ b ≤ a
  first : ∀ c, candidates.head? = some c → c ∈ kept
  rejected : ∀ before c after, candidates = before ++ c :: after → c ∉ kept →
    ∃ k ∈ keptBefore kept before, ∃ o, overlap? boxes c k = some o ∧
      ¬ o ≤ p.thresholdAfter (keptBefore kept before).length
  apart : ¬ p.decay < 1 → kept.Pairwise fun k c =>
    ∃ o, overlap? boxes c k = some o ∧ o ≤ p.overlapThreshold

theorem Candidates.suppressed {candidates kept : List Nat} (hc : p.Candidates scores candidates)
    (h : boxes.length = scores.length) (hg : p.Greedy boxes candidates kept) :
    p.Suppressed boxes scores candidates kept := by
  have hnumber : ∀ i ∈ kept, ∃ s, scores[i]? = some s ∧ s.isNaN = false := by
    intro i hi
    obtain ⟨s, hs, habove⟩ := hc.above (hg.sublist.subset hi)
    exact ⟨s, hs, (Scalar.isNaN_of_lt habove).2⟩
  constructor
  case greedy => exact hg
  case unique => exact fun other => hg.unique hc.nodup
  case nodup => exact hc.nodup.sublist hg.sublist
  case isNaN => exact hnumber
  case falling =>
    refine (hc.pairwise.sublist hg.sublist).imp_of_mem fun {i j} hi hj hij => ?_
    obtain ⟨a, b, ha, hb, hab⟩ := hij
    obtain ⟨a', ha', hna⟩ := hnumber i hi
    obtain ⟨b', hb', hnb⟩ := hnumber j hj
    obtain rfl := Option.some.inj (ha.symm.trans ha')
    obtain rfl := Option.some.inj (hb.symm.trans hb')
    exact ⟨a, b, ha, hb, Scalar.le_of_rank_le hnb hna (by omega)⟩
  case first => exact fun c => hg.mem_of_head
  case rejected =>
    exact fun before c after => hg.exists_rejecting fun i hi => h ▸ hc.lt hi
  case apart => exact hg.pairwise_clears

/-- There is one list of candidates, and one greedy choice among them: the survivors. -/
theorem survivors_suppressed (p : DetectionParameters) (h : boxes.length = scores.length) :
    ∃ candidates kept, p.Candidates scores candidates ∧
      (∀ other, p.Candidates scores other → other = candidates) ∧
      p.survivors boxes scores = .ok kept ∧ p.Suppressed boxes scores candidates kept := by
  obtain ⟨kept, hk, hg⟩ := p.exists_survivors h
  have hc := candidates_ranking p scores
  exact ⟨p.ranking scores, kept, hc, fun other => hc.unique, hk, hc.suppressed h hg⟩

def neighbours : List Box := [⟨0, 0, 8, 1⟩, ⟨2, 0, 10, 1⟩, ⟨4, 0, 12, 1⟩]

def neighbourScores : List Float32 := [0.9, 0.8, 0.7]

/-- The threshold is above six tenths at first, and below once a box is kept. -/
def falling : DetectionParameters := { standard 2 3 with overlapThreshold := 0.9, decay := 0.5 }

theorem ranking_falling : falling.ranking neighbourScores = [0, 1, 2] := by
  rw [ranking, List.mergeSort_of_pairwise (by decide +kernel)]
  decide +kernel

theorem survivors_suppressed_falling : neighbours.length = neighbourScores.length ∧
    falling.thresholdAfter 0 = 0.9 ∧ falling.thresholdAfter 1 = 0.45 ∧
      falling.survivors neighbours neighbourScores = .ok [0, 2] ∧
      ∃ candidates, falling.Candidates neighbourScores candidates ∧
        falling.Suppressed neighbours neighbourScores candidates [0, 2] := by
  have hlen : neighbours.length = neighbourScores.length := rfl
  have hkept : falling.survivors neighbours neighbourScores = .ok [0, 2] := by
    rw [survivors, ranking_falling]
    decide +kernel
  obtain ⟨candidates, kept, hc, -, hk, hs⟩ := survivors_suppressed falling hlen
  obtain rfl := Except.ok.inj (hkept.symm.trans hk)
  exact ⟨hlen, by decide, by decide, hkept, candidates, hc, hs⟩

end DetectionParameters

end InferenceGraph
