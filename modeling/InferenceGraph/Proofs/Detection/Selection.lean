import InferenceGraph.Proofs.Detection.Predictions

set_option autoImplicit false

namespace InferenceGraph.DetectionParameters

/-- The labels that can be detected: all but the background, compared as numbers. -/
def foreground (p : DetectionParameters) : List Nat :=
  (List.range p.classes.toNat).filter fun label => (label : Int) ≠ p.background.toInt

/-- The first survivor has the higher score in the total order, or the same score and the smaller
label, or the same label too and was kept before the other. -/
def Outranks (x : Predictions) (kept : Nat → List Nat) (s t : Nat × Nat) : Prop :=
  Scalar.rank (x.detection t).score < Scalar.rank (x.detection s).score ∨
    Scalar.rank (x.detection s).score = Scalar.rank (x.detection t).score ∧
      (s.1 < t.1 ∨ s.1 = t.1 ∧ [s.2, t.2].Sublist (kept s.1))

variable {p : DetectionParameters} {location confidence prior : List Float32}
variable {priors label k : Nat} {x : Predictions} {kept : Nat → List Nat}

/-- Labels are too small to be taken for `-1` as signed words. -/
theorem labels_eq_foreground (h : -1 ≤ p.background) : p.labels = p.foreground := by
  refine List.filter_congr fun label hl => ?_
  have hlt : label < p.classes.toNat := List.mem_range.1 hl
  have hbound : p.classes.toNat < 2 ^ 32 := p.classes.toNat_lt
  have hword : (UInt32.ofNat label).toInt32.toInt = (label : Int).bmod (2 ^ 32) :=
    BitVec.toInt_ofNat' label
  have hback : -1 ≤ p.background.toInt := Int32.le_iff_toInt_le.1 h
  have hmod : (label : Int).bmod (2 ^ 32) = p.background.toInt ↔
      (label : Int) = p.background.toInt := by
    have hle : p.background.toInt < 2 ^ 31 := p.background.toInt_lt
    rw [Int.bmod_def]
    omega
  simp only [isBackground, ← Int32.toInt_inj, hword, hmod, ne_eq, decide_not]

theorem lt_of_mem_foreground (h : label ∈ p.foreground) : label < p.classes.toNat :=
  List.mem_range.1 (List.mem_of_mem_filter h)

theorem ne_of_mem_foreground (h : label ∈ p.foreground) : (label : Int) ≠ p.background.toInt := by
  simpa using List.of_mem_filter h

theorem pairwise_foreground (p : DetectionParameters) : p.foreground.Pairwise (· < ·) :=
  List.pairwise_lt_range.filter _

theorem pairwise_sources {labels : List Nat} (h : labels.Pairwise (· < ·))
    (kept : Nat → List Nat) : (sources labels kept).Pairwise fun s t =>
      s.1 < t.1 ∨ s.1 = t.1 ∧ [s.2, t.2].Sublist (kept s.1) := by
  refine List.pairwise_flatMap.2 ⟨fun label _ => ?_, h.imp fun {a b} hab => ?_⟩
  · refine List.pairwise_map.2 (List.pairwise_iff_forall_sublist.2 fun {k l} hs => ?_)
    exact .inr ⟨rfl, hs⟩
  · rintro s hs t ht
    obtain ⟨k, -, rfl⟩ := List.mem_map.1 hs
    obtain ⟨l, -, rfl⟩ := List.mem_map.1 ht
    exact .inl hab

/-- The order in which the survivors are put, and what is taken of it. -/
structure Ranked (p : DetectionParameters) (x : Predictions) (kept : Nat → List Nat)
    (order : List (Nat × Nat)) (best : List Detection) : Prop where
  perm : order.Perm (sources p.foreground kept)
  nodup : order.Nodup
  outranks : order.Pairwise (Outranks x kept)
  eq : best = (order.take p.keep.toNat).map x.detection
  length : best.length = min p.keep.toNat (sources p.foreground kept).length
  falling : best.Pairwise fun a b => b.score ≤ a.score
  left : ∀ s ∈ order.drop p.keep.toNat, ∀ d ∈ best, (x.detection s).score ≤ d.score

/-- A detection comes from one prior box: its score stands in the row of that prior box at its label,
and its box is what the prior box predicts with its location for the label. -/
structure Detects (p : DetectionParameters) (location confidence prior : List Float32)
    (priors : Nat) (d : Detection) : Prop where
  label_lt : d.label < p.classes.toNat
  label_ne : (d.label : Int) ≠ p.background.toInt
  isNaN : d.score.isNaN = false
  above : d.score > p.scoreThreshold
  source : ∃ k < priors, confidence[k * p.classes.toNat + d.label]? = some d.score ∧
    p.Predicts location prior priors (p.locationClass d.label) k d.box

theorem Thins.isNaN_of_mem (hk : p.Thins priors x kept) {labels : List Nat} {s : Nat × Nat}
    (hs : s ∈ sources labels kept) : (x.detection s).score.isNaN = false :=
  (Scalar.isNaN_of_lt (hk.of_mem (mem_sources_iff.1 hs).2).2).2

theorem Thins.nodup_sources (hk : p.Thins priors x kept) :
    (sources p.foreground kept).Nodup := by
  refine (pairwise_sources (pairwise_foreground p) kept).imp fun {s t} hst => ?_
  rintro rfl
  rcases hst with hlt | ⟨-, hs⟩
  · exact Nat.lt_irrefl _ hlt
  · have hn := (hk.nodup s.1).sublist hs
    simp at hn

theorem Outranks.rank_le {s t : Nat × Nat} (h : Outranks x kept s t) :
    Scalar.rank (x.detection t).score ≤ Scalar.rank (x.detection s).score := by
  rcases h with h | ⟨h, -⟩
  · exact h.le
  · exact h.ge

def ranked (p : DetectionParameters) (x : Predictions) (kept : Nat → List Nat) :
    List (Nat × Nat) :=
  (sources p.foreground kept).mergeSort fun s t =>
    scoreBefore (x.detection s).score (x.detection t).score

theorem ranked_perm (p : DetectionParameters) (x : Predictions) (kept : Nat → List Nat) :
    (p.ranked x kept).Perm (sources p.foreground kept) :=
  List.mergeSort_perm _ _

theorem best_eq_take_ranked (p : DetectionParameters) (x : Predictions) (kept : Nat → List Nat) :
    p.best ((sources p.foreground kept).map x.detection) =
      ((p.ranked x kept).take p.keep.toNat).map x.detection := by
  have hsort : (p.ranked x kept).map x.detection =
      ((sources p.foreground kept).map x.detection).mergeSort
        fun a b => scoreBefore a.score b.score := List.map_mergeSort fun _ _ _ _ => rfl
  rw [best, List.map_take, hsort]

theorem pairwise_ranked (p : DetectionParameters) (x : Predictions) (kept : Nat → List Nat) :
    (p.ranked x kept).Pairwise (Outranks x kept) := by
  refine (pairwise_mergeSort_stable (fun s t u => ?_) (fun s t => ?_)
    (pairwise_sources (pairwise_foreground p) kept)).imp fun {s t} hst => ?_
  · simpa only [scoreBefore, decide_eq_true_eq] using fun hst htu => le_trans htu hst
  · simpa only [scoreBefore, Bool.or_eq_true, decide_eq_true_eq] using le_total _ _
  · simp only [scoreBefore, decide_eq_true_eq] at hst
    rcases lt_or_eq_of_le hst.1 with hlt | heq
    · exact .inl hlt
    · exact .inr ⟨heq.symm, hst.2 heq.ge⟩

theorem Thins.pairwise_le_ranked (hk : p.Thins priors x kept) :
    (p.ranked x kept).Pairwise fun s t => (x.detection t).score ≤ (x.detection s).score := by
  have hnumber : ∀ s ∈ p.ranked x kept, (x.detection s).score.isNaN = false := fun s hs =>
    hk.isNaN_of_mem ((p.ranked_perm x kept).mem_iff.1 hs)
  exact (p.pairwise_ranked x kept).imp_of_mem fun hs ht hst =>
    Scalar.le_of_rank_le (hnumber _ ht) (hnumber _ hs) hst.rank_le

/-- The best of all survivors, in order. -/
theorem Thins.exists_ranked (hk : p.Thins priors x kept) :
    ∃ order, p.Ranked x kept order (p.best ((sources p.foreground kept).map x.detection)) := by
  have hperm := p.ranked_perm x kept
  have hfalling := hk.pairwise_le_ranked
  -- What is taken stands before what is left, so each is compared with the other as well.
  rw [← List.take_append_drop p.keep.toNat (p.ranked x kept), List.pairwise_append] at hfalling
  obtain ⟨htaken, -, hleft⟩ := hfalling
  rw [p.best_eq_take_ranked x kept]
  refine ⟨p.ranked x kept, hperm, hperm.nodup_iff.2 hk.nodup_sources, p.pairwise_ranked x kept, rfl,
    ?_, ?_, ?_⟩
  case refine_1 => rw [List.length_map, List.length_take, hperm.length_eq]
  case refine_2 => exact List.pairwise_map.2 htaken
  case refine_3 =>
    intro s hs d hd
    obtain ⟨t, ht, rfl⟩ := List.mem_map.1 hd
    exact hleft t ht s hs

theorem Thins.detects (hk : p.Thins priors x kept)
    (hx : p.Reads location confidence prior priors x) {s : Nat × Nat}
    (hs : s ∈ sources p.foreground kept) :
    p.Detects location confidence prior priors (x.detection s) := by
  obtain ⟨hlabel, hkept⟩ := mem_sources_iff.1 hs
  have hlt : s.1 < p.classes.toNat := lt_of_mem_foreground hlabel
  obtain ⟨hprior, habove⟩ := hk.of_mem hkept
  exact ⟨hlt, ne_of_mem_foreground hlabel, hk.isNaN_of_mem hs, habove, s.2, hprior,
    hx.score _ hlt _ hprior, hx.box _ hlt _ hprior⟩

theorem Fits.detects_of_detect (h : p.Fits location confidence prior priors)
    (hb : -1 ≤ p.background) {found : List Detection}
    (hd : p.detect location confidence prior = .ok found) {d : Detection} (hm : d ∈ found) :
    p.Detects location confidence prior priors d := by
  have hx := h.reads_predictions
  obtain ⟨kept, hk⟩ := p.exists_kept priors (p.predictions location confidence prior priors)
  obtain ⟨order, ho⟩ := hk.exists_ranked
  rw [detect, h.allDetections_eq hx hk, labels_eq_foreground hb, ok_bind, pure_eq_ok] at hd
  rw [← Except.ok.inj hd, ho.eq] at hm
  obtain ⟨s, hs, rfl⟩ := List.mem_map.1 hm
  exact hk.detects hx (ho.perm.mem_iff.1 (List.mem_of_mem_take hs))

/-- The detections of an image are the best of what suppression leaves of all its classes but the
background, each read off the values of one prior box. -/
theorem detect_ranked (h : p.Fits location confidence prior priors) (hb : -1 ≤ p.background) :
    ∃ x kept order best, p.Reads location confidence prior priors x ∧ p.Thins priors x kept ∧
      p.detect location confidence prior = .ok best ∧ p.Ranked x kept order best ∧
      ∀ d ∈ best, p.Detects location confidence prior priors d := by
  have hx := h.reads_predictions
  obtain ⟨kept, hk⟩ := p.exists_kept priors (p.predictions location confidence prior priors)
  obtain ⟨order, ho⟩ := hk.exists_ranked
  refine ⟨_, kept, order, _, hx, hk, ?_, ho, fun d hd => ?_⟩
  · rw [detect, h.allDetections_eq hx hk, labels_eq_foreground hb, ok_bind, pure_eq_ok]
  · rw [ho.eq] at hd
    obtain ⟨s, hs, rfl⟩ := List.mem_map.1 hd
    exact hk.detects hx (ho.perm.mem_iff.1 (List.mem_of_mem_take hs))

theorem detect_ranked_unshared :
    let p := { standard 2 4 with sharedLocation := false, background := -1 }
    let location : List Float32 := List.replicate 20 0 ++ [1, 0, 1, 0]
    let confidence : List Float32 := [0, 0, 0, 0, 0.8, 0.9]
    let prior : List Float32 := [0, 0, 1, 1, 0, 0, 1, 0.95, 2, 2, 3, 3] ++ List.replicate 12 1
    p.Fits location confidence prior 3 ∧ -1 ≤ p.background ∧
      ∃ x kept order best, p.Reads location confidence prior 3 x ∧ p.Thins 3 x kept ∧
        p.detect location confidence prior = .ok best ∧ p.Ranked x kept order best ∧
        ∀ d ∈ best, p.Detects location confidence prior 3 d := by
  intro p location confidence prior
  have hf : p.Fits location confidence prior 3 := ⟨rfl, rfl, rfl⟩
  have hb : -1 ≤ p.background := by decide
  exact ⟨hf, hb, detect_ranked hf hb⟩

end InferenceGraph.DetectionParameters
