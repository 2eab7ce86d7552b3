import InferenceGraph.Proofs.Detection.Predictions

set_option autoImplicit false

namespace InferenceGraph

def formerly (order : List Nat) (k : Nat) : Nat := order.getD k k

def Predictions.renumbered (x : Predictions) (order : List Nat) : Predictions where
  box label k := x.box label (formerly order k)
  score label k := x.score label (formerly order k)

namespace DetectionParameters

/-- No two scores above the threshold have the same place in the total order. -/
def Untied (p : DetectionParameters) (scores : List Float32) : Prop :=
  (scores.filter fun score => score > p.scoreThreshold).Pairwise fun a b =>
    Scalar.rank a ≠ Scalar.rank b

instance (p : DetectionParameters) (scores : List Float32) : Decidable (p.Untied scores) :=
  inferInstanceAs (Decidable (List.Pairwise _ _))

variable {p : DetectionParameters}

theorem Untied.eq_of_rank_eq {scores : List Float32} (h : p.Untied scores) {i j : Nat}
    {a b : Float32} (hi : scores[i]? = some a) (hj : scores[j]? = some b)
    (ha : a > p.scoreThreshold) (hb : b > p.scoreThreshold)
    (he : Scalar.rank a = Scalar.rank b) : i = j := by
  have hne : ∀ {i j : Nat} {a b : Float32}, scores[i]? = some a → scores[j]? = some b →
      a > p.scoreThreshold → b > p.scoreThreshold → Scalar.rank a = Scalar.rank b → ¬ i < j := by
    intro i j a b hi hj ha hb he hlt
    obtain ⟨hi', rfl⟩ := List.getElem?_eq_some_iff.1 hi
    obtain ⟨hj', rfl⟩ := List.getElem?_eq_some_iff.1 hj
    have hp := List.pairwise_iff_getElem.1 (List.pairwise_filter.1 h) i j hi' hj' hlt
    exact hp (by simpa using ha) (by simpa using hb) he
  have hij := hne hi hj ha hb he
  have hji := hne hj hi hb ha he.symm
  omega

section Rename

variable {f : Nat → Nat} {boxes boxes' : List Box} {scores scores' : List Float32}
variable {candidates kept : List Nat}

theorem Candidates.rename (hf : f.Bijective) (hs : ∀ k, scores'[k]? = scores[f k]?)
    (hu : p.Untied scores) (h : p.Candidates scores' candidates) :
    p.Candidates scores (candidates.map f) := by
  obtain ⟨all, hall, hp, rfl⟩ := h
  refine ⟨all.map f, fun i => ?_, ?_, ?_⟩
  · obtain ⟨k, rfl⟩ := hf.surjective i
    rw [List.mem_map_of_injective hf.injective, hall, hs]
  · rw [List.pairwise_map]
    refine hp.imp_of_mem fun {k l} hk hl hkl => ?_
    obtain ⟨a, b, ha, hb, hlt | ⟨heq, hlt⟩⟩ := hkl
    · exact ⟨a, b, hs k ▸ ha, hs l ▸ hb, .inl hlt⟩
    · -- There are no ties that could be broken the other way.
      obtain ⟨a', ha', habove⟩ := (hall k).1 hk
      obtain ⟨b', hb', hbove⟩ := (hall l).1 hl
      obtain rfl := Option.some.inj (ha.symm.trans ha')
      obtain rfl := Option.some.inj (hb.symm.trans hb')
      rw [hs] at ha hb
      have he := hf.injective (hu.eq_of_rank_eq ha hb habove hbove heq)
      omega
  · split
    · rw [List.map_take]
    · rfl

theorem clears_rename (hb : ∀ k, boxes'[k]? = boxes[f k]?) {threshold : Float32} {c k : Nat} :
    Clears boxes threshold (f c) (f k) ↔ Clears boxes' threshold c k := by
  simp only [Clears, overlap?, hb]

theorem keptBefore_map (hf : f.Injective) (kept before : List Nat) :
    keptBefore (kept.map f) (before.map f) = (keptBefore kept before).map f := by
  simp only [keptBefore, List.filter_map, Function.comp_def, List.mem_map_of_injective hf]

theorem Greedy.rename (hf : f.Injective) (hb : ∀ k, boxes'[k]? = boxes[f k]?)
    (h : p.Greedy boxes' candidates kept) : p.Greedy boxes (candidates.map f) (kept.map f) := by
  refine ⟨h.sublist.map f, fun before c after he => ?_⟩
  obtain ⟨before, rest, rfl, rfl, hrest⟩ := List.map_eq_append_iff.1 he
  obtain ⟨c, after, rfl, rfl, rfl⟩ := List.map_eq_cons_iff.1 hrest
  rw [List.mem_map_of_injective hf, h.mem_iff before c after rfl, keptBefore_map hf,
    List.length_map, List.forall_mem_map]
  simp only [clears_rename hb]

theorem survivors_rename (hf : f.Bijective) (hl : boxes.length = scores.length)
    (hl' : boxes'.length = scores'.length) (hb : ∀ k, boxes'[k]? = boxes[f k]?)
    (hs : ∀ k, scores'[k]? = scores[f k]?) (hu : p.Untied scores)
    (hk : p.survivors boxes' scores' = .ok kept) :
    p.survivors boxes scores = .ok (kept.map f) := by
  obtain ⟨kept', hk', hg'⟩ := p.exists_survivors hl'
  obtain rfl := Except.ok.inj (hk'.symm.trans hk)
  obtain ⟨all, hall, hg⟩ := p.exists_survivors hl
  have hc := candidates_ranking p scores
  have hrename := hc.unique ((candidates_ranking p scores').rename hf hs hu)
  rw [hall, ← hg.unique hc.nodup (hrename ▸ hg'.rename hf.injective hb)]

end Rename

def renumberedPriors (order : List Nat) (prior : List Float32) : List Float32 :=
  pickBlocks 4 (order ++ order.map (order.length + ·)) prior

def renumberedLocations (p : DetectionParameters) (order : List Nat) (location : List Float32) :
    List Float32 :=
  pickBlocks (p.locationClasses * 4) order location

def renumberedScores (p : DetectionParameters) (order : List Nat) (confidence : List Float32) :
    List Float32 :=
  pickBlocks p.classes.toNat order confidence

section Order

variable {order : List Nat} {priors k : Nat} (ho : order.Perm (List.range priors))
include ho

theorem length_order : order.length = priors := ho.length_eq.trans List.length_range

theorem lt_of_mem_order (h : k ∈ order) : k < priors := List.mem_range.1 (ho.mem_iff.1 h)

theorem getElem?_order (hk : k < priors) : order[k]? = some (formerly order k) := by
  have hlt : k < order.length := (length_order ho).symm ▸ hk
  rw [formerly, List.getD_eq_getElem?_getD, List.getElem?_eq_getElem hlt, Option.getD_some]

theorem formerly_of_le (hk : priors ≤ k) : formerly order k = k := by
  rw [formerly, List.getD_eq_getElem?_getD, List.getElem?_eq_none ((length_order ho).trans_le hk),
    Option.getD_none]

theorem formerly_lt_iff : formerly order k < priors ↔ k < priors := by
  rcases Nat.lt_or_ge k priors with hk | hk
  · exact iff_of_true (lt_of_mem_order ho (List.mem_of_getElem? (getElem?_order ho hk))) hk
  · rw [formerly_of_le ho hk]

theorem bijective_formerly : (formerly order).Bijective := by
  constructor
  case left =>
    intro k l he
    have hlt : k < priors ↔ l < priors := by
      rw [← formerly_lt_iff ho, he, formerly_lt_iff ho]
    rcases Nat.lt_or_ge k priors with hk | hk
    · have hkl : order[k]? = order[l]? := by
        rw [getElem?_order ho hk, getElem?_order ho (hlt.1 hk), he]
      have hn : order.Nodup := ho.nodup_iff.2 List.nodup_range
      exact (List.getElem?_inj ((length_order ho).symm ▸ hk) hn).1 hkl
    · rwa [formerly_of_le ho hk, formerly_of_le ho (by omega)] at he
  case right =>
    intro k
    rcases Nat.lt_or_ge k priors with hk | hk
    · obtain ⟨l, hl⟩ := List.mem_iff_getElem?.1 (ho.mem_iff.2 (List.mem_range.2 hk))
      have hlt : l < priors := length_order ho ▸ (List.getElem?_eq_some_iff.1 hl).1
      exact ⟨l, Option.some.inj ((getElem?_order ho hlt).symm.trans hl)⟩
    · exact ⟨k, formerly_of_le ho hk⟩

end Order

section Predictions

variable {x : Predictions} {location confidence prior : List Float32} {priors label : Nat}
variable {order : List Nat} (ho : order.Perm (List.range priors))
include ho

theorem getElem?_boxes_renumbered (k : Nat) :
    ((x.renumbered order).boxes priors label)[k]? = (x.boxes priors label)[formerly order k]? := by
  rcases Nat.lt_or_ge k priors with hk | hk
  · rw [Predictions.getElem?_boxes hk, Predictions.getElem?_boxes ((formerly_lt_iff ho).2 hk)]
    rfl
  · rw [formerly_of_le ho hk, List.getElem?_eq_none (by simpa), List.getElem?_eq_none (by simpa)]

theorem getElem?_scores_renumbered (k : Nat) :
    ((x.renumbered order).scores priors label)[k]? = (x.scores priors label)[formerly order k]? := by
  rcases Nat.lt_or_ge k priors with hk | hk
  · rw [Predictions.getElem?_scores hk, Predictions.getElem?_scores ((formerly_lt_iff ho).2 hk)]
    rfl
  · rw [formerly_of_le ho hk, List.getElem?_eq_none (by simpa), List.getElem?_eq_none (by simpa)]

theorem blocks_le {size : Nat} {values : List Float32} (hv : values.length = priors * size) :
    ∀ k ∈ order, k * size + size ≤ values.length := fun _ hk =>
  hv ▸ block_le size (lt_of_mem_order ho hk)

variable (h : p.Fits location confidence prior priors)
include h

theorem priorBlocks_le :
    ∀ k ∈ order ++ order.map (order.length + ·), k * 4 + 4 ≤ prior.length := by
  intro k hk
  have hprior := h.prior
  rw [List.mem_append, List.mem_map] at hk
  rcases hk with hk | ⟨l, hl, rfl⟩
  · have hlt := lt_of_mem_order ho hk
    omega
  · have hlt := lt_of_mem_order ho hl
    rw [length_order ho]
    omega

theorem Fits.renumbered : p.Fits (p.renumberedLocations order location)
    (p.renumberedScores order confidence) (renumberedPriors order prior) priors where
  location := by
    rw [renumberedLocations, length_pickBlocks (blocks_le ho (by rw [h.location, Nat.mul_assoc])),
      length_order ho, Nat.mul_assoc]
  confidence := by
    rw [renumberedScores, length_pickBlocks (blocks_le ho h.confidence), length_order ho]
  prior := by
    rw [renumberedPriors, length_pickBlocks (priorBlocks_le ho h), List.length_append,
      List.length_map, length_order ho]
    omega

theorem Predicts.renumbered {c k : Nat} {b : Box} (hk : k < priors) (hc : c < p.locationClasses)
    (hb : p.Predicts location prior priors c (formerly order k) b) :
    p.Predicts (p.renumberedLocations order location) (renumberedPriors order prior) priors c k
      b := by
  obtain ⟨box, variances, loc, hbox, hvariances, hloc, rfl⟩ := hb
  have hlen := length_order ho
  have hformer := getElem?_order ho hk
  refine ⟨box, variances, loc, hbox.of_block fun j hj => ?_, hvariances.of_block fun j hj => ?_,
    hloc.of_block fun j hj => ?_, rfl⟩
  · refine getElem?_pickBlocks (priorBlocks_le ho h) ?_ hj
    rw [List.getElem?_append_left (hlen.symm ▸ hk), hformer]
  · refine getElem?_pickBlocks (priorBlocks_le ho h) ?_ hj
    rw [List.getElem?_append_right (by omega), hlen, Nat.add_sub_cancel_left, List.getElem?_map,
      hformer]
    rfl
  · have hplace : ∀ i, (i * p.locationClasses + c) * 4 + j =
        i * (p.locationClasses * 4) + (c * 4 + j) := fun i => by
      rw [Nat.add_mul, Nat.mul_assoc, Nat.add_assoc]
    rw [hplace, hplace]
    exact getElem?_pickBlocks (blocks_le ho (by rw [h.location, Nat.mul_assoc])) hformer
      (block_lt hc hj)

theorem Reads.renumbered (hx : p.Reads location confidence prior priors x) :
    p.Reads (p.renumberedLocations order location) (p.renumberedScores order confidence)
      (renumberedPriors order prior) priors (x.renumbered order) := by
  constructor
  case box =>
    intro label hl k hk
    exact (hx.box label hl _ ((formerly_lt_iff ho).2 hk)).renumbered ho h hk (locationClass_lt hl)
  case score =>
    intro label hl k hk
    exact (getElem?_pickBlocks (blocks_le ho h.confidence) (getElem?_order ho hk) hl).trans
      (hx.score label hl _ ((formerly_lt_iff ho).2 hk))

end Predictions

variable {location confidence prior : List Float32} {priors : Nat} {order : List Nat}

theorem allDetections_renumbered (h : p.Fits location confidence prior priors)
    (ho : order.Perm (List.range priors))
    (hu : ∀ label ∈ p.labels, ∀ scores,
      p.classScores confidence priors label = .ok scores → p.Untied scores) :
    ∃ found, p.allDetections location confidence prior = .ok found ∧
      p.allDetections (p.renumberedLocations order location) (p.renumberedScores order confidence)
        (renumberedPriors order prior) = .ok found := by
  have hx := h.reads_predictions
  set x := p.predictions location confidence prior priors
  obtain ⟨kept, hk⟩ := p.exists_kept priors x
  obtain ⟨kept', hk'⟩ := p.exists_kept priors (x.renumbered order)
  have hkept : ∀ label ∈ p.labels, kept label = (kept' label).map (formerly order) := by
    intro label hm
    have hscores := hx.classScores_eq (lt_of_mem_labels hm)
    have hrename := survivors_rename (bijective_formerly ho) (by simp) (by simp)
      (getElem?_boxes_renumbered ho) (getElem?_scores_renumbered ho) (hu label hm _ hscores)
      (hk' label)
    exact Except.ok.inj ((hk label).symm.trans hrename)
  have hsources : (sources p.labels kept).map x.detection =
      (sources p.labels kept').map (x.renumbered order).detection := by
    rw [sources, sources, List.map_flatMap, List.map_flatMap, List.flatMap_def, List.flatMap_def]
    refine congrArg List.flatten (List.map_congr_left fun label hm => ?_)
    rw [hkept label hm, List.map_map, List.map_map, List.map_map]
    rfl
  refine ⟨_, h.allDetections_eq hx hk, ?_⟩
  rw [(h.renumbered ho).allDetections_eq (hx.renumbered ho h) hk', hsources]

/-- The same is detected under any numbering of the prior boxes, if of every class that can be
detected no two scores above the threshold are the same. -/
theorem detect_renumbered (h : p.Fits location confidence prior priors)
    (ho : order.Perm (List.range priors))
    (hu : ∀ label ∈ p.labels, ∀ scores,
      p.classScores confidence priors label = .ok scores → p.Untied scores) :
    ∃ found, p.detect location confidence prior = .ok found ∧
      p.detect (p.renumberedLocations order location) (p.renumberedScores order confidence)
        (renumberedPriors order prior) = .ok found := by
  obtain ⟨found, hd, hd'⟩ := allDetections_renumbered h ho hu
  refine ⟨p.best found, ?_, ?_⟩
  · rw [detect, hd, ok_bind, pure_eq_ok]
  · rw [detect, hd', ok_bind, pure_eq_ok]

theorem detect_renumbered_threePriors :
    let p := { standard 2 4 with sharedLocation := false, scoreThreshold := 0.25 }
    let location : List Float32 := List.replicate 20 0 ++ [1, 0, 1, 0]
    let confidence : List Float32 := [0.5, 0.5, 0.5, 0.25, 0.5, 0.75]
    let prior : List Float32 := [0, 0, 1, 1, 0, 0, 1, 0.95, 2, 2, 3, 3] ++ List.replicate 12 1
    let order := [2, 0, 1]
    p.Fits location confidence prior 3 ∧ order.Perm (List.range 3) ∧
      (∀ label ∈ p.labels, ∀ scores,
        p.classScores confidence 3 label = .ok scores → p.Untied scores) ∧
      ∃ found, p.detect location confidence prior = .ok found ∧
        p.detect (p.renumberedLocations order location) (p.renumberedScores order confidence)
          (renumberedPriors order prior) = .ok found := by
  intro p location confidence prior order
  have hf : p.Fits location confidence prior 3 := ⟨rfl, rfl, rfl⟩
  have ho : order.Perm (List.range 3) := by decide
  have hu : ∀ label ∈ p.labels, ∀ scores,
      p.classScores confidence 3 label = .ok scores → p.Untied scores := by
    intro label hl scores hs
    have hlabel : p.labels = [1] := by decide
    rw [hlabel, List.mem_singleton] at hl
    subst hl
    obtain rfl : scores = [0.5, 0.25, 0.75] := Except.ok.inj (hs.symm.trans rfl)
    decide
  exact ⟨hf, ho, hu, detect_renumbered hf ho hu⟩

end DetectionParameters

end InferenceGraph
