import InferenceGraph.Detection.Table
import InferenceGraph.Proofs.Detection.Suppression
import InferenceGraph.Proofs.Sequence.Blocks

/-!
# Predictions of an image

The values of an image lie in three lists. Prior boxes and their variances are blocks of four, the
variances after all boxes; the locations of a prior box are blocks of four as well, one for all
classes or one for each; its scores stand in a row, one for each class. Lists that fit the prior
boxes have all these places, so nothing is ever looked up out of range, and the detections before the
best are chosen are the survivors of every class, class by class.
-/

set_option autoImplicit false

namespace InferenceGraph

/-- The values of one image go with this number of prior boxes. -/
structure DetectionParameters.Fits (p : DetectionParameters)
    (location confidence prior : List Float32) (priors : Nat) : Prop where
  location : location.length = priors * p.locationClasses * 4
  confidence : confidence.length = priors * p.classes.toNat
  prior : prior.length = priors * 8

namespace Box

structure At (b : Box) (values : List Float32) (block : Nat) : Prop where
  xmin : values[block * 4]? = some b.xmin
  ymin : values[block * 4 + 1]? = some b.ymin
  xmax : values[block * 4 + 2]? = some b.xmax
  ymax : values[block * 4 + 3]? = some b.ymax

def ofBlock (values : List Float32) (block : Nat) : Box where
  xmin := values.getD (block * 4) 0
  ymin := values.getD (block * 4 + 1) 0
  xmax := values.getD (block * 4 + 2) 0
  ymax := values.getD (block * 4 + 3) 0

variable {values : List Float32} {block : Nat}

theorem at_ofBlock (h : block * 4 + 4 ≤ values.length) : (ofBlock values block).At values block := by
  have hget : ∀ i < 4, values[block * 4 + i]? = some (values.getD (block * 4 + i) 0) := by
    intro i hi
    have hlt : block * 4 + i < values.length := by omega
    rw [List.getD_eq_getElem?_getD, List.getElem?_eq_getElem hlt, Option.getD_some]
  exact ⟨hget 0 (by decide), hget 1 (by decide), hget 2 (by decide), hget 3 (by decide)⟩

theorem At.drop {b : Box} (h : b.At values block) :
    ∃ rest, values.drop (block * 4) = b.toList ++ rest := by
  obtain ⟨hxmin, hymin, hxmax, hymax⟩ := h
  simp only [List.getElem?_eq_some_iff] at hxmin hymin hxmax hymax
  obtain ⟨h0, h0'⟩ := hxmin
  obtain ⟨h1, h1'⟩ := hymin
  obtain ⟨h2, h2'⟩ := hxmax
  obtain ⟨h3, h3'⟩ := hymax
  refine ⟨values.drop (block * 4 + 4), ?_⟩
  rw [List.drop_eq_getElem_cons h0, List.drop_eq_getElem_cons h1, List.drop_eq_getElem_cons h2,
    List.drop_eq_getElem_cons h3, h0', h1', h2', h3']
  rfl

theorem At.of_block {values' : List Float32} {block' : Nat} {b : Box} (h : b.At values block)
    (he : ∀ j < 4, values'[block' * 4 + j]? = values[block * 4 + j]?) : b.At values' block' where
  xmin := (he 0 (by decide)).trans h.xmin
  ymin := (he 1 (by decide)).trans h.ymin
  xmax := (he 2 (by decide)).trans h.xmax
  ymax := (he 3 (by decide)).trans h.ymax

end Box

/-- A box and a score for every label and every prior box. -/
structure Predictions where
  box : (label k : Nat) → Box
  score : (label k : Nat) → Float32

namespace Predictions

def boxes (x : Predictions) (priors label : Nat) : List Box := (List.range priors).map (x.box label)

def scores (x : Predictions) (priors label : Nat) : List Float32 :=
  (List.range priors).map (x.score label)

variable {x : Predictions} {priors label k : Nat}

@[simp] theorem length_boxes : (x.boxes priors label).length = priors := by simp [boxes]

@[simp] theorem length_scores : (x.scores priors label).length = priors := by simp [scores]

theorem getElem?_boxes (hk : k < priors) : (x.boxes priors label)[k]? = some (x.box label k) := by
  simp [boxes, hk]

theorem getElem?_scores (hk : k < priors) :
    (x.scores priors label)[k]? = some (x.score label k) := by
  simp [scores, hk]

def detection (x : Predictions) (source : Nat × Nat) : Detection :=
  ⟨source.1, x.score source.1 source.2, x.box source.1 source.2⟩

end Predictions

namespace DetectionParameters

def locationClass (p : DetectionParameters) (label : Nat) : Nat :=
  if p.sharedLocation then 0 else label

def scalesOf (p : DetectionParameters) (variances : Box) : Scales :=
  if p.varianceInTarget then .one
  else ⟨variances.xmin, variances.ymin, variances.xmax, variances.ymax⟩

def predictions (p : DetectionParameters) (location confidence prior : List Float32)
    (priors : Nat) : Predictions where
  box label k := p.decode (.ofBlock prior k) (p.scalesOf (.ofBlock prior (priors + k)))
    (.ofBlock location (k * p.locationClasses + p.locationClass label))
  score label k := confidence.getD (k * p.classes.toNat + label) 0

/-- The box that a prior box predicts with its variances and its location of a class. -/
def Predicts (p : DetectionParameters) (location prior : List Float32) (priors c k : Nat)
    (b : Box) : Prop :=
  ∃ box variances loc : Box, box.At prior k ∧ variances.At prior (priors + k) ∧
    loc.At location (k * p.locationClasses + c) ∧ b = p.decode box (p.scalesOf variances) loc

structure Reads (p : DetectionParameters) (location confidence prior : List Float32) (priors : Nat)
    (x : Predictions) : Prop where
  box : ∀ label < p.classes.toNat, ∀ k < priors,
    p.Predicts location prior priors (p.locationClass label) k (x.box label k)
  score : ∀ label < p.classes.toNat, ∀ k < priors,
    confidence[k * p.classes.toNat + label]? = some (x.score label k)

/-- The survivors of every class by their prior boxes. -/
def Thins (p : DetectionParameters) (priors : Nat) (x : Predictions) (kept : Nat → List Nat) :
    Prop :=
  ∀ label, p.survivors (x.boxes priors label) (x.scores priors label) = .ok (kept label)

/-- The survivors of some classes, class by class, each as a label and a prior box. -/
def sources (labels : List Nat) (kept : Nat → List Nat) : List (Nat × Nat) :=
  labels.flatMap fun label => (kept label).map fun k => (label, k)

variable {p : DetectionParameters} {location confidence prior : List Float32}
variable {priors label k : Nat} {x : Predictions} {kept : Nat → List Nat}

theorem mem_sources_iff {labels : List Nat} {s : Nat × Nat} :
    s ∈ sources labels kept ↔ s.1 ∈ labels ∧ s.2 ∈ kept s.1 := by
  obtain ⟨label, k⟩ := s
  simp only [sources, List.mem_flatMap, List.mem_map, Prod.mk.injEq]
  constructor
  · rintro ⟨label', hl, k', hk, rfl, rfl⟩
    exact ⟨hl, hk⟩
  · rintro ⟨hl, hk⟩
    exact ⟨label, hl, k, hk, rfl, rfl⟩

theorem lt_of_mem_labels (h : label ∈ p.labels) : label < p.classes.toNat :=
  List.mem_range.1 (List.mem_of_mem_filter h)

theorem locationClass_lt (h : label < p.classes.toNat) :
    p.locationClass label < p.locationClasses := by
  unfold locationClass locationClasses
  split
  · exact Nat.one_pos
  · exact h

theorem exists_kept (p : DetectionParameters) (priors : Nat) (x : Predictions) :
    ∃ kept, p.Thins priors x kept := by
  have hk : ∀ label, ∃ kept,
      p.survivors (x.boxes priors label) (x.scores priors label) = .ok kept := fun label => by
    have hlen : (x.boxes priors label).length = (x.scores priors label).length := by simp
    obtain ⟨kept, hk, -⟩ := p.exists_survivors hlen
    exact ⟨kept, hk⟩
  exact ⟨fun label => (hk label).choose, fun label => (hk label).choose_spec⟩

theorem Thins.greedy (h : p.Thins priors x kept) (label : Nat) :
    ∃ candidates, p.Candidates (x.scores priors label) candidates ∧
      p.Greedy (x.boxes priors label) candidates (kept label) := by
  have hlen : (x.boxes priors label).length = (x.scores priors label).length := by simp
  obtain ⟨kept', hk, hg⟩ := p.exists_survivors hlen
  obtain rfl := Except.ok.inj (hk.symm.trans (h label))
  exact ⟨_, candidates_ranking p _, hg⟩

theorem Thins.nodup (h : p.Thins priors x kept) (label : Nat) : (kept label).Nodup := by
  obtain ⟨candidates, hc, hg⟩ := h.greedy label
  exact hc.nodup.sublist hg.sublist

theorem Thins.of_mem (h : p.Thins priors x kept) (hk : k ∈ kept label) :
    k < priors ∧ x.score label k > p.scoreThreshold := by
  obtain ⟨candidates, hc, hg⟩ := h.greedy label
  obtain ⟨s, hs, habove⟩ := hc.above (hg.sublist.subset hk)
  have hlt : k < priors := by simpa using hc.lt (hg.sublist.subset hk)
  rw [Predictions.getElem?_scores hlt, Option.some.injEq] at hs
  exact ⟨hlt, hs ▸ habove⟩

theorem scales_of_at {variances : Box} (h : variances.At prior (priors + k)) :
    p.scales (prior.drop (priors * 4 + k * 4)) = .ok (p.scalesOf variances) := by
  obtain ⟨rest, hd⟩ := h.drop
  rw [Nat.add_mul] at hd
  rw [hd]
  unfold scales scalesOf
  split <;> rfl

theorem Predicts.decodedBox_eq {c : Nat} {b : Box} (hb : p.Predicts location prior priors c k b)
    (hp : priorCount prior = priors) : p.decodedBox location prior c k = .ok b := by
  obtain ⟨box, variances, loc, hbox, hvariances, hloc, rfl⟩ := hb
  obtain ⟨_, hbox⟩ := hbox.drop
  obtain ⟨_, hloc⟩ := hloc.drop
  simp only [decodedBox, hp, hbox, hloc, Box.ofList?_toList, Outcome.get_some, ok_bind,
    scales_of_at hvariances, pure_eq_ok]

namespace Fits

variable (h : p.Fits location confidence prior priors)
include h

theorem priorCount_eq : priorCount prior = priors := by
  rw [priorCount, h.prior, Nat.mul_div_cancel priors (by decide)]

theorem predicts_ofBlock {c : Nat} (hc : c < p.locationClasses) (hk : k < priors) :
    p.Predicts location prior priors c k
      (p.decode (.ofBlock prior k) (p.scalesOf (.ofBlock prior (priors + k)))
        (.ofBlock location (k * p.locationClasses + c))) := by
  have hlocation := h.location
  have hprior := h.prior
  have hblock := block_lt hk hc
  exact ⟨_, _, _, Box.at_ofBlock (by omega), Box.at_ofBlock (by omega),
    Box.at_ofBlock (by omega), rfl⟩

theorem reads_predictions :
    p.Reads location confidence prior priors (p.predictions location confidence prior priors) := by
  constructor
  case box => exact fun label hl k hk => h.predicts_ofBlock (locationClass_lt hl) hk
  case score =>
    intro label hl k hk
    have hlt := block_lt hk hl
    rw [← h.confidence] at hlt
    change _ = some (confidence.getD _ 0)
    rw [List.getD_eq_getElem?_getD, List.getElem?_eq_getElem hlt, Option.getD_some]

theorem exists_decoded : ∃ decoded,
    (List.range p.locationClasses).mapM (p.decodedClass location prior) = .ok decoded := by
  refine mapM_ok_of_forall fun c hc => mapM_ok_of_forall fun k hk => ?_
  rw [h.priorCount_eq] at hk
  have hb := h.predicts_ofBlock (List.mem_range.1 hc) (List.mem_range.1 hk)
  exact ⟨_, hb.decodedBox_eq h.priorCount_eq⟩

theorem decodedClass_eq (hx : p.Reads location confidence prior priors x)
    (hl : label < p.classes.toNat) :
    p.decodedClass location prior (p.locationClass label) = .ok (x.boxes priors label) := by
  unfold decodedClass
  rw [h.priorCount_eq]
  exact mapM_ok_of_eq_ok fun k hk =>
    (hx.box label hl k (List.mem_range.1 hk)).decodedBox_eq h.priorCount_eq

end Fits

theorem Reads.classScores_eq (hx : p.Reads location confidence prior priors x)
    (hl : label < p.classes.toNat) :
    p.classScores confidence priors label = .ok (x.scores priors label) := by
  refine mapM_ok_of_eq_ok fun k hk => ?_
  rw [hx.score label hl k (List.mem_range.1 hk), Outcome.get_some]

theorem Thins.classDetections_eq (hk : p.Thins priors x kept) (label : Nat) :
    p.classDetections (x.boxes priors label) (x.scores priors label) label =
      .ok ((kept label).map fun k => x.detection (label, k)) := by
  rw [classDetections, hk label, ok_bind]
  refine mapM_ok_of_eq_ok fun k hm => ?_
  have hlt := (hk.of_mem hm).1
  rw [Predictions.getElem?_scores hlt, Predictions.getElem?_boxes hlt, Outcome.get_some, ok_bind,
    Outcome.get_some, ok_bind]
  rfl

/-- What is found before the best are chosen: the survivors of all classes. -/
theorem Fits.allDetections_eq (h : p.Fits location confidence prior priors)
    (hx : p.Reads location confidence prior priors x) (hk : p.Thins priors x kept) :
    p.allDetections location confidence prior =
      .ok ((sources p.labels kept).map x.detection) := by
  obtain ⟨decoded, hd⟩ := h.exists_decoded
  have hclass : p.labels.mapM (fun label => do
      let boxes ← Outcome.get .outOfRange decoded[if p.sharedLocation then 0 else label]?
      let scores ← p.classScores confidence priors label
      p.classDetections boxes scores label) =
        .ok (p.labels.map fun label => (kept label).map fun k => x.detection (label, k)) := by
    refine mapM_ok_of_eq_ok fun label hm => ?_
    have hl := lt_of_mem_labels hm
    obtain ⟨boxes, hboxes, hc⟩ := getElem?_of_mapM hd (List.getElem?_range (locationClass_lt hl))
    obtain rfl := Except.ok.inj (hc.symm.trans (h.decodedClass_eq hx hl))
    change (Outcome.get .outOfRange decoded[p.locationClass label]? >>= fun boxes => _) = _
    rw [hboxes, Outcome.get_some, ok_bind, hx.classScores_eq hl, ok_bind, hk.classDetections_eq]
  rw [allDetections, hd, ok_bind, h.priorCount_eq, hclass, ok_bind, pure_eq_ok, sources,
    List.map_flatMap, List.flatMap_def]
  simp only [List.map_map, Function.comp_def]

end DetectionParameters

end InferenceGraph
