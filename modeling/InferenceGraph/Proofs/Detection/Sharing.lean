import InferenceGraph.Proofs.Detection

set_option autoImplicit false

namespace InferenceGraph

namespace DetectionParameters

def sharing (p : DetectionParameters) (shared : Bool) : DetectionParameters :=
  { p with sharedLocation := shared }

/-- The location of each prior box once for every class. -/
def spreadLocations (p : DetectionParameters) (priors : Nat) (location : List Float32) :
    List Float32 :=
  pickBlocks 4 ((List.range priors).flatMap fun k => List.replicate p.classes.toNat k) location

def priorBox (p : DetectionParameters) (location prior : List Float32) (k : Nat) : Box :=
  p.decode (.ofBlock prior k) (p.scalesOf (.ofBlock prior (priorCount prior + k)))
    (.ofBlock location k)

variable {p : DetectionParameters} {location confidence prior : List Float32} {priors c k : Nat}

section Spread

variable (hl : location.length = priors * 4)
include hl

theorem spread_le : ∀ k ∈ (List.range priors).flatMap (fun k => List.replicate p.classes.toNat k),
    k * 4 + 4 ≤ location.length := by
  intro k hk
  obtain ⟨i, hi, hk⟩ := List.mem_flatMap.1 hk
  obtain rfl := (List.mem_replicate.1 hk).2
  exact hl ▸ block_le 4 (List.mem_range.1 hi)

theorem length_spreadLocations :
    (p.spreadLocations priors location).length = priors * p.classes.toNat * 4 := by
  rw [spreadLocations, length_pickBlocks (spread_le hl),
    length_flatMap_range (fun _ => List.length_replicate)]

theorem at_spreadLocations (hk : k < priors) (hc : c < p.classes.toNat) {b : Box}
    (hb : b.At location k) : b.At (p.spreadLocations priors location) (k * p.classes.toNat + c) := by
  refine hb.of_block fun j hj => getElem?_pickBlocks (spread_le hl) ?_ hj
  rw [getElem?_flatMap_range (fun _ => List.length_replicate) hk hc, List.getElem?_replicate,
    if_pos hc]

theorem predicts_priorBox (hq : k < priorCount prior) (hk : k < priors) :
    (p.sharing true).Predicts location prior (priorCount prior) 0 k (p.priorBox location prior k) ∧
      ∀ c < p.classes.toNat, (p.sharing false).Predicts (p.spreadLocations priors location) prior
        (priorCount prior) c k (p.priorBox location prior k) := by
  have hlen : priorCount prior * 8 ≤ prior.length := Nat.div_mul_le_self prior.length 8
  have hbox : (Box.ofBlock prior k).At prior k := Box.at_ofBlock (by omega)
  have hvariances : (Box.ofBlock prior (priorCount prior + k)).At prior (priorCount prior + k) :=
    Box.at_ofBlock (by omega)
  have hloc : (Box.ofBlock location k).At location k := Box.at_ofBlock (by omega)
  have hplace : k * (p.sharing true).locationClasses + 0 = k := Nat.mul_one k
  exact ⟨⟨_, _, _, hbox, hvariances, hplace.symm ▸ hloc, rfl⟩,
    fun c hc => ⟨_, _, _, hbox, hvariances, at_spreadLocations hl hk hc hloc, rfl⟩⟩

theorem exists_decodedClass (hp : priorCount prior ≤ priors) : ∃ boxes,
    (p.sharing true).decodedClass location prior 0 = .ok boxes ∧ ∀ c < p.classes.toNat,
      (p.sharing false).decodedClass (p.spreadLocations priors location) prior c = .ok boxes := by
  have hbox := fun k (hk : k ∈ List.range (priorCount prior)) =>
    predicts_priorBox (p := p) hl (List.mem_range.1 hk)
      (Nat.lt_of_lt_of_le (List.mem_range.1 hk) hp)
  refine ⟨(List.range (priorCount prior)).map (p.priorBox location prior),
    mapM_ok_of_eq_ok fun k hk => ?_, fun c hc => mapM_ok_of_eq_ok fun k hk => ?_⟩
  · exact (hbox k hk).1.decodedBox_eq rfl
  · exact ((hbox k hk).2 c hc).decodedBox_eq rfl

end Spread

theorem eq_outOfRange_of_scales {variances : List Float32} {e : Failure}
    (h : p.scales variances = .error e) : e = .breach .outOfRange := by
  unfold scales at h
  split at h
  · cases h
  · split at h
    · cases h
    · exact (Except.error.inj h).symm

theorem eq_outOfRange_of_decodedBox {e : Failure}
    (h : p.decodedBox location prior c k = .error e) : e = .breach .outOfRange := by
  rw [decodedBox, bind_eq_error_iff] at h
  obtain h | ⟨box, -, h⟩ := h
  · exact (Outcome.get_eq_error_iff.1 h).2
  obtain h | ⟨s, -, h⟩ := bind_eq_error_iff.1 h
  · exact eq_outOfRange_of_scales h
  obtain h | ⟨loc, -, h⟩ := bind_eq_error_iff.1 h
  · exact (Outcome.get_eq_error_iff.1 h).2
  · cases h

theorem decodedBox_ne_ok (h : location.length ≤ (k * p.locationClasses + c) * 4) (b : Box) :
    p.decodedBox location prior c k ≠ .ok b := by
  intro hb
  simp only [decodedBox, bind_eq_ok_iff, List.drop_eq_nil_of_le h] at hb
  obtain ⟨-, -, -, -, loc, hloc, -⟩ := hb
  cases hloc

theorem allDetections_short (hc : 0 < p.locationClasses) (hk : k < priorCount prior)
    (hl : location.length ≤ k * p.locationClasses * 4) :
    p.allDetections location confidence prior = .error (.breach .outOfRange) := by
  have hclass : p.decodedClass location prior 0 = .error (.breach .outOfRange) := by
    cases hd : p.decodedClass location prior 0 with
    | error e =>
      obtain ⟨_, x, _, _, _, he⟩ := mapM_eq_error hd
      rw [eq_outOfRange_of_decodedBox he]
    | ok boxes =>
      obtain ⟨b, -, hb⟩ := exists_of_mapM hd (List.mem_range.2 hk)
      exact absurd hb (decodedBox_ne_ok hl b)
  obtain ⟨n, hn⟩ := Nat.exists_eq_succ_of_ne_zero hc.ne'
  rw [allDetections, hn, List.range_succ_eq_map, List.mapM_cons, hclass]
  rfl

theorem suppress_sharing (p : DetectionParameters) (shared : Bool) (boxes : List Box)
    (threshold : Float32) (kept candidates : List Nat) :
    (p.sharing shared).suppress boxes threshold kept candidates =
      p.suppress boxes threshold kept candidates := by
  induction candidates generalizing threshold kept with
  | nil => rfl
  | cons c candidates ih =>
    rw [suppress, suppress]
    simp only [ih]
    rfl

theorem classDetections_sharing (p : DetectionParameters) (shared : Bool) (boxes : List Box)
    (scores : List Float32) (label : Nat) :
    (p.sharing shared).classDetections boxes scores label =
      p.classDetections boxes scores label := by
  have hs : (p.sharing shared).survivors boxes scores = p.survivors boxes scores :=
    p.suppress_sharing shared boxes p.overlapThreshold [] (p.ranking scores)
  rw [classDetections, classDetections, hs]

def labelDetections (p : DetectionParameters) (boxes : List Box) (confidence : List Float32)
    (priors label : Nat) : Outcome (List Detection) := do
  p.classDetections boxes (← p.classScores confidence priors label) label

theorem allDetections_eq_of_decoded {shared : Bool} {decoded : List (List Box)} {boxes : List Box}
    (hd : (List.range (p.sharing shared).locationClasses).mapM
      ((p.sharing shared).decodedClass location prior) = .ok decoded)
    (hb : ∀ label < p.classes.toNat,
      decoded[(p.sharing shared).locationClass label]? = some boxes) :
    (p.sharing shared).allDetections location confidence prior = do
      let perClass ← p.labels.mapM (p.labelDetections boxes confidence (priorCount prior))
      return perClass.flatten := by
  have hclass : ((p.sharing shared).labels.mapM fun label => do
      let boxes ← Outcome.get .outOfRange
        decoded[if (p.sharing shared).sharedLocation then 0 else label]?
      let scores ← (p.sharing shared).classScores confidence (priorCount prior) label
      (p.sharing shared).classDetections boxes scores label) =
        p.labels.mapM (p.labelDetections boxes confidence (priorCount prior)) := by
    refine mapM_congr_of_mem fun label hm => ?_
    change (Outcome.get .outOfRange decoded[(p.sharing shared).locationClass label]? >>= _) = _
    rw [hb label (lt_of_mem_labels hm), Outcome.get_some, ok_bind]
    simp only [classDetections_sharing]
    rfl
  rw [allDetections, hd, ok_bind, hclass]

theorem allDetections_spread (hc : 1 ≤ p.classes) (hl : location.length = priors * 4)
    (confidence prior : List Float32) :
    (p.sharing true).allDetections location confidence prior =
      (p.sharing false).allDetections (p.spreadLocations priors location) confidence prior := by
  rcases Nat.lt_or_ge priors (priorCount prior) with hlt | hle
  · have hone : 0 < (p.sharing true).locationClasses := Nat.one_pos
    have hclasses : 0 < (p.sharing false).locationClasses := UInt32.le_iff_toNat_le.1 hc
    have hle : location.length ≤ priors * (p.sharing true).locationClasses * 4 :=
      hl.trans_le (Nat.mul_le_mul_right 4 (Nat.mul_one priors).ge)
    rw [allDetections_short hone hlt hle,
      allDetections_short hclasses hlt (length_spreadLocations (p := p) hl).le]
  obtain ⟨boxes, hshared, hspread⟩ := exists_decodedClass (p := p) hl hle
  have hone : (List.range 1).mapM ((p.sharing true).decodedClass location prior) = .ok [boxes] := by
    rw [List.range_one, List.mapM_cons, hshared]
    rfl
  have hall : (List.range p.classes.toNat).mapM
      ((p.sharing false).decodedClass (p.spreadLocations priors location) prior) =
        .ok ((List.range p.classes.toNat).map fun _ => boxes) :=
    mapM_ok_of_eq_ok fun c hc => hspread c (List.mem_range.1 hc)
  rw [allDetections_eq_of_decoded hone fun _ _ => rfl,
    allDetections_eq_of_decoded hall fun label hlabel => ?_]
  change ((List.range p.classes.toNat).map fun _ => boxes)[label]? = some boxes
  rw [List.getElem?_map, List.getElem?_range hlabel, Option.map_some]

/-- With shared locations the same is detected as with these locations for every class, whatever the
other values are; detection succeeds if they fit as well. -/
theorem detect_spread (hc : 1 ≤ p.classes) (hl : location.length = priors * 4)
    (confidence prior : List Float32) :
    (p.spreadLocations priors location).length = priors * p.classes.toNat * 4 ∧
      (p.sharing true).detect location confidence prior =
        (p.sharing false).detect (p.spreadLocations priors location) confidence prior ∧
      ((p.sharing true).Fits location confidence prior priors →
        ∃ found, (p.sharing true).detect location confidence prior = .ok found) := by
  refine ⟨length_spreadLocations hl, ?_, fun hf => ?_⟩
  · rw [detect, detect, allDetections_spread hc hl]
    rfl
  · obtain ⟨found, hd, -⟩ := hf.exists_detect
    exact ⟨found, hd⟩

theorem detect_spread_twoPriors :
    let p := { standard 3 4 with background := 1 }
    let location : List Float32 := [0, 0, 1, 1, 0.5, 0, 0, 0]
    let confidence : List Float32 := [0.5, 0, 0.25, 0.75, 0, 0.5]
    let prior : List Float32 := [0, 0, 1, 1, 2, 2, 3, 3] ++ List.replicate 8 1
    1 ≤ p.classes ∧ location.length = 2 * 4 ∧
      (p.sharing true).Fits location confidence prior 2 ∧
      (p.spreadLocations 2 location).length = 2 * 3 * 4 ∧
      (p.sharing true).detect location confidence prior =
        (p.sharing false).detect (p.spreadLocations 2 location) confidence prior ∧
      ∃ found, (p.sharing true).detect location confidence prior = .ok found := by
  intro p location confidence prior
  have hc : 1 ≤ p.classes := by decide
  have hl : location.length = 2 * 4 := rfl
  have hf : (p.sharing true).Fits location confidence prior 2 := ⟨rfl, rfl, rfl⟩
  obtain ⟨hlength, he, hfound⟩ := detect_spread hc hl confidence prior
  exact ⟨hc, hl, hf, hlength, he, hfound hf⟩

example : ({ standard 2 1 with sharedLocation := false }).spreadLocations 2
    [1, 2, 3, 4, 5, 6, 7, 8] = [1, 2, 3, 4, 1, 2, 3, 4, 5, 6, 7, 8, 5, 6, 7, 8] := rfl

end DetectionParameters

end InferenceGraph
