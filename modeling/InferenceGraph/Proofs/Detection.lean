import InferenceGraph.Proofs.Detection.Predictions
import InferenceGraph.Proofs.Detection.Tabulation
import InferenceGraph.Proofs.Scalar.Sign

set_option autoImplicit false

namespace InferenceGraph.DetectionParameters

variable {p : DetectionParameters} {location confidence prior : List Float32}
variable {priors images image : Nat}

theorem Fits.exists_detect (h : p.Fits location confidence prior priors) :
    ∃ found, p.detect location confidence prior = .ok found ∧ found.length ≤ p.keep.toNat := by
  obtain ⟨kept, hk⟩ := p.exists_kept priors (p.predictions location confidence prior priors)
  refine ⟨_, by rw [detect, h.allDetections_eq h.reads_predictions hk, ok_bind, pure_eq_ok], ?_⟩
  exact List.length_take_le _ _

theorem length_ofImage {values : List Float32} {size : Nat}
    (hv : values.length = images * size) (hi : image < images) :
    (ofImage values images image).length = size := by
  have hd : values.length / images = size := by
    rw [hv, Nat.mul_div_cancel_left size (by omega)]
  have hle := block_le size hi
  rw [ofImage, hd, List.extract_eq_take_drop, List.length_take, List.length_drop, Nat.succ_mul]
  omega

/-- What is found in each of several images. -/
def Finds (p : DetectionParameters) (images : Nat) (location confidence prior : List Float32)
    (found : Nat → List Detection) : Prop :=
  ∀ image < images, (found image).length ≤ p.keep.toNat ∧
    p.detect (ofImage location images image) (ofImage confidence images image) prior =
      .ok (found image)

theorem exists_finds (hl : location.length = images * (priors * p.locationClasses * 4))
    (hc : confidence.length = images * (priors * p.classes.toNat))
    (hp : prior.length = priors * 8) : ∃ found, p.Finds images location confidence prior found := by
  have hf : ∀ image, ∃ found : List Detection, image < images → found.length ≤ p.keep.toNat ∧
      p.detect (ofImage location images image) (ofImage confidence images image) prior =
        .ok found := fun image => by
    by_cases hi : image < images
    · have hfits : p.Fits (ofImage location images image) (ofImage confidence images image)
          prior priors := ⟨length_ofImage hl hi, length_ofImage hc hi, hp⟩
      obtain ⟨found, hd, hn⟩ := hfits.exists_detect
      exact ⟨found, fun _ => ⟨hn, hd⟩⟩
    · exact ⟨[], fun h => absurd h hi⟩
  exact ⟨fun image => (hf image).choose, fun image hi => (hf image).choose_spec hi⟩

def allRows (p : DetectionParameters) (images : Nat) (found : Nat → List Detection) :
    List (List Float32) :=
  (List.range images).flatMap fun image => p.rowsOf image (found image)

theorem length_rowOf (image : Nat) (d : Option Detection) : (rowOf image d).length = 7 := by
  cases d <;> rfl

@[simp] theorem length_rowsOf (image : Nat) (found : List Detection) :
    (p.rowsOf image found).length = p.keep.toNat := by simp [rowsOf]

theorem length_of_mem_allRows {found : Nat → List Detection} :
    ∀ row ∈ p.allRows images found, row.length = 7 := by
  intro row hr
  obtain ⟨image, -, hm⟩ := List.mem_flatMap.1 hr
  obtain ⟨j, -, rfl⟩ := List.mem_map.1 hm
  exact length_rowOf image _

theorem Finds.tabulation_eq {found : Nat → List Detection}
    (h : p.Finds images location confidence prior found) :
    p.tabulation images location confidence prior = some (p.allRows images found).flatten := by
  have hb : (List.range images).mapM (fun image => do
      let found ← (p.detect (ofImage location images image) (ofImage confidence images image)
        prior).toOption
      return (p.rowsOf image found).flatten) =
        some ((List.range images).map fun image => (p.rowsOf image (found image)).flatten) := by
    rw [mapM_option_eq_some_iff, List.map_map]
    refine List.map_congr_left fun image hm => ?_
    rw [(h image (List.mem_range.1 hm)).2]
    rfl
  rw [tabulation, hb, allRows, List.flatMap_def, List.flatten_flatten, List.map_map]
  rfl

def tableRow (values : List Float32) (r : Nat) : List Float32 :=
  (values.drop (r * 7)).take 7

def blockRows (p : DetectionParameters) (values : List Float32) (image : Nat) :
    List (List Float32) :=
  (List.range p.keep.toNat).map fun j => tableRow values (image * p.keep.toNat + j)

theorem getElem?_tableRow {values : List Float32} {r j : Nat} (hj : j < 7) :
    (tableRow values r)[j]? = values[r * 7 + j]? := by
  rw [tableRow, List.getElem?_take_of_lt hj, List.getElem?_drop]

theorem getElem?_blockRows {values : List Float32} {j : Nat} (hj : j < p.keep.toNat) :
    (p.blockRows values image)[j]? = some (tableRow values (image * p.keep.toNat + j)) := by
  rw [blockRows, List.getElem?_map, List.getElem?_range hj, Option.map_some]

theorem blockRows_flatten {found : Nat → List Detection} (hi : image < images) :
    p.blockRows (p.allRows images found).flatten image = p.rowsOf image (found image) := by
  refine List.ext_getElem (by simp [blockRows]) fun j hj hj' => ?_
  have hrow : (p.allRows images found)[image * p.keep.toNat + j]? =
      some ((p.rowsOf image (found image))[j]) := by
    rw [allRows, getElem?_flatMap_range (fun k => length_rowsOf k (found k)) hi (by simpa using hj'),
      List.getElem?_eq_getElem hj']
  simp only [blockRows, List.getElem_map, List.getElem_range, tableRow]
  exact take_drop_flatten length_of_mem_allRows hrow

theorem rowsOf_eq {found : List Detection} (h : found.length ≤ p.keep.toNat) :
    p.rowsOf image found = found.map (fun d => rowOf image (some d)) ++
      List.replicate (p.keep.toNat - found.length) (rowOf image none) := by
  refine List.ext_getElem (by simp; omega) fun j hj hj' => ?_
  simp only [rowsOf, List.getElem_map, List.getElem_range]
  by_cases hfound : j < found.length
  · rw [List.getElem_append_left (by simpa using hfound), List.getElem_map,
      List.getElem?_eq_getElem hfound]
  · rw [List.getElem_append_right (by simpa using hfound), List.getElem_replicate,
      List.getElem?_eq_none (by omega)]

def isMarked (row : List Float32) : Bool := row.headD 0 == -1

theorem isMarked_rowOf (image : Nat) (d : Option Detection) :
    isMarked (rowOf image d) = d.isNone := by
  cases d with
  | none =>
    change isMarked [-1, 0, 0, 0, 0, 0, 0] = true
    decide
  | some d => exact Scalar.ofNat_beq_neg_one image

/-- The marks are where the detections end. -/
theorem takeWhile_rowsOf {found : List Detection} (h : found.length ≤ p.keep.toNat) :
    (p.rowsOf image found).takeWhile (!isMarked ·) = (p.rowsOf image found).take found.length := by
  have hrows : ∀ row ∈ found.map fun d => rowOf image (some d), (!isMarked row) = true := by
    intro row hr
    obtain ⟨d, -, rfl⟩ := List.mem_map.1 hr
    rw [isMarked_rowOf]
    rfl
  rw [rowsOf_eq h, List.takeWhile_append_of_pos hrows, List.takeWhile_replicate, isMarked_rowOf,
    List.take_left' (List.length_map _)]
  exact List.append_nil _

/-- What a table holds of the images that it is made of. -/
structure Tabulates (p : DetectionParameters) (images : Nat)
    (location confidence prior values : List Float32) : Prop where
  length : values.length = images * p.keep.toNat * 7
  block : ∀ image < images, ∃ found,
    p.detect (ofImage location images image) (ofImage confidence images image) prior =
      .ok found ∧ found.length ≤ p.keep.toNat ∧
    p.blockRows values image =
      found.map (fun d => [Float32.ofNat image, Float32.ofNat d.label, d.score,
        d.box.xmin, d.box.ymin, d.box.xmax, d.box.ymax]) ++
      List.replicate (p.keep.toNat - found.length) [-1, 0, 0, 0, 0, 0, 0] ∧
    (p.blockRows values image).takeWhile (!isMarked ·) =
      (p.blockRows values image).take found.length

theorem Finds.tabulates {found : Nat → List Detection}
    (h : p.Finds images location confidence prior found) :
    p.Tabulates images location confidence prior (p.allRows images found).flatten := by
  refine ⟨?_, fun image hi => ⟨found image, (h image hi).2, (h image hi).1, ?_, ?_⟩⟩
  · rw [length_flatten_of_length length_of_mem_allRows, allRows,
      length_flatMap_range fun k => length_rowsOf k (found k)]
  · rw [blockRows_flatten hi]
    exact rowsOf_eq (h image hi).1
  · rw [blockRows_flatten hi, takeWhile_rowsOf (h image hi).1]

theorem exists_tabulation (hl : location.length = images * (priors * p.locationClasses * 4))
    (hc : confidence.length = images * (priors * p.classes.toNat))
    (hp : prior.length = priors * 8) :
    ∃ values, p.tabulation images location confidence prior = some values ∧
      p.Tabulates images location confidence prior values := by
  obtain ⟨found, hf⟩ := exists_finds hl hc hp
  exact ⟨_, hf.tabulation_eq, hf.tabulates⟩

theorem Tabulates.blockRows_congr {location' confidence' values values' : List Float32}
    (h : p.Tabulates images location confidence prior values)
    (h' : p.Tabulates images location' confidence' prior values') (hi : image < images)
    (hl : ofImage location images image = ofImage location' images image)
    (hc : ofImage confidence images image = ofImage confidence' images image) :
    p.blockRows values image = p.blockRows values' image := by
  obtain ⟨found, hd, -, hb, -⟩ := h.block image hi
  obtain ⟨found', hd', -, hb', -⟩ := h'.block image hi
  rw [hl, hc] at hd
  obtain rfl := Except.ok.inj (hd.symm.trans hd')
  rw [hb, hb']

theorem Tabulates.eq_of_blockRows {location' confidence' prior' values values' : List Float32}
    (h : p.Tabulates images location confidence prior values)
    (h' : p.Tabulates images location' confidence' prior' values')
    (hb : ∀ image < images, p.blockRows values image = p.blockRows values' image) :
    values = values' := by
  refine List.ext_getElem? fun i => ?_
  by_cases hi : i < images * p.keep.toNat * 7
  · obtain ⟨r, hr, j, hj, rfl⟩ := exists_block hi
    obtain ⟨image, himage, l, hl, rfl⟩ := exists_block hr
    have hrow := congrArg (·[l]?) (hb image himage)
    simp only [getElem?_blockRows hl, Option.some.injEq] at hrow
    rw [← getElem?_tableRow hj, hrow, getElem?_tableRow hj]
  · rw [List.getElem?_eq_none (by rw [h.length]; omega),
      List.getElem?_eq_none (by rw [h'.length]; omega)]

end InferenceGraph.DetectionParameters
