import SurfaceAi.Core.RealMath
import SurfaceAi.Detection.CheckedSmoothing
import SurfaceAi.Detection.Components
import SurfaceAi.Library.Averages

/-! The regions of a result against its image-level score. Upsampling mixes patch scores and the
blur averages what it is given, so no smoothed score exceeds the largest patch score; a region is
cut out where the smoothed scores exceed the threshold. -/

namespace SurfaceAi.Detection

open Averages Set UnionFind

section Largest

variable {F : Type*} [LinearOrder F]

theorem maxElement_eq (x : F) (xs : List F) : maxElement x xs = xs.foldl max x := by
  rw [maxElement]
  congr 1
  funext a b
  exact (max_def_lt a b).symm

theorem le_maxScore [Zero F] (map : AnomalyMap F) {q : F} (hq : q ∈ map.scores) :
    q ≤ map.maxScore := by
  rw [AnomalyMap.maxScore]
  split
  · next hempty =>
    rw [hempty] at hq
    cases hq
  · next x xs hscores =>
    rw [hscores] at hq
    rw [maxElement_eq]
    exact (List.max?_eq_some_iff.mp List.max?_cons').2 q hq

theorem getD_mem {lo hi a : F} {l : List F} (hl : ∀ q ∈ l, q ∈ Icc lo hi) (ha : a ∈ Icc lo hi)
    (i : ℕ) : l.getD i a ∈ Icc lo hi := by
  rw [List.getD_eq_getElem?_getD]
  rcases hi : l[i]? with _ | q
  · exact ha
  · exact hl q (List.mem_of_getElem? hi)

end Largest

section Smoothed

variable {F : Type*} [Field F] [LinearOrder F] [IsStrictOrderedRing F] [FloatMath F]
  {src : List F} {top : F} {srcH srcW : ℕ}

theorem upsampledPixel_mem [FloorSemiring F] (htrunc : Truncates F) (hH : 0 < srcH) (hW : 0 < srcW)
    (htop : 0 ≤ top) (hsrc : ∀ q ∈ src, q ∈ Icc 0 top) (dstH dstW y x : ℕ) :
    upsampledPixel src srcH srcW dstH dstW y x ∈ Icc 0 top := by
  have hread : ∀ i, src.getD i 0 ∈ Icc 0 top := getD_mem hsrc (left_mem_Icc.mpr htop)
  have hweight : ∀ {size : ℕ}, 0 < size → ∀ dst dstSize : ℕ,
      (sourceCoordinate dst size dstSize : F) -
        ((FloatMath.toSize (sourceCoordinate dst size dstSize : F) : ℕ) : F) ∈ Icc 0 1 := by
    intro size hsize dst dstSize
    obtain ⟨-, hle, hnext⟩ := sourceCoordinate_spec htrunc hsize dst dstSize
    exact ⟨sub_nonneg.mpr hle, sub_le_iff_le_add'.mpr hnext⟩
  rw [upsampledPixel]
  have hx := hweight hW x dstW
  exact mix_mem (mix_mem (hread _) (hread _) hx) (mix_mem (hread _) (hread _) hx)
    (hweight hH y dstH)

theorem bilinearUpsample_mem [FloorSemiring F] (htrunc : Truncates F) (hH : 0 < srcH) (hW : 0 < srcW)
    (htop : 0 ≤ top) (hsrc : ∀ q ∈ src, q ∈ Icc 0 top) (dstH dstW : ℕ) :
    ∀ q ∈ bilinearUpsample src srcH srcW dstH dstW, q ∈ Icc 0 top := by
  intro q hq
  rw [bilinearUpsample] at hq
  split_ifs at hq
  · cases hq
  · obtain ⟨y, -, x, -, rfl⟩ := mem_gridOf.mp hq
    exact upsampledPixel_mem htrunc hH hW htop hsrc dstH dstW y x

/-- The weights are not negative and sum to one. -/
theorem gaussianKernel_weights (hexp : ∀ x : F, 0 < FloatMath.exp x) (sigma : ℕ) :
    (∀ k ∈ (gaussianKernel sigma : List F), 0 ≤ k) ∧ (gaussianKernel sigma : List F).sum = 1 := by
  rw [gaussianKernel]
  dsimp only
  rw [accumulate_eq_sum]
  apply normalise
  · simp
  · intro k hk
    obtain ⟨i, -, rfl⟩ := List.mem_map.mp hk
    exact hexp _

omit [FloatMath F] in
theorem blurAt_mem {kernel : List F} (hnonneg : ∀ k ∈ kernel, 0 ≤ k) (hsum : kernel.sum = 1)
    {line : ℕ → F} (hline : ∀ i, line i ∈ Icc 0 top) (radius n i : ℕ) :
    blurAt kernel radius n line i ∈ Icc 0 top := by
  rw [blurAt, accumulate_eq_sum]
  apply weighted_mem
  · intro p _
    exact hline _
  · intro p hp
    exact hnonneg _ (List.fst_mem_of_mem_zipIdx hp)
  · rw [List.zipIdx_map_fst]
    exact hsum

theorem gaussianBlur_mem (hexp : ∀ x : F, 0 < FloatMath.exp x) (htop : 0 ≤ top)
    (hsrc : ∀ q ∈ src, q ∈ Icc 0 top) (h w sigma : ℕ) :
    ∀ q ∈ gaussianBlur src h w sigma, q ∈ Icc 0 top := by
  obtain ⟨hnonneg, hsum⟩ := gaussianKernel_weights hexp sigma
  have hzero : (0 : F) ∈ Icc 0 top := left_mem_Icc.mpr htop
  intro q hq
  rw [gaussianBlur] at hq
  split_ifs at hq
  · cases hq
  · exact hsrc q (List.mem_of_mem_take hq)
  · obtain ⟨y, -, x, -, rfl⟩ := mem_gridOf.mp hq
    apply blurAt_mem hnonneg hsum
    intro sy
    refine getD_mem ?_ hzero _
    intro q hq
    obtain ⟨y, -, x, -, rfl⟩ := mem_gridOf.mp hq
    exact blurAt_mem hnonneg hsum (fun sx => getD_mem hsrc hzero _) _ _ _

end Smoothed

section Regions

variable {F : Type*} [Field F] [LinearOrder F] [IsStrictOrderedRing F]
  {threshold top : F} {scores : List F} {h w : ℕ}

/-- The mask of the scores above a threshold. -/
def maskOf (threshold : F) (scores : List F) (n : ℕ) : List F :=
  (List.range n).map fun i => if threshold < scores.getD i 0 then 1 else 0

omit [IsStrictOrderedRing F] in
theorem lt_of_positive {v : ℕ} (hv : v < h * w)
    (hpositive : Positive (maskOf threshold scores (h * w)) v) : threshold < scores.getD v 0 := by
  rw [Positive, maskOf, List.getD_eq_getElem _ _ (by simpa using hv), List.getElem_map,
    List.getElem_range] at hpositive
  by_contra hnot
  rw [if_neg hnot] at hpositive
  exact lt_irrefl _ hpositive

/-- The mean of a component lies between what all its scores exceed and its maximum, and that
below what no score exceeds. -/
theorem regionOf_bounds {pixels : List ℕ} (hne : pixels ≠ []) (htop : 0 ≤ top)
    (habove : ∀ v ∈ pixels, threshold < scores.getD v 0)
    (hbelow : ∀ v ∈ pixels, scores.getD v 0 ≤ top) :
    threshold < (regionOf (componentOf w scores pixels)).meanAnomalyScore ∧
      (regionOf (componentOf w scores pixels)).meanAnomalyScore ≤
        (regionOf (componentOf w scores pixels)).maxAnomalyScore ∧
      (regionOf (componentOf w scores pixels)).maxAnomalyScore ≤ top := by
  let values := pixels.map (scores.getD · 0)
  have hvalues : values ≠ [] := mt List.map_eq_nil_iff.mp hne
  have hlength : values.length = pixels.length := List.length_map ..
  have hlargest : (0 :: values).max? = some (values.foldl max 0) := rfl
  have hmax := List.max?_eq_some_iff.mp hlargest
  rw [componentOf_eq]
  change threshold < values.sum / pixels.length ∧
    values.sum / pixels.length ≤ values.foldl max 0 ∧ values.foldl max 0 ≤ top
  rw [← hlength]
  refine ⟨lt_mean hvalues ?_, mean_le hvalues ?_, ?_⟩
  · intro q hq
    obtain ⟨v, hv, rfl⟩ := List.mem_map.mp hq
    exact habove v hv
  · intro q hq
    exact hmax.2 q (List.mem_cons_of_mem 0 hq)
  · rcases List.mem_cons.mp hmax.1 with hzero | hmem
    · rw [hzero]
      exact htop
    · obtain ⟨v, hv, hq⟩ := List.mem_map.mp hmem
      rw [← hq]
      exact hbelow v hv

theorem region_bounds (threshold : F) (h w : ℕ) (htop : 0 ≤ top)
    (hscores : ∀ q ∈ scores, q ∈ Icc 0 top) :
    ∀ region ∈ connectedComponents (maskOf threshold scores (h * w)) h w scores,
      threshold < region.meanAnomalyScore ∧ region.meanAnomalyScore ≤ region.maxAnomalyScore ∧
        region.maxAnomalyScore ≤ top := by
  intro region hregion
  by_cases hempty : h = 0 ∨ w = 0
  · rw [connectedComponents, if_pos hempty] at hregion
    cases hregion
  · have hw : 0 < w := by omega
    have hs := scanned_scan (maskOf threshold scores (h * w)) hw (h * w)
    rw [← labelPixels_eq_scan] at hs
    obtain ⟨rs, hperm, hregions⟩ := connectedComponents_eq_map scores hs.falling (by omega) hw
    rw [hregions] at hregion
    obtain ⟨r, hr, rfl⟩ := List.mem_map.mp hregion
    have hne := (List.mem_filter.mp (hperm.mem_iff.mp hr)).2
    refine regionOf_bounds (by simpa using hne) htop ?_ ?_
    · intro v hv
      obtain ⟨hlt, hroot⟩ := mem_pixelsOf.mp hv
      obtain ⟨l, hl, -⟩ := Option.map_eq_some_iff.mp hroot
      exact lt_of_positive hlt ((hs.foreground v).mp (Option.isSome_iff_exists.mpr ⟨l, hl⟩)).2
    · intro v _
      exact (getD_mem hscores (left_mem_Icc.mpr htop) v).2

end Regions

/-- What the image-level score says of the regions. -/
structure ScoresAgree {F : Type*} [LT F] [LE F] (threshold : F) (result : DetectionResult F) :
    Prop where
  silent : result.imageLevelScore ≤ threshold → result.regions = []
  ordered : ∀ region ∈ result.regions, threshold < region.meanAnomalyScore ∧
    region.meanAnomalyScore ≤ region.maxAnomalyScore ∧
    region.maxAnomalyScore ≤ result.imageLevelScore

section Exact

variable {F : Type*} [Field F] [LinearOrder F] [IsStrictOrderedRing F] [FloorSemiring F]
  [FloatMath F] {patchScores : List F} {gridH gridW : ℕ}

theorem scoresAgree_buildDetectionResult (htrunc : Truncates F)
    (hexp : ∀ x : F, 0 < FloatMath.exp x) (hH : 0 < gridH) (hW : 0 < gridW)
    (hlength : patchScores.length = gridH * gridW) (hnonneg : ∀ q ∈ patchScores, 0 ≤ q)
    (imageHeight imageWidth sigma : ℕ) (threshold : F) (latency : ℕ) :
    ScoresAgree threshold (buildDetectionResult patchScores gridH gridW imageHeight imageWidth sigma
      threshold latency) := by
  let top := (⟨patchScores, gridH, gridW⟩ : AnomalyMap F).maxScore
  have hscores : ∀ q ∈ patchScores, q ∈ Icc 0 top := fun q hq =>
    ⟨hnonneg q hq, le_maxScore ⟨patchScores, gridH, gridW⟩ hq⟩
  have htop : 0 ≤ top := by
    have hpos : 0 < patchScores.length := hlength ▸ Nat.mul_pos hH hW
    obtain ⟨hzero, hle⟩ := hscores _ (List.getElem_mem hpos)
    exact hzero.trans hle
  have hblurred := gaussianBlur_mem hexp htop
    (bilinearUpsample_mem htrunc hH hW htop hscores imageHeight imageWidth) imageHeight imageWidth
    sigma
  have hordered := region_bounds threshold imageHeight imageWidth htop hblurred
  refine ⟨fun hle => ?_, hordered⟩
  apply List.eq_nil_iff_forall_not_mem.mpr
  intro region hregion
  obtain ⟨hlow, hmean, hmax⟩ := hordered region hregion
  exact absurd (hlow.trans_le (hmean.trans hmax)) (not_lt.mpr hle)

end Exact

end SurfaceAi.Detection
