import SurfaceAi.Core.Arithmetic
import SurfaceAi.Detection.CoresetBound
import SurfaceAi.Detection.Initialize
import SurfaceAi.Library.OrderStatistics
import Mathlib.Algebra.Order.Field.Rat
import Mathlib.Data.List.GetD
import Mathlib.Data.List.InsertIdx
import Mathlib.Data.Rat.Floor

/-! What the adaptive threshold promises on the bank it was taken from. It is a quantile of the
distances to the `k`-th neighbour, while a detection looks at the nearest one, which is never
farther. -/

namespace SurfaceAi.Detection

open OrderStatistics

variable {F : Type*}

section Search

variable [Ring F] [LinearOrder F]

/-- The engine answers with the `k` smallest squared distances in ascending order. -/
def SearchesExactly (engine : NearestSearch F) : Prop :=
  ∀ (vectors : List (List F)) (query : List F) (k : ℕ), k ≤ vectors.length →
    ∃ sorted, Sorts sorted (vectors.map (squaredDistance query)) ∧
      engine.knn vectors query k = sorted.take k

theorem searchesExactly_flatL2 : SearchesExactly flatL2 := by
  intro vectors query k hk
  have hsorts := sorts_insertionSort (vectors.map (squaredDistance query))
  refine ⟨_, hsorts, ?_⟩
  have hlength : k ≤ ((vectors.map (squaredDistance query)).insertionSort (· ≤ ·)).length := by
    rw [hsorts.length_eq, List.length_map]
    exact hk
  exact List.take_append_of_le_length hlength

variable {engine : NearestSearch F} {bank : FeatureBank F} {i k : ℕ}

omit [Ring F] in
theorem sorts_stdSort (l : List F) : Sorts (stdSort l) l := by
  refine ⟨List.perm_insertionSort _ l, ?_⟩
  have htotal : Std.Total fun a b : F => ¬b < a :=
    ⟨fun a b => (le_total a b).imp not_lt.mpr not_lt.mpr⟩
  have htrans : IsTrans F fun a b => ¬b < a :=
    ⟨fun a b c hab hbc => not_lt.mpr ((not_lt.mp hab).trans (not_lt.mp hbc))⟩
  exact (List.pairwise_insertionSort (fun a b : F => ¬b < a) l).imp not_lt.mp

omit [Ring F] [LinearOrder F] in
theorem row_extractAllVectors (hi : i < bank.vectors.length) :
    Rows.row bank.dim i bank.extractAllVectors = bank.vectors[i] := by
  have hrows := bank.rows_extractAllVectors
  have hrow : (Rows.rows bank.dim bank.numSamples bank.extractAllVectors)[i]? =
      some (Rows.row bank.dim i bank.extractAllVectors) := by
    rw [Rows.rows, List.getElem?_map, FeatureBank.numSamples, List.getElem?_range hi]
    rfl
  rw [hrows, List.getElem?_eq_getElem hi] at hrow
  exact (Option.some.inj hrow).symm

/-- A vector's distance to its `k`-th other neighbour is entry `k` of its sorted distances. -/
theorem selfDistance_eq (hengine : SearchesExactly engine) (hi : i < bank.vectors.length)
    (hk : k < bank.vectors.length) :
    ∃ sorted, Sorts sorted (bank.vectors.map (squaredDistance bank.vectors[i])) ∧
      sorted[k]? = some (NormalityProfile.selfDistance engine bank k i) := by
  obtain ⟨sorted, hsorts, hknn⟩ := hengine bank.vectors bank.vectors[i] (k + 1) hk
  have hlength : sorted.length = bank.vectors.length := by
    rw [hsorts.length_eq, List.length_map]
  refine ⟨sorted, hsorts, ?_⟩
  rw [NormalityProfile.selfDistance, row_extractAllVectors hi, FeatureBank.search,
    if_neg (by simp), List.flatMap_singleton, hknn, List.getLastD_eq_getLast?,
    List.getLast?_eq_getElem?, List.length_take, List.getElem?_take_of_lt (by omega)]
  rw [show min (k + 1) sorted.length - 1 = k by omega, List.getElem?_eq_getElem (by omega)]
  rfl

/-- The nearest distance of vector `i` in the bank without it. -/
def leaveOneOutDistance (engine : NearestSearch F) (bank : FeatureBank F) (k i : ℕ) : F :=
  (engine.knn (bank.vectors.eraseIdx i) (bank.vectors.getD i []) k).headD 0

/-- The nearest other neighbour is not farther than the `k`-th one. -/
theorem leaveOneOutDistance_le [IsStrictOrderedRing F] (hengine : SearchesExactly engine)
    (hk : 1 ≤ k) (hlt : k < bank.numSamples) (hi : i < bank.numSamples) :
    leaveOneOutDistance engine bank k i ≤ NormalityProfile.selfDistance engine bank k i := by
  have hi : i < bank.vectors.length := hi
  have hlt : k < bank.vectors.length := hlt
  obtain ⟨sorted, hsorts, hself⟩ := selfDistance_eq hengine hi hlt
  obtain ⟨others, hothers, hknn⟩ := hengine (bank.vectors.eraseIdx i) bank.vectors[i] k
    (by rw [List.length_eraseIdx_of_lt hi]; omega)
  rw [← List.eraseIdx_map] at hothers
  -- the vector itself comes first, at distance zero
  have hcons := hsorts.eq_cons (i := i) (by rw [List.length_map]; exact hi) ?_ hothers
  · have hlength : others.length = bank.vectors.length - 1 := by
      rw [hothers.length_eq, List.length_eraseIdx_of_lt (by rw [List.length_map]; exact hi),
        List.length_map]
    have hget : sorted[k]? = others[k - 1]? := by
      rw [hcons, List.getElem?_cons, if_neg (by omega)]
    rw [hself, List.getElem?_eq_getElem (by omega), Option.some_inj] at hget
    rw [hget, leaveOneOutDistance, List.getD_eq_getElem _ _ hi, hknn,
      List.headD_eq_head?_getD, List.head?_eq_getElem?, List.getElem?_take_of_lt (by omega),
      List.getElem?_eq_getElem (by omega), Option.getD_some]
    exact hothers.getElem_le (Nat.zero_le _) (by omega)
  · intro d hd
    obtain ⟨v, -, rfl⟩ := List.mem_map.mp hd
    rw [List.getElem_map, squaredDistance_self]
    exact squaredDistance_nonneg _ _

end Search

/-! ### The threshold of an initialised detector -/

namespace PatchCore

section Initialised

variable [Zero F] [One F] [Add F] [Sub F] [Mul F] [Div F] [Neg F] [NatCast F] [LT F]
  [DecidableLT F] [FloatMath F] {icfg : InitializeConfig F} {inputs : InitializeInputs F}
  {engine : NearestSearch F} {core core' : PatchCore F} {r : Result Unit} {bank : FeatureBank F}

omit [Zero F] [One F] [Add F] [Sub F] [Mul F] [Div F] [Neg F] [NatCast F] [LT F] [DecidableLT F]
  [FloatMath F] in
/-- A part fails, or the next one has run. -/
theorem andThen_eq_some {part : Option (Result Unit × PatchCore F)}
    {next : PatchCore F → Option (Result Unit × PatchCore F)}
    (h : andThen part next = some (r, core')) :
    (∃ e, part = some (.error e, core')) ∨
      ∃ core, part = some (.ok (), core) ∧ next core = some (r, core') := by
  unfold andThen at h
  split at h
  · exact .inr ⟨_, rfl, h⟩
  · next hother =>
    cases r with
    | error e => exact .inl ⟨e, h⟩
    | ok u => exact absurd h (hother core')

omit [Zero F] [One F] [Add F] [Sub F] [Mul F] [Div F] [Neg F] [NatCast F] [LT F] [DecidableLT F]
  [FloatMath F] in
/-- A bank that cannot be read leaves the detector without one. -/
theorem featureBank_of_loadBank_error {e : ErrorInfo}
    (h : core.loadBank inputs = some (.error e, core')) : core'.featureBank = none := by
  unfold loadBank at h
  split at h
  next file hbank hfile =>
    obtain ⟨loaded, -, h⟩ := Option.map_eq_some_iff.mp h
    cases loaded with
    | error e' => exact (Prod.mk.inj h).2 ▸ hbank
    | ok bank => cases (Prod.mk.inj h).1
  next => cases (Prod.mk.inj (Option.some.inj h)).1

omit [Sub F] [Neg F] [LT F] [DecidableLT F] in
theorem whitenBank_of_disabled (hwhitening : icfg.enableWhitening = false) :
    core.whitenBank icfg inputs = some (.ok (), core) := by
  unfold whitenBank
  split
  · rfl
  · rw [if_pos (by simp [hwhitening])]

/-- The threshold and the reference distance are those of a bank. -/
def Calibrated (icfg : InitializeConfig F) (engine : NearestSearch F) (core : PatchCore F)
    (bank : FeatureBank F) : Prop :=
  ∃ raw oldRefDist, computeAdaptiveThreshold engine bank icfg.targetFpr core.cfg.kNearest
      oldRefDist = (raw, core.refDist) ∧
    core.effectiveThreshold = if 0 < core.refDist then raw / core.refDist else 1

omit [Add F] [Neg F] in
theorem calibrated_setThreshold (hadaptive : icfg.enableAdaptiveThreshold = true)
    (h : core.setThreshold icfg engine = some (r, core')) (hbank : core'.featureBank = some bank) :
    Calibrated icfg engine core' bank := by
  rw [setThreshold, if_pos hadaptive] at h
  obtain ⟨bank', hbank', h⟩ := Option.map_eq_some_iff.mp h
  obtain ⟨-, rfl⟩ := Prod.mk.inj h
  obtain rfl := Option.some.inj (hbank'.symm.trans hbank)
  exact ⟨_, core.refDist, rfl, rfl⟩

omit [Zero F] [One F] [Add F] [Sub F] [Mul F] [Div F] [Neg F] [NatCast F] [LT F] [DecidableLT F]
  [FloatMath F] in
/-- The PCA model does not touch the threshold. -/
theorem unchanged_loadPca (h : core.loadPca inputs = some (r, core')) :
    core'.featureBank = core.featureBank ∧ core'.cfg = core.cfg ∧
      core'.refDist = core.refDist ∧ core'.effectiveThreshold = core.effectiveThreshold := by
  unfold loadPca at h
  split at h
  all_goals
    obtain ⟨-, rfl⟩ := Prod.mk.inj (Option.some.inj h)
    exact ⟨rfl, rfl, rfl, rfl⟩

omit [Neg F] in
/-- However the initialisation ends, a detector with a bank is calibrated to it. -/
theorem calibrated_initialize (hadaptive : icfg.enableAdaptiveThreshold = true)
    (hwhitening : icfg.enableWhitening = false)
    (h : core.initializeDetector icfg inputs engine = some (r, core'))
    (hbank : core'.featureBank = some bank) : Calibrated icfg engine core' bank := by
  -- the first three parts, whichever of them is the last to run
  have hparts : ∀ core₃ r₃, andThen (andThen (core.loadBank inputs) (whitenBank icfg inputs))
      (setThreshold icfg engine) = some (r₃, core₃) → core₃.featureBank = some bank →
        Calibrated icfg engine core₃ bank := by
    intro core₃ r₃ h hbank
    rcases andThen_eq_some h with ⟨e, h⟩ | ⟨core₂, -, hthreshold⟩
    · rcases andThen_eq_some h with ⟨e, hload⟩ | ⟨core₁, -, hwhitened⟩
      · rw [featureBank_of_loadBank_error hload] at hbank
        cases hbank
      · rw [whitenBank_of_disabled hwhitening] at hwhitened
        cases (Prod.mk.inj (Option.some.inj hwhitened)).1
    · exact calibrated_setThreshold hadaptive hthreshold hbank
  rcases andThen_eq_some h with ⟨e, h⟩ | ⟨core₃, h, hpca⟩
  · exact hparts core' _ h hbank
  · obtain ⟨hfeature, hcfg, hrefDist, heffective⟩ := unchanged_loadPca hpca
    have hcalibrated := hparts core₃ _ h (hfeature ▸ hbank)
    rwa [Calibrated, ← hcfg, ← hrefDist, ← heffective] at hcalibrated

end Initialised

/-! ### How many vectors of the bank exceed it -/

section Exceed

variable [Field F] [LinearOrder F] [IsStrictOrderedRing F] [FloorSemiring F] [FloatMath F]
  {icfg : InitializeConfig F} {inputs : InitializeInputs F} {engine : NearestSearch F}
  {core core' : PatchCore F} {r : Result Unit} {bank : FeatureBank F}

/-- The score `Detect` gives a vector of the bank when the bank does not hold it. -/
def leaveOneOutScore (core : PatchCore F) (engine : NearestSearch F) (bank : FeatureBank F)
    (i : ℕ) : F :=
  core.distanceScore (leaveOneOutDistance engine bank core.cfg.kNearest i)

omit [Field F] [IsStrictOrderedRing F] [FloorSemiring F] [FloatMath F] in
theorem le_foldl_stdMax (l : List F) (a : F) :
    a ≤ l.foldl stdMax a ∧ ∀ x ∈ l, x ≤ l.foldl stdMax a := by
  induction l generalizing a with
  | nil => simp
  | cons y l ih =>
    obtain ⟨hstart, hall⟩ := ih (stdMax a y)
    rw [stdMax_eq_max] at hstart hall
    rw [List.foldl_cons, stdMax_eq_max]
    refine ⟨(le_max_left a y).trans hstart, fun x hx => ?_⟩
    rcases List.mem_cons.mp hx with rfl | hx
    · exact (le_max_right a x).trans hstart
    · exact hall x hx

/-- The quantile's position is a rank of the bank. -/
theorem quantile_index (htruncates : Truncates F) {fpr : F} (h0 : 0 ≤ fpr) (h1 : fpr ≤ 1) (n : ℕ) :
    min (FloatMath.toSize ((1 - fpr) * (n : F))) n = ⌊(1 - fpr) * (n : F)⌋₊ := by
  have hnonneg : 0 ≤ (1 - fpr) * (n : F) := mul_nonneg (sub_nonneg.mpr h1) (Nat.cast_nonneg n)
  have hle : (1 - fpr) * (n : F) ≤ n := mul_le_of_le_one_left (Nat.cast_nonneg n) (by linarith)
  rw [htruncates _ hnonneg, Nat.min_eq_left]
  calc ⌊(1 - fpr) * (n : F)⌋₊ ≤ ⌊(n : F)⌋₊ := Nat.floor_le_floor hle
    _ = n := Nat.floor_natCast n

/-- The false positives of an adaptive threshold on its own bank are bounded by its target. -/
theorem adaptiveThreshold_bounds_false_positives (htruncates : Truncates F)
    (hengine : SearchesExactly engine) (hadaptive : icfg.enableAdaptiveThreshold = true)
    (hwhitening : icfg.enableWhitening = false) (h0 : 0 ≤ icfg.targetFpr) (h1 : icfg.targetFpr ≤ 1)
    (h : core.initializeDetector icfg inputs engine = some (r, core'))
    (hbank : core'.featureBank = some bank) (hk : 1 ≤ core'.cfg.kNearest)
    (hlt : core'.cfg.kNearest < bank.numSamples) :
    (List.range bank.numSamples).countP (fun i =>
        decide (core'.effectiveThreshold < core'.leaveOneOutScore engine bank i)) ≤
      bank.numSamples - 1 - ⌊(1 - icfg.targetFpr) * ((bank.numSamples - 1 : ℕ) : F)⌋₊ := by
  obtain ⟨raw, oldRefDist, hcompute, heffective⟩ :=
    calibrated_initialize hadaptive hwhitening h hbank
  rw [computeAdaptiveThreshold, if_neg (by omega)] at hcompute
  obtain ⟨hraw, hrefDist⟩ := Prod.mk.inj hcompute
  rw [quantile_index htruncates h0 h1] at hraw
  generalize hrank : ⌊(1 - icfg.targetFpr) * ((bank.numSamples - 1 : ℕ) : F)⌋₊ = rank at hraw ⊢
  generalize hdistances : (List.range bank.numSamples).map
    (NormalityProfile.selfDistance engine bank core'.cfg.kNearest) = distances at hraw hrefDist
  have hle : ∀ i ∈ List.range bank.numSamples,
      leaveOneOutDistance engine bank core'.cfg.kNearest i ≤
        NormalityProfile.selfDistance engine bank core'.cfg.kNearest i := fun i hi =>
    leaveOneOutDistance_le hengine hk hlt (List.mem_range.mp hi)
  by_cases hpos : 0 < core'.refDist
  · have hexceeds : ∀ i, (core'.effectiveThreshold < core'.leaveOneOutScore engine bank i) =
        (raw < leaveOneOutDistance engine bank core'.cfg.kNearest i) := by
      intro i
      rw [heffective, if_pos hpos, leaveOneOutScore, distanceScore, if_pos hpos,
        div_lt_div_iff_of_pos_right hpos]
    simp only [hexceeds]
    have hsorts := sorts_stdSort distances
    have hlength : distances.length = bank.numSamples := by
      rw [← hdistances, List.length_map, List.length_range]
    have hrank_lt : rank < (stdSort distances).length := by
      rw [hsorts.length_eq, hlength, ← hrank, ← quantile_index htruncates h0 h1]
      omega
    rw [List.getD_eq_getElem _ _ hrank_lt] at hraw
    calc _ ≤ distances.countP (fun x => decide (raw < x)) := by
          rw [← hdistances]
          exact countP_mono_of_le hle
      _ ≤ bank.numSamples - 1 - rank := by
          rw [← hraw, ← hlength]
          exact hsorts.countP_lt_le hrank_lt
  · -- all distances are zero, and the threshold is one
    refine le_of_eq_of_le (List.countP_eq_zero.mpr fun i hi => ?_) (Nat.zero_le _)
    have hself : NormalityProfile.selfDistance engine bank core'.cfg.kNearest i ≤
        core'.refDist := by
      rw [← hrefDist]
      exact (le_foldl_stdMax distances 0).2 _ (hdistances ▸ List.mem_map_of_mem hi)
    rw [decide_eq_true_eq, not_lt, heffective, if_neg hpos, leaveOneOutScore, distanceScore,
      if_neg hpos]
    exact ((hle i hi).trans hself).trans ((not_lt.mp hpos).trans zero_le_one)

/-- A bank of four vectors, two of them the same, calibrated for a quarter of false positives. -/
theorem adaptiveThreshold_bounds_false_positives_four :
    ∃ core' : PatchCore ℚ,
      (create (⟨1, 0, 1, 1, 1, 1, 0, 1, .euclidean⟩ : PatchCoreConfig ℚ)
        (some (.rebuild [0, 0, 1, 3] 4 1 (by decide)))).initializeDetector
          ⟨8 / 10, false, true, 1 / 4⟩ ⟨none, none, fun _ _ => .ok ⟨[], 0, [], []⟩⟩ flatL2 =
            some (.ok (), core') ∧
      (List.range 4).countP (fun i => decide (core'.effectiveThreshold <
        core'.leaveOneOutScore flatL2 (.rebuild [0, 0, 1, 3] 4 1 (by decide)) i)) ≤ 1 := by
  have hinit : ∃ core' : PatchCore ℚ,
      (create (⟨1, 0, 1, 1, 1, 1, 0, 1, .euclidean⟩ : PatchCoreConfig ℚ)
        (some (.rebuild [0, 0, 1, 3] 4 1 (by decide)))).initializeDetector
          ⟨8 / 10, false, true, 1 / 4⟩ ⟨none, none, fun _ _ => .ok ⟨[], 0, [], []⟩⟩ flatL2 =
            some (.ok (), core') ∧
      core'.featureBank = some (.rebuild [0, 0, 1, 3] 4 1 (by decide)) ∧ core'.cfg.kNearest = 1 :=
    ⟨_, rfl, rfl, rfl⟩
  obtain ⟨core', hinit, hbank, hk⟩ := hinit
  have hle := adaptiveThreshold_bounds_false_positives truncates_exactMath searchesExactly_flatL2
    rfl rfl (by decide +kernel) (by decide +kernel) hinit hbank (by rw [hk])
    (by rw [hk]; decide)
  exact ⟨core', hinit, hle.trans (by decide +kernel)⟩

end Exceed

end PatchCore

end SurfaceAi.Detection
