import SurfaceAi.Detection.PatchCore
import Mathlib.Algebra.Order.Field.Basic
import Mathlib.Algebra.Order.Ring.Rat
import Mathlib.Tactic.FieldSimp
import Mathlib.Tactic.Ring

/-! Whether equal patches of two frames get equal scores. The nearest distance over
the reference distance depends on the patch alone; a PCA score is divided by the
largest one of its own frame, so it agrees across frames exactly when the two
divisors agree or there is nothing to divide. -/

namespace SurfaceAi.Detection

open Embeddings

/-! ### Entries of the score lists -/

theorem getElem?_rows {α : Type*} {d n i : ℕ} (data : List α) (h : i < n) :
    (Rows.rows d n data)[i]? = some (Rows.row d i data) := by
  simp [Rows.rows, h]

section Queries

variable {F : Type*} [Zero F] [Add F] [Mul F] (core : PatchCore F) (bank : FeatureBank F)
  (data : List F)

/-- The row the bank is searched with for patch `i`. -/
def PatchCore.queryRow (i : ℕ) : List F :=
  match core.whiteningParams with
  | some wp => PatchCore.whiten wp core.cfg.embedDim (Rows.row core.cfg.embedDim i data)
  | none => Rows.row bank.dim i data

theorem PatchCore.getElem?_queryRows {n i : ℕ} (h : i < n) :
    (core.queryRows bank data n)[i]? = some (core.queryRow bank data i) := by
  unfold PatchCore.queryRows PatchCore.queryRow
  cases core.whiteningParams with
  | some wp => simp only [List.getElem?_map, getElem?_rows data h, Option.map_some]
  | none => exact getElem?_rows data h

variable [Div F] [LT F] [DecidableLT F] (engine : NearestSearch F)

/-- The distance part of a patch's score: a function of its query row. -/
def PatchCore.distanceAt (i : ℕ) : F :=
  core.distanceScore
    ((engine.knn bank.vectors (core.queryRow bank data i) core.cfg.kNearest).getD 0 0)

theorem PatchCore.getElem?_distanceScores {n i : ℕ} (hk : 0 < core.cfg.kNearest) (h : i < n) :
    (core.distanceScores (bank.search engine (core.queryRows bank data n) core.cfg.kNearest) n)[i]?
      = some (core.distanceAt bank data engine i) := by
  have hfirst : (bank.search engine (core.queryRows bank data n) core.cfg.kNearest)[
      i * core.cfg.kNearest + 0]? = _ := bank.getElem?_search engine hk
  rw [Nat.add_zero, core.getElem?_queryRows bank data h, Option.bind_some] at hfirst
  rw [PatchCore.distanceScores, List.getElem?_map, List.getElem?_range h, Option.map_some]
  simp only [PatchCore.distanceAt, List.getD_eq_getElem?_getD, hfirst]

end Queries

section Exact

variable {F : Type*} [Field F] [LinearOrder F] [FloatMath F]

theorem getElem?_score (pca : PcaParams F) (data : List F) {n i : ℕ} (method : PcaScoreMethod)
    (dropK : ℕ) (h : i < n) :
    (pca.score data n method dropK)[i]? =
      some (pca.rowScore method dropK (Rows.row pca.inputDim i data)) := by
  rw [PcaParams.score, List.getElem?_map, getElem?_rows data h, Option.map_some]

/-- What the scores of a frame are divided by. -/
def normaliser (scores : List F) : F := if 0 < largest scores then largest scores else 1

omit [FloatMath F] in
theorem normaliseByLargest_eq (scores : List F) :
    normaliseByLargest scores = scores.map (· / normaliser scores) := by
  by_cases h : 0 < largest scores <;> simp [normaliseByLargest, normaliser, h]

omit [FloatMath F] in
theorem normaliser_ne_zero (scores : List F) : normaliser scores ≠ 0 := by
  unfold normaliser
  split_ifs with h
  · exact h.ne'
  · exact one_ne_zero

omit [FloatMath F] [LinearOrder F] in
/-- One value over two divisors. -/
theorem div_eq_div_iff_or {x n₁ n₂ : F} (h₁ : n₁ ≠ 0) (h₂ : n₂ ≠ 0) :
    x / n₁ = x / n₂ ↔ n₁ = n₂ ∨ x = 0 := by
  rw [div_eq_div_iff h₁ h₂, mul_eq_mul_left_iff]
  exact or_congr_left eq_comm

end Exact

/-! ### Comparable frames -/

/-- Patch `i` of the first frame and patch `j` of the second have the same features, in
rows of each of the given dimensions. -/
def SameFeatures {F : Type*} (dims : List ℕ) (e₁ e₂ : Embedding F) (i j : ℕ) : Prop :=
  i < e₁.embeddingMeta.gridH * e₁.embeddingMeta.gridW ∧
    j < e₂.embeddingMeta.gridH * e₂.embeddingMeta.gridW ∧
    ∀ d ∈ dims, Rows.row d i e₁.data = Rows.row d j e₂.data

/-- Equal patches have equal entries in the two anomaly maps. -/
def Comparable {F : Type*} (dims : List ℕ) (e₁ e₂ : Embedding F) (r₁ r₂ : DetectionResult F) :
    Prop :=
  ∀ i j, SameFeatures dims e₁ e₂ i j →
    r₁.anomalyMap.scores[i]? = r₂.anomalyMap.scores[j]?

namespace PatchCore

variable {F : Type*} [Field F] [LinearOrder F] [FloatMath F] (core : PatchCore F)
  (engine : NearestSearch F)

/-- The dimensions of the rows a detection reads: after `Initialize` they are all the
configured one. -/
def rowDims : List ℕ :=
  core.cfg.embedDim :: ((core.featureBank.map FeatureBank.dim).toList ++
    (core.pcaParams.map PcaParams.inputDim).toList)

/-- The PCA scores of a frame before normalisation. -/
def rawPcaScores (pca : PcaParams F) (e : Embedding F) : List F :=
  pca.score e.data (e.embeddingMeta.gridH * e.embeddingMeta.gridW) core.cfg.pcaScoreMethod
    core.cfg.dropK

def rawPcaScore (pca : PcaParams F) (e : Embedding F) (i : ℕ) : F :=
  pca.rowScore core.cfg.pcaScoreMethod core.cfg.dropK (Rows.row pca.inputDim i e.data)

/-- A successful detection searched a bank, and its map holds the patch scores. -/
theorem detect_ok {latency : ℕ} {e : Embedding F} {r : DetectionResult F}
    (h : (core.detect engine latency e).1 = .ok r) :
    ∃ bank, core.featureBank = some bank ∧ 0 < core.cfg.kNearest ∧
      r.anomalyMap.scores = core.patchScores
        (bank.search engine
          (core.queryRows bank e.data (e.embeddingMeta.gridH * e.embeddingMeta.gridW))
          core.cfg.kNearest)
        e.data (e.embeddingMeta.gridH * e.embeddingMeta.gridW) := by
  unfold detect at h
  split at h
  · simp [fail] at h
  · next bank hbank =>
    dsimp only at h
    split at h
    · simp at h
    · split at h
      · simp [fail] at h
      · next hne =>
        obtain rfl := Except.ok.inj h
        refine ⟨bank, hbank, Nat.pos_of_ne_zero fun hk => hne ?_, rfl⟩
        simp [FeatureBank.search, hk]

omit [FloatMath F] in
theorem distanceAt_eq {bank : FeatureBank F} (hbank : core.featureBank = some bank)
    {e₁ e₂ : Embedding F} {i j : ℕ} (h : SameFeatures core.rowDims e₁ e₂ i j) :
    core.distanceAt bank e₁.data engine i = core.distanceAt bank e₂.data engine j := by
  have hembed := h.2.2 core.cfg.embedDim (by simp [rowDims])
  have hdim := h.2.2 bank.dim (by simp [rowDims, hbank])
  simp only [distanceAt, queryRow, hembed, hdim]

/-- With a PCA model, an entry mixes the distance and the normalised PCA score. -/
theorem getElem?_patchScores {bank : FeatureBank F} {pca : PcaParams F}
    (hpca : core.pcaParams = some pca) (hk : 0 < core.cfg.kNearest) (e : Embedding F) {i : ℕ}
    (hi : i < e.embeddingMeta.gridH * e.embeddingMeta.gridW) :
    (core.patchScores
      (bank.search engine
        (core.queryRows bank e.data (e.embeddingMeta.gridH * e.embeddingMeta.gridW))
        core.cfg.kNearest)
      e.data (e.embeddingMeta.gridH * e.embeddingMeta.gridW))[i]? =
      some (core.cfg.hybridAlpha * core.distanceAt bank e.data engine i +
        (1 - core.cfg.hybridAlpha) *
          (core.rawPcaScore pca e i / normaliser (core.rawPcaScores pca e))) := by
  simp only [patchScores, hpca, hybridScores, normaliseByLargest_eq]
  rw [List.getElem?_zipWith, core.getElem?_distanceScores bank e.data engine hk hi,
    List.getElem?_map, getElem?_score pca e.data _ _ hi]
  rfl

/-- The PCA share of equal patches does not depend on their frames: there is no PCA model,
or it has no weight, or the frames have one normaliser, or the shared patches score zero. -/
def FrameIndependent (e₁ e₂ : Embedding F) : Prop :=
  ∀ pca, core.pcaParams = some pca → core.cfg.hybridAlpha = 1 ∨
    normaliser (core.rawPcaScores pca e₁) = normaliser (core.rawPcaScores pca e₂) ∨
    ∀ i j, SameFeatures core.rowDims e₁ e₂ i j → core.rawPcaScore pca e₁ i = 0

theorem comparable_iff {l₁ l₂ : ℕ} {e₁ e₂ : Embedding F} {r₁ r₂ : DetectionResult F}
    (h₁ : (core.detect engine l₁ e₁).1 = .ok r₁) (h₂ : (core.detect engine l₂ e₂).1 = .ok r₂) :
    Comparable core.rowDims e₁ e₂ r₁ r₂ ↔ core.FrameIndependent e₁ e₂ := by
  obtain ⟨bank, hbank, hk, hs₁⟩ := core.detect_ok engine h₁
  obtain ⟨bank₂, hbank₂, -, hs₂⟩ := core.detect_ok engine h₂
  obtain rfl := Option.some.inj (hbank.symm.trans hbank₂)
  unfold Comparable FrameIndependent
  cases hpca : core.pcaParams with
  | none =>
    refine iff_of_true (fun i j h => ?_) (fun pca hp => by simp at hp)
    simp only [hs₁, hs₂, patchScores, hpca]
    rw [core.getElem?_distanceScores bank _ engine hk h.1,
      core.getElem?_distanceScores bank _ engine hk h.2.1, core.distanceAt_eq engine hbank h]
  | some pca =>
    -- entries of equal patches differ in the divisor of the PCA share only
    have hentry : ∀ i j, SameFeatures core.rowDims e₁ e₂ i j →
        (r₁.anomalyMap.scores[i]? = r₂.anomalyMap.scores[j]? ↔ core.cfg.hybridAlpha = 1 ∨
          normaliser (core.rawPcaScores pca e₁) = normaliser (core.rawPcaScores pca e₂) ∨
          core.rawPcaScore pca e₁ i = 0) := by
      intro i j h
      have hraw : core.rawPcaScore pca e₂ j = core.rawPcaScore pca e₁ i := by
        simp only [rawPcaScore, h.2.2 pca.inputDim (by simp [rowDims, hpca])]
      rw [hs₁, hs₂, core.getElem?_patchScores engine hpca hk e₁ h.1,
        core.getElem?_patchScores engine hpca hk e₂ h.2.1, Option.some_inj, hraw,
        core.distanceAt_eq engine hbank h, add_right_inj, mul_eq_mul_left_iff,
        div_eq_div_iff_or (normaliser_ne_zero _) (normaliser_ne_zero _), sub_eq_zero,
        or_comm, eq_comm (a := (1 : F))]
    constructor
    · intro h pca' hp
      obtain rfl := Option.some.inj hp
      by_cases hα : core.cfg.hybridAlpha = 1
      · exact .inl hα
      by_cases hn : normaliser (core.rawPcaScores pca e₁) = normaliser (core.rawPcaScores pca e₂)
      · exact .inr (.inl hn)
      refine .inr (.inr fun i j hsame => ?_)
      rcases (hentry i j hsame).mp (h i j hsame) with h' | h' | h'
      · exact absurd h' hα
      · exact absurd h' hn
      · exact h'
    · intro h i j hsame
      refine (hentry i j hsame).mpr ?_
      rcases h pca rfl with h' | h' | h'
      · exact .inl h'
      · exact .inr (.inl h')
      · exact .inr (.inr (h' i j hsame))

end PatchCore

/-! ### The largest score -/

theorem maxElement_map {F : Type*} [LinearOrder F] {f : F → F} (hf : StrictMono f) (x : F)
    (xs : List F) : maxElement (f x) (xs.map f) = f (maxElement x xs) := by
  induction xs generalizing x with
  | nil => rfl
  | cons y ys ih =>
    simp only [maxElement, List.map_cons, List.foldl_cons, hf.lt_iff_lt] at ih ⊢
    split_ifs with h
    · exact ih y
    · exact ih x

/-- The largest normalised score is one, unless no raw score is positive. -/
theorem largest_normaliseByLargest {F : Type*} [Field F] [LinearOrder F]
    [IsStrictOrderedRing F] {scores : List F} (h : scores ≠ []) :
    largest (normaliseByLargest scores) =
      if 0 < largest scores then 1 else largest scores := by
  unfold normaliseByLargest
  dsimp only
  split_ifs with hpos
  · obtain ⟨x, xs, rfl⟩ := List.exists_cons_of_ne_nil h
    have hmono : StrictMono fun y : F => y / largest (x :: xs) :=
      fun a b hab => div_lt_div_of_pos_right hab hpos
    exact (maxElement_map hmono x xs).trans (div_self hpos.ne')
  · rfl

namespace PcaDetector

variable {F : Type*} [Field F] [LinearOrder F] [FloatMath F] (detector : PcaDetector F)

def rawScore (pca : PcaParams F) (e : Embedding F) (i : ℕ) : F :=
  pca.rowScore detector.cfg.scoreMethod detector.cfg.dropK (Rows.row pca.inputDim i e.data)

theorem getElem?_rawScores (pca : PcaParams F) (e : Embedding F) {i : ℕ}
    (h : i < e.embeddingMeta.gridH * e.embeddingMeta.gridW) :
    (detector.rawScores pca e)[i]? = some (detector.rawScore pca e i) :=
  getElem?_score pca e.data _ _ h

theorem detect_ok {pca : PcaParams F} (hpca : detector.pcaParams = some pca) {latency : ℕ}
    {e : Embedding F} {r : DetectionResult F} (h : detector.detect latency e = .ok r) :
    detector.rawScores pca e ≠ [] ∧
      r.anomalyMap.scores = normaliseByLargest (detector.rawScores pca e) ∧
      r.imageLevelScore = largest (normaliseByLargest (detector.rawScores pca e)) := by
  simp only [detect, hpca] at h
  split at h
  · simp at h
  · split at h
    · simp [fail] at h
    · next hne =>
      obtain rfl := Except.ok.inj h
      exact ⟨hne, rfl, rfl⟩

/-- The larger raw score of two frames is also the larger image-level score. -/
def OrderedByRaw (pca : PcaParams F) (e₁ e₂ : Embedding F) (r₁ r₂ : DetectionResult F) : Prop :=
  (largest (detector.rawScores pca e₁) < largest (detector.rawScores pca e₂) →
      r₁.imageLevelScore < r₂.imageLevelScore) ∧
    (largest (detector.rawScores pca e₂) < largest (detector.rawScores pca e₁) →
      r₂.imageLevelScore < r₁.imageLevelScore)

/-- The frames have one normaliser or the shared patches score zero, and their largest raw
scores are equal or one of them is not positive. -/
def FrameIndependent (pca : PcaParams F) (e₁ e₂ : Embedding F) : Prop :=
  (normaliser (detector.rawScores pca e₁) = normaliser (detector.rawScores pca e₂) ∨
    ∀ i j, SameFeatures [pca.inputDim] e₁ e₂ i j → detector.rawScore pca e₁ i = 0) ∧
  (largest (detector.rawScores pca e₁) = largest (detector.rawScores pca e₂) ∨
    largest (detector.rawScores pca e₁) ≤ 0 ∨ largest (detector.rawScores pca e₂) ≤ 0)

variable {pca : PcaParams F} (hpca : detector.pcaParams = some pca) {l₁ l₂ : ℕ}
  {e₁ e₂ : Embedding F} {r₁ r₂ : DetectionResult F} (h₁ : detector.detect l₁ e₁ = .ok r₁)
  (h₂ : detector.detect l₂ e₂ = .ok r₂)
include hpca h₁ h₂

theorem comparable_iff_normaliser :
    Comparable [pca.inputDim] e₁ e₂ r₁ r₂ ↔
      normaliser (detector.rawScores pca e₁) = normaliser (detector.rawScores pca e₂) ∨
        ∀ i j, SameFeatures [pca.inputDim] e₁ e₂ i j → detector.rawScore pca e₁ i = 0 := by
  obtain ⟨-, hs₁, -⟩ := detector.detect_ok hpca h₁
  obtain ⟨-, hs₂, -⟩ := detector.detect_ok hpca h₂
  have hentry : ∀ i j, SameFeatures [pca.inputDim] e₁ e₂ i j →
      (r₁.anomalyMap.scores[i]? = r₂.anomalyMap.scores[j]? ↔
        normaliser (detector.rawScores pca e₁) = normaliser (detector.rawScores pca e₂) ∨
          detector.rawScore pca e₁ i = 0) := by
    intro i j h
    have hraw : detector.rawScore pca e₂ j = detector.rawScore pca e₁ i := by
      simp only [rawScore, h.2.2 pca.inputDim (by simp)]
    rw [hs₁, hs₂, normaliseByLargest_eq, normaliseByLargest_eq, List.getElem?_map,
      List.getElem?_map, detector.getElem?_rawScores pca e₁ h.1,
      detector.getElem?_rawScores pca e₂ h.2.1, Option.map_some, Option.map_some, Option.some_inj,
      hraw, div_eq_div_iff_or (normaliser_ne_zero _) (normaliser_ne_zero _)]
  constructor
  · intro h
    by_cases hn : normaliser (detector.rawScores pca e₁) = normaliser (detector.rawScores pca e₂)
    · exact .inl hn
    · exact .inr fun i j hsame => ((hentry i j hsame).mp (h i j hsame)).resolve_left hn
  · intro h i j hsame
    exact (hentry i j hsame).mpr (h.imp_right fun h' => h' i j hsame)

theorem orderedByRaw_iff [IsStrictOrderedRing F] :
    detector.OrderedByRaw pca e₁ e₂ r₁ r₂ ↔
      largest (detector.rawScores pca e₁) = largest (detector.rawScores pca e₂) ∨
        largest (detector.rawScores pca e₁) ≤ 0 ∨ largest (detector.rawScores pca e₂) ≤ 0 := by
  obtain ⟨hne₁, -, hi₁⟩ := detector.detect_ok hpca h₁
  obtain ⟨hne₂, -, hi₂⟩ := detector.detect_ok hpca h₂
  rw [OrderedByRaw, hi₁, hi₂, largest_normaliseByLargest hne₁, largest_normaliseByLargest hne₂]
  generalize largest (detector.rawScores pca e₁) = m₁
  generalize largest (detector.rawScores pca e₂) = m₂
  constructor
  · intro h
    by_contra hcon
    push Not at hcon
    obtain ⟨hne, hpos₁, hpos₂⟩ := hcon
    simp only [if_pos hpos₁, if_pos hpos₂, lt_self_iff_false, imp_false, not_lt] at h
    exact hne (le_antisymm h.2 h.1)
  · have hlt : ∀ a b : F, a ≤ 0 → a < b → a < if 0 < b then 1 else b := by
      intro a b ha hab
      split_ifs
      · exact lt_of_le_of_lt ha zero_lt_one
      · exact hab
    rintro (rfl | hle | hle)
    · exact ⟨fun h => absurd h (lt_irrefl _), fun h => absurd h (lt_irrefl _)⟩
    · rw [if_neg (not_lt.mpr hle)]
      refine ⟨hlt m₁ m₂ hle, fun h => ?_⟩
      rwa [if_neg (not_lt.mpr (h.le.trans hle))]
    · rw [if_neg (not_lt.mpr hle)]
      refine ⟨fun h => ?_, hlt m₂ m₁ hle⟩
      rwa [if_neg (not_lt.mpr (h.le.trans hle))]

end PcaDetector

/-- Equal patches of two accepted frames get equal scores, and the PCA detector's
image-level scores are ordered as the largest raw scores are, if and only if the frames
are normalised alike. -/
theorem scores_comparable_iff {F : Type*} [Field F] [LinearOrder F] [IsStrictOrderedRing F]
    [FloatMath F] :
    (∀ (core : PatchCore F) (engine : NearestSearch F) (l₁ l₂ : ℕ) (e₁ e₂ : Embedding F)
        (r₁ r₂ : DetectionResult F), (core.detect engine l₁ e₁).1 = .ok r₁ →
        (core.detect engine l₂ e₂).1 = .ok r₂ →
        (Comparable core.rowDims e₁ e₂ r₁ r₂ ↔ core.FrameIndependent e₁ e₂)) ∧
      ∀ (detector : PcaDetector F) (pca : PcaParams F) (l₁ l₂ : ℕ) (e₁ e₂ : Embedding F)
        (r₁ r₂ : DetectionResult F), detector.pcaParams = some pca →
        detector.detect l₁ e₁ = .ok r₁ → detector.detect l₂ e₂ = .ok r₂ →
        (Comparable [pca.inputDim] e₁ e₂ r₁ r₂ ∧ detector.OrderedByRaw pca e₁ e₂ r₁ r₂ ↔
          detector.FrameIndependent pca e₁ e₂) :=
  ⟨fun core engine _ _ _ _ _ _ h₁ h₂ => core.comparable_iff engine h₁ h₂,
    fun detector _ _ _ _ _ _ _ hpca h₁ h₂ =>
      and_congr (detector.comparable_iff_normaliser hpca h₁ h₂)
        (detector.orderedByRaw_iff hpca h₁ h₂)⟩

/-! ### Two frames -/

/-- A plane whose normal patches lie on the first axis. -/
def axisModel : PcaParams ℚ := ⟨[1, 0], 1, [0, 0], [1]⟩

def axisDetector : PcaDetector ℚ := ⟨⟨.reconstruction, 0, 4 / 5, 0, 2, 1, 1⟩, some axisModel⟩

/-- Two patches, `a` and `b` away from the axis. -/
def axisFrame (a b : ℚ) : Embedding ℚ := .fromCpu [0, a, 0, b] ⟨2, 2, 1, 2⟩

def axisResult (a b : ℚ) : DetectionResult ℚ :=
  buildDetectionResult (normaliseByLargest (axisDetector.rawScores axisModel (axisFrame a b)))
    1 2 1 2 0 (4 / 5) 0

/-- A bank on the axis, and the model mixed in with equal weight. -/
def axisCore : PatchCore ℚ where
  cfg := ⟨1, 0, 2, 1, 1, 2, 0, 1 / 2, .reconstruction⟩
  featureBank := some ⟨2, [[0, 0], [1, 0]], by simp⟩
  lastCtx := ⟨[], 0, [], 0, 0, 0, .default, 0, 0, 0⟩
  whiteningParams := none
  effectiveThreshold := 4 / 5
  refDist := 1
  pcaParams := some axisModel

theorem scores_comparable_mirrored :
    Comparable [2] (axisFrame 1 2) (axisFrame 2 1) (axisResult 1 2) (axisResult 2 1) ∧
      ∃ r₁ r₂, (axisCore.detect flatL2 0 (axisFrame 1 2)).1 = .ok r₁ ∧
        (axisCore.detect flatL2 0 (axisFrame 2 1)).1 = .ok r₂ ∧
        Comparable axisCore.rowDims (axisFrame 1 2) (axisFrame 2 1) r₁ r₂ := by
  constructor
  · refine ((scores_comparable_iff.2 axisDetector axisModel 0 0 (axisFrame 1 2) (axisFrame 2 1)
      (axisResult 1 2) (axisResult 2 1) rfl rfl rfl).mpr ⟨.inl ?_, .inl ?_⟩).1
    · decide +kernel
    · decide +kernel
  · obtain ⟨r₁, h₁⟩ := hasValue_iff.mp
      (show hasValue (axisCore.detect flatL2 0 (axisFrame 1 2)).1 = true by decide +kernel)
    obtain ⟨r₂, h₂⟩ := hasValue_iff.mp
      (show hasValue (axisCore.detect flatL2 0 (axisFrame 2 1)).1 = true by decide +kernel)
    refine ⟨r₁, r₂, h₁, h₂, (scores_comparable_iff.1 axisCore flatL2 0 0 (axisFrame 1 2)
      (axisFrame 2 1) r₁ r₂ h₁ h₂).mpr fun pca hpca => .inr (.inl ?_)⟩
    obtain rfl := Option.some.inj hpca
    decide +kernel

/-- The first patches of the two frames are equal, but score a quarter and one, and the frame
with the larger raw score has no larger image-level score. -/
theorem scores_not_comparable :
    SameFeatures [2] (axisFrame 1 2) (axisFrame 1 1) 0 0 ∧
      (axisDetector.detect 0 (axisFrame 1 2)).toOption.map (·.anomalyMap.scores) =
        some [1 / 4, 1] ∧
      (axisDetector.detect 0 (axisFrame 1 1)).toOption.map (·.anomalyMap.scores) = some [1, 1] ∧
      (axisDetector.detect 0 (axisFrame 1 2)).toOption.map (·.imageLevelScore) = some 1 ∧
      (axisDetector.detect 0 (axisFrame 1 1)).toOption.map (·.imageLevelScore) = some 1 ∧
      largest (axisDetector.rawScores axisModel (axisFrame 1 1)) <
        largest (axisDetector.rawScores axisModel (axisFrame 1 2)) ∧
      (axisCore.detect flatL2 0 (axisFrame 1 2)).1.toOption.map (·.anomalyMap.scores) =
        some [5 / 8, 5 / 2] ∧
      (axisCore.detect flatL2 0 (axisFrame 1 1)).1.toOption.map (·.anomalyMap.scores) =
        some [1, 1] := by
  refine ⟨⟨by decide, by decide, ?_⟩, ?_⟩
  · decide +kernel
  · decide +kernel

end SurfaceAi.Detection
