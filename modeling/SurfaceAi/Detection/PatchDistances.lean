import SurfaceAi.Detection.QuerySpace

/-! Which of a frame's distances the coreset evolution assesses. A detection leaves the distances
of a patch as one row of its context; the evolution is given the number of rows and takes as many
distances from the front. -/

namespace SurfaceAi.Detection

open Embeddings

variable {F : Type*}

/-- The distances that `AssessAndOffer` hands to both of its helpers, with their positions. -/
def Offer.assessed (offer : Offer F) : List (F × ℕ) :=
  offer.distances.zipIdx.take offer.queryCount

theorem Offer.values_assessed (offer : Offer F) :
    offer.assessed.map Prod.fst = offer.distances.take offer.queryCount := by
  rw [assessed, List.map_take, List.zipIdx_map_fst]

/-- What lies behind these distances plays no part. -/
theorem CoresetEvolution.assessAndOffer_assessed [Zero F] [One F] [Sub F] [Mul F] [Div F]
    [NatCast F] [LT F] [DecidableLT F] [LE F] [DecidableLE F] (s : CoresetEvolution F)
    (offer : Offer F) :
    s.assessAndOffer { offer with distances := offer.assessed.map Prod.fst } =
      s.assessAndOffer offer := by
  rw [offer.values_assessed]
  have hshort : min offer.queryCount offer.distances.length < offer.queryCount ↔
      offer.distances.length < offer.queryCount := by omega
  unfold assessAndOffer
  simp only [List.take_take, Nat.min_self, List.length_take, hshort]
  rfl

/-- The entries are the ones of one column of a row-major buffer, one from each of its rows. -/
def OneFromEachRow (k rows : ℕ) (entries : List (F × ℕ)) : Prop :=
  ∃ column < k, entries.map Prod.snd = (List.range rows).map fun row => row * k + column

/-- The first entries are one from each row only where a row has one entry, or there is one row. -/
theorem oneFromEachRow_take_iff {k rows : ℕ} {distances : List F} (hk : 0 < k) (hrows : 0 < rows)
    (hlength : distances.length = rows * k) :
    OneFromEachRow k rows (distances.zipIdx.take rows) ↔ k = 1 ∨ rows = 1 := by
  have hle : rows ≤ distances.length := by
    rw [hlength]
    exact Nat.le_mul_of_pos_right rows hk
  have hpositions : (distances.zipIdx.take rows).map Prod.snd = List.range rows := by
    rw [List.map_take, List.zipIdx_map_snd, ← List.range_eq_range', List.take_range,
      Nat.min_eq_left hle]
  rw [OneFromEachRow, hpositions]
  constructor
  · rintro ⟨column, -, heq⟩
    by_contra hmore
    have hfirst : 0 = 0 * k + column := by
      have hat := congrArg (·[0]?) heq
      simpa [hrows] using hat
    have hsecond : 1 = 1 * k + column := by
      have hat := congrArg (·[1]?) heq
      simpa [show 1 < rows by omega] using hat
    omega
  · rintro (rfl | rfl)
    · exact ⟨0, Nat.one_pos, by simp⟩
    · exact ⟨0, hk, by simp⟩

theorem FeatureBank.pos_of_search_ne_nil {bank : FeatureBank F} {engine : NearestSearch F}
    {queries : List (List F)} {k : ℕ} (h : bank.search engine queries k ≠ []) :
    0 < queries.length ∧ 0 < k := by
  have hpos := List.length_pos_iff.mpr h
  rw [bank.length_search] at hpos
  exact ⟨Nat.pos_of_mul_pos_right hpos, Nat.pos_of_mul_pos_left hpos⟩

namespace PatchCore

variable [Zero F] [One F] [Add F] [Sub F] [Mul F] [Div F] [Neg F] [NatCast F] [LT F]
  [DecidableLT F] [FloatMath F] {core core' : PatchCore F} {engine : NearestSearch F}
  {latency : ℕ} {embedding : Embedding F} {result : DetectionResult F}

omit [One F] [Sub F] [Div F] [Neg F] [NatCast F] [LT F] [DecidableLT F] [FloatMath F] in
theorem length_queryRows (bank : FeatureBank F) (data : List F) (n : ℕ) :
    (core.queryRows bank data n).length = n := by
  unfold queryRows
  split <;> simp

/-- The shape of the buffer that a detection leaves in its context. -/
theorem shape_of_detect (h : core.detect engine latency embedding = (.ok result, core')) :
    0 < core'.lastCtx.kNearest ∧ 0 < core'.lastCtx.gridH * core'.lastCtx.gridW ∧
      core'.lastCtx.knnDistances.length =
        core'.lastCtx.gridH * core'.lastCtx.gridW * core'.lastCtx.kNearest := by
  unfold detect at h
  split at h
  · cases h
  · next bank hbank =>
    dsimp only at h
    split at h
    · cases h
    · split_ifs at h with hempty
      · cases congrArg Prod.fst h
      · obtain ⟨-, rfl⟩ := Prod.mk.inj h
        obtain ⟨hrows, hk⟩ := FeatureBank.pos_of_search_ne_nil hempty
        have hlength := bank.length_search engine (core.queryRows bank embedding.data
          (embedding.embeddingMeta.gridH * embedding.embeddingMeta.gridW)) core.cfg.kNearest
        rw [length_queryRows] at hrows hlength
        exact ⟨hk, hrows, hlength⟩

/-- After every detection the evolution assesses one distance of each patch exactly when a single
neighbour is searched for, or there is a single patch. -/
theorem assessed_oneFromEachRow_iff
    (h : core.detect engine latency embedding = (.ok result, core'))
    (matchedRulesCount : ℕ) (reasonerVerdict : String) :
    OneFromEachRow core'.lastCtx.kNearest (core'.lastCtx.gridH * core'.lastCtx.gridW)
        (offerOf core'.lastCtx matchedRulesCount reasonerVerdict).assessed ↔
      core'.lastCtx.kNearest = 1 ∨ core'.lastCtx.gridH * core'.lastCtx.gridW = 1 := by
  obtain ⟨hk, hrows, hlength⟩ := shape_of_detect h
  have hcount : (offerOf core'.lastCtx matchedRulesCount reasonerVerdict).queryCount =
      core'.lastCtx.gridH * core'.lastCtx.gridW := by
    show core'.lastCtx.knnDistances.length / core'.lastCtx.kNearest = _
    rw [hlength, Nat.mul_div_cancel _ hk]
  rw [Offer.assessed, hcount]
  exact oneFromEachRow_take_iff hk hrows hlength

/-- A row of two patches against two vectors. -/
def twoPatchCore (kNearest : ℕ) : PatchCore ℚ :=
  .create { kNearest := kNearest
            gaussianSigma := 0
            imageWidth := 2
            imageHeight := 1
            patchSize := 1
            embedDim := 1
            dropK := 0
            hybridAlpha := 1 / 2
            pcaScoreMethod := .reconstruction } (some ⟨1, [[0], [3]], by decide⟩)

def twoPatchFrame : Embedding ℚ := .fromCpu [1, 2] ⟨1, 2, 1, 2⟩

/-- The detector after it has seen the frame. -/
def twoPatchDetected (kNearest : ℕ) : PatchCore ℚ :=
  ((twoPatchCore kNearest).detect flatL2 0 twoPatchFrame).2

theorem detected_of_isOk {r : Result (DetectionResult ℚ) × PatchCore ℚ} (h : r.1.isOk = true) :
    ∃ result, r = (.ok result, r.2) := by
  obtain ⟨_ | result, core⟩ := r
  · cases h
  · exact ⟨result, rfl⟩

theorem assessed_oneFromEachRow_iff_nearest :
    OneFromEachRow 1 2 (offerOf (twoPatchDetected 1).lastCtx 0 "OK").assessed := by
  obtain ⟨result, h⟩ : ∃ result, (twoPatchCore 1).detect flatL2 0 twoPatchFrame =
      (.ok result, twoPatchDetected 1) := detected_of_isOk (by decide +kernel)
  have hk : (twoPatchDetected 1).lastCtx.kNearest = 1 := by decide +kernel
  have hrows : (twoPatchDetected 1).lastCtx.gridH * (twoPatchDetected 1).lastCtx.gridW = 2 := by
    decide +kernel
  have hiff := assessed_oneFromEachRow_iff h 0 "OK"
  rw [hk, hrows] at hiff
  exact hiff.mpr (.inl rfl)

/-- Of two neighbours, both distances of the first patch are assessed and none of the second. -/
theorem assessed_first_row_only :
    (∃ result, (twoPatchCore 2).detect flatL2 0 twoPatchFrame =
      (.ok result, twoPatchDetected 2)) ∧
      (twoPatchDetected 2).lastCtx.knnDistances = [1, 4, 1, 4] ∧
      (offerOf (twoPatchDetected 2).lastCtx 0 "OK").assessed = [(1, 0), (4, 1)] ∧
      ¬OneFromEachRow 2 2 (offerOf (twoPatchDetected 2).lastCtx 0 "OK").assessed := by
  have hassessed : (offerOf (twoPatchDetected 2).lastCtx 0 "OK").assessed = [(1, 0), (4, 1)] := by
    decide +kernel
  refine ⟨detected_of_isOk (by decide +kernel), by decide +kernel, hassessed, ?_⟩
  rintro ⟨column, -, heq⟩
  rw [hassessed] at heq
  have hcolumns : [0, 1] = [0 * 2 + column, 1 * 2 + column] := heq
  simp only [List.cons.injEq, and_true] at hcolumns
  omega

end PatchCore

end SurfaceAi.Detection
