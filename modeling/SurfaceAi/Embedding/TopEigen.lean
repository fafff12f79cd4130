import SurfaceAi.Embedding.PowerIteration

/-! What a fit is made of: the matrices that the power iteration is given one after the other,
the pairs it answers with, and the covariance it starts from. -/

namespace SurfaceAi.Embeddings

open Deflation FlatMatrix Matrix

section Structure

variable {F : Type*} [Zero F] [One F] [Add F] [Sub F] [Mul F] [Div F] [NatCast F] [LT F]
  [DecidableLT F] (power : List F → ℕ → List F × F) (dim : ℕ) (cov : List F)

/-- The matrix that the power iteration is given for component `t`. -/
def deflated : ℕ → List F
  | 0 => cov
  | t + 1 =>
    let (ev, lambda) := power (deflated t) dim
    if 1 / (1000000000000 : ℕ) < lambda then deflateFlat dim (deflated t) ev lambda
    else deflated t

/-- The pair that the power iteration answers with for component `t`. -/
def topPair (t : ℕ) : List F × F := power (deflated power dim cov t) dim

omit [Add F] in
theorem computeTopEigen_eq (k : ℕ) :
    computeTopEigen power cov dim k =
      ⟨deflated power dim cov k, ((List.range k).map fun t => (topPair power dim cov t).1).flatten,
        (List.range k).map fun t => (topPair power dim cov t).2⟩ := by
  induction k with
  | zero => rfl
  | succ k ih =>
    rw [computeTopEigen, List.range_succ, List.foldl_append, ← computeTopEigen, ih,
      List.map_append, List.map_append, List.flatten_append]
    simp only [List.foldl_cons, List.foldl_nil, TopEigen.next, topPair, deflated, List.map_cons,
      List.map_nil, List.flatten_singleton]

theorem pcaOfMoments_eigvals (mean : List F) (k : ℕ) :
    (pcaOfMoments power mean cov dim k).eigvals =
      (List.range k).map fun t => (topPair power dim cov t).2 := by
  rw [pcaOfMoments, computeTopEigen_eq]

variable {power dim cov}

omit [Add F] in
/-- Row `t` of the vectors found, when all have the dimension. -/
theorem row_eigenvectors {k t : ℕ} (ht : t < k)
    (hlength : ∀ t < k, (topPair power dim cov t).1.length = dim) :
    Rows.row dim t (((List.range k).map fun t => (topPair power dim cov t).1).flatten) =
      (topPair power dim cov t).1 := by
  have hblocks : ∀ b ∈ (List.range k).map fun t => (topPair power dim cov t).1, b.length = dim := by
    intro b hb
    obtain ⟨t, ht, rfl⟩ := List.mem_map.mp hb
    exact hlength t (List.mem_range.mp ht)
  have hrows := Rows.rows_flatten hblocks
  have hrow := congrArg (fun rows => rows[t]?) hrows
  simpa [Rows.rows, ht] using hrow

theorem pcaOfMoments_components (mean : List F) (k : ℕ) :
    (pcaOfMoments power mean cov dim k).components =
      fixDegenerateComponents (((List.range k).map fun t => (topPair power dim cov t).1).flatten)
        ((List.range k).map fun t => (topPair power dim cov t).2) k dim := by
  rw [pcaOfMoments, computeTopEigen_eq]

/-- Components that are not short are not replaced. -/
theorem row_pcaOfMoments {mean : List F} {k t : ℕ} (ht : t < k)
    (hlength : ∀ t < k, (topPair power dim cov t).1.length = dim)
    (hlong : ∀ t < k, ¬dot (topPair power dim cov t).1 (topPair power dim cov t).1 < 1 / (2 : ℕ)) :
    Rows.row dim t (pcaOfMoments power mean cov dim k).components =
      (topPair power dim cov t).1 := by
  have hkept : (pcaOfMoments power mean cov dim k).components =
      ((List.range k).map fun t => (topPair power dim cov t).1).flatten := by
    rw [pcaOfMoments_components, fixDegenerateComponents, List.flatMap_def]
    refine congrArg List.flatten (List.map_congr_left fun t ht => ?_)
    have ht := List.mem_range.mp ht
    dsimp only
    rw [row_eigenvectors ht hlength, if_neg fun h => hlong t ht h.2]
  rw [hkept, row_eigenvectors ht hlength]

end Structure

/-! ### The covariance -/

section Covariance

variable {F : Type*} [Zero F] [One F] [Add F] [Sub F] [Mul F] [Div F] [NatCast F] [LT F]
  [DecidableLT F]

/-- The vectors of collected samples. -/
def CollectedSamples.rows (s : CollectedSamples F) : List (List F) :=
  Rows.rows s.inputDim s.totalCount s.data

/-- What a fit has done that succeeded. -/
theorem fitPca_eq_ok {power : List F → ℕ → List F × F} {samples : List (Embedding F)} {k : ℕ}
    {params : PcaParams F} (h : fitPca power samples k = some (.ok params)) :
    ∃ s, collectSamples samples = some (.ok s) ∧ k ≤ s.inputDim ∧
      params = pcaOfMoments power (batchMoments s.rows s.inputDim).1
        (batchMoments s.rows s.inputDim).2 s.inputDim k := by
  obtain ⟨collected, hcollected, h⟩ := Option.map_eq_some_iff.mp h
  cases collected with
  | error e => cases h
  | ok s =>
    change (if s.inputDim < k then _ else _) = _ at h
    split_ifs at h with hdim
    · cases h
    · exact ⟨s, hcollected, not_lt.mp hdim, (Except.ok.inj h).symm⟩

omit [Zero F] [One F] [Add F] [Sub F] [Mul F] [Div F] [NatCast F] [LT F] [DecidableLT F] in
theorem collectSamples_pos {samples : List (Embedding F)} {s : CollectedSamples F}
    (h : collectSamples samples = some (.ok s)) : 0 < s.inputDim ∧ 0 < s.totalCount := by
  unfold collectSamples at h
  split at h
  · cases Option.some.inj h
  · dsimp only at h
    split at h
    · cases Option.some.inj h
    · split_ifs at h with hzero
      · cases Option.some.inj h
      · obtain ⟨copies, -, hs⟩ := Option.map_eq_some_iff.mp h
        obtain rfl := Except.ok.inj hs
        dsimp only
        omega

end Covariance

section RealCovariance

variable {n : ℕ}

theorem length_computeCovariance (rows : List (List ℝ)) (n : ℕ) :
    (computeCovariance rows n).length = n * n := length_tabulate ..

/-- The covariance is the average of the squares of the centred rows. -/
theorem matOf_computeCovariance (rows : List (List ℝ)) :
    matOf n (computeCovariance rows n) = (1 / (rows.length : ℝ)) •
      (rows.map fun x => vecMulVec (vecOf n x) (vecOf n x)).sum := by
  have hsum : ∀ (l : List (List ℝ)) (i j : Fin n),
      (l.map fun x => vecMulVec (vecOf n x) (vecOf n x)).sum i j =
        (l.map fun x => x.getD i 0 * x.getD j 0).sum := by
    intro l i j
    induction l with
    | nil => rfl
    | cons x l ih =>
      rw [List.map_cons, List.sum_cons, Matrix.add_apply, ih, List.map_cons, List.sum_cons]
      rfl
  ext i j
  rw [computeCovariance, matOf_tabulate, Matrix.smul_apply, hsum, smul_eq_mul, mul_comm]
  dsimp only
  rw [accumulate_eq_sum]

theorem posSemidef_computeCovariance (rows : List (List ℝ)) :
    (matOf n (computeCovariance rows n)).PosSemidef := by
  rw [matOf_computeCovariance]
  refine PosSemidef.smul ?_ (by positivity)
  induction rows with
  | nil => exact PosSemidef.zero
  | cons x rows ih =>
    rw [List.map_cons, List.sum_cons]
    have hsquare : (vecMulVec (vecOf n x) (vecOf n x)).PosSemidef := by
      simpa using posSemidef_vecMulVec_self_star (vecOf n x)
    exact hsquare.add ih

theorem length_batchMoments (rows : List (List ℝ)) (n : ℕ) :
    (batchMoments rows n).2.length = n * n := length_computeCovariance ..

theorem posSemidef_batchMoments (rows : List (List ℝ)) :
    (matOf n (batchMoments rows n).2).PosSemidef := posSemidef_computeCovariance _

end RealCovariance

/-! ### What variance is reported -/

theorem powerIteration_of_le {n : ℕ} {m : List ℝ} (hn : 0 < n) (hm : m.length = n * n)
    (hA : (matOf n m).PosSemidef) (hlong : powerTolerance ≤ columnNorm n m) :
    0 < (powerIteration m n).2 ∧ dot (powerIteration m n).1 (powerIteration m n).1 = 1 := by
  obtain ⟨u, lambda, hsome, hu, hpos⟩ := powerConverges_of_le hn hm hA hlong
  rw [powerIteration, hsome, Option.getD_some, dot_eq hu.length_eq hu.length_eq]
  exact ⟨hpos, hu.unit⟩

theorem powerIteration_of_lt {n : ℕ} {m : List ℝ} (hshort : columnNorm n m < powerTolerance) :
    (powerIteration m n).2 = 0 := by
  rw [powerIteration, powerConverges_of_lt hshort, Option.getD_none]

/-- The power iteration reports a positive variance along a vector of length one exactly when
the first column of the matrix is long enough, and so does a fit for its first component. -/
theorem powerIteration_positive_iff {n : ℕ} {m : List ℝ} (hn : 0 < n) (hm : m.length = n * n)
    (hA : (matOf n m).PosSemidef) :
    (0 < (powerIteration m n).2 ∧ dot (powerIteration m n).1 (powerIteration m n).1 = 1 ↔
      powerTolerance ≤ columnNorm n m) ∧
    ∀ (samples : List (Embedding ℝ)) (k : ℕ) (s : CollectedSamples ℝ) (params : PcaParams ℝ),
      collectSamples samples = some (.ok s) → 0 < k →
      fitPca powerIteration samples k = some (.ok params) →
      (0 < params.eigvals.getD 0 0 ↔
        powerTolerance ≤ columnNorm s.inputDim (batchMoments s.rows s.inputDim).2) := by
  constructor
  · constructor
    · intro h
      by_contra hshort
      exact h.1.ne' (powerIteration_of_lt (not_le.mp hshort))
    · exact powerIteration_of_le hn hm hA
  · intro samples k s params hs hk hfit
    obtain ⟨s', hs', -, rfl⟩ := fitPca_eq_ok hfit
    obtain rfl : s = s' := Except.ok.inj (Option.some.inj (hs.symm.trans hs'))
    rw [pcaOfMoments_eigvals, getD_map_range hk]
    change 0 < (powerIteration (batchMoments s.rows s.inputDim).2 s.inputDim).2 ↔ _
    constructor
    · intro hpos
      by_contra hshort
      exact hpos.ne' (powerIteration_of_lt (not_le.mp hshort))
    · intro hlong
      exact (powerIteration_of_le (collectSamples_pos hs).1 (length_batchMoments ..)
        (posSemidef_batchMoments _) hlong).1

/-- Two samples of one feature. -/
def lineSample : Embedding ℝ := .fromCpu [0, (2 : ℕ)] ⟨1, 2, 1, 2⟩

noncomputable def lineCovariance : List ℝ := computeCovariance [[1]] 1

theorem collectSamples_line : collectSamples [lineSample] = some (.ok ⟨[0, 2], 1, 2⟩) := rfl

noncomputable def lineModel : PcaParams ℝ :=
  pcaOfMoments powerIteration (batchMoments (Rows.rows 1 2 [(0 : ℝ), (2 : ℕ)]) 1).1
    (batchMoments (Rows.rows 1 2 [(0 : ℝ), (2 : ℕ)]) 1).2 1 1

theorem fitPca_line : fitPca powerIteration [lineSample] 1 = some (.ok lineModel) := by
  rw [lineModel, lineSample, Nat.cast_ofNat]
  rfl

theorem powerIteration_positive_iff_line :
    (0 < (powerIteration lineCovariance 1).2 ∧
        dot (powerIteration lineCovariance 1).1 (powerIteration lineCovariance 1).1 = 1 ↔
      powerTolerance ≤ columnNorm 1 lineCovariance) ∧
    (0 < lineModel.eigvals.getD 0 0 ↔
      powerTolerance ≤ columnNorm 1 (batchMoments (Rows.rows 1 2 [0, 2]) 1).2) := by
  have hlength := length_computeCovariance [[(1 : ℝ)]] 1
  obtain ⟨hmatrix, hfit⟩ := powerIteration_positive_iff Nat.one_pos hlength
    (posSemidef_computeCovariance [[1]])
  exact ⟨hmatrix, hfit _ 1 _ _ collectSamples_line Nat.one_pos fitPca_line⟩

/-- Two samples that differ in their second feature only. -/
def splitSample : Embedding ℝ := .fromCpu [0, -1, 0, 1] ⟨2, 2, 1, 2⟩

theorem splitSample_covariance :
    (batchMoments (Rows.rows 2 2 [0, -1, 0, 1]) 2).2 = [(0 : ℝ), 0, 0, 1] := by
  simp [batchMoments, computeMean, computeCovariance, centerData, tabulate, Rows.rows, Rows.row,
    accumulate, List.range_succ]
  norm_num

theorem collectSamples_split :
    collectSamples [splitSample] = some (.ok ⟨[0, -1, 0, 1], 2, 2⟩) := rfl

theorem columnNorm_split : columnNorm 2 [(0 : ℝ), 0, 0, 1] < powerTolerance := by
  have hcolumn : matVec 2 [(0 : ℝ), 0, 0, 1] (axis 2) = [0, 0] := by
    simp [matVec, axis, Rows.row, dot, accumulate, List.range_succ, List.replicate_succ]
  have hzero : columnNorm 2 [(0 : ℝ), 0, 0, 1] = 0 := by
    rw [columnNorm, hcolumn]
    simp [dot, accumulate, FloatMath.sqrt]
  rw [hzero]
  exact powerTolerance_pos

theorem powerIteration_split : powerIteration [(0 : ℝ), 0, 0, 1] 2 = (axis 2, 0) := by
  rw [powerIteration, powerConverges_of_lt columnNorm_split, Option.getD_none]

/-- The variance is along the second axis, and the iteration starts along the first. -/
theorem no_variance_reported :
    (matOf 2 [(0 : ℝ), 0, 0, 1]).PosSemidef ∧ (matOf 2 [(0 : ℝ), 0, 0, 1]).trace = 1 ∧
      (powerIteration [(0 : ℝ), 0, 0, 1] 2).2 = 0 ∧
      ∃ params, fitPca powerIteration [splitSample] 1 = some (.ok params) ∧
        params.eigvals = [0] := by
  refine ⟨?_, ?_, by rw [powerIteration_split], _, rfl, ?_⟩
  · rw [← splitSample_covariance]
    exact posSemidef_batchMoments _
  · simp [trace_fin_two, matOf]
  · change (pcaOfMoments powerIteration _ (batchMoments (Rows.rows 2 2 [0, -1, 0, 1]) 2).2 2
      1).eigvals = [0]
    rw [pcaOfMoments_eigvals, splitSample_covariance]
    change [(powerIteration [(0 : ℝ), 0, 0, 1] 2).2] = [0]
    rw [powerIteration_split]

end SurfaceAi.Embeddings
