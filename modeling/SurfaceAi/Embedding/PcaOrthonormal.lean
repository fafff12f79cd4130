import SurfaceAi.Embedding.TopEigen

/-! The components of a fit, with the power iteration idealised to exact eigenpairs. They are
orthonormal as long as the zero branch is not taken, which answers with the same vector every
time; and for orthonormal components the score is the length of the residual. -/

namespace SurfaceAi.Embeddings

open Deflation FlatMatrix Matrix

/-! ### The residual -/

namespace PcaParams

variable {params : PcaParams ℝ} {dropK : ℕ} {x : List ℝ}

/-- The components are of the dimension, of length one and orthogonal to each other. -/
structure Orthonormal (params : PcaParams ℝ) : Prop where
  length_component : ∀ t < params.targetDim, (params.component t).length = params.inputDim
  dot_component : ∀ s < params.targetDim, ∀ t < params.targetDim,
    dot (params.component s) (params.component t) = if s = t then 1 else 0

/-- The indices of the components that are kept. -/
def kept (params : PcaParams ℝ) (dropK : ℕ) : Finset ℕ :=
  (Finset.range params.targetDim).filter fun t => dropK ≤ t

theorem sum_drop_range (f : ℕ → ℝ) (d k : ℕ) :
    (((List.range k).drop d).map f).sum = ∑ t ∈ (Finset.range k).filter (d ≤ ·), f t := by
  induction k with
  | zero => simp
  | succ k ih =>
    rw [List.range_succ, Finset.range_add_one, Finset.filter_insert]
    rcases Nat.lt_or_ge k d with hlt | hge
    · have hnone : (Finset.range k).filter (d ≤ ·) = ∅ := by
        ext t
        simp
        omega
      rw [if_neg (not_le.mpr hlt), hnone, List.drop_eq_nil_of_le (by simp; omega)]
      rfl
    · rw [if_pos hge, Finset.sum_insert (by simp), List.drop_append_of_le_length (by simpa using hge),
        List.map_append, List.sum_append, ih, add_comm]
      simp

theorem vecOf_sub {n : ℕ} {y : List ℝ} (hx : x.length = n) (hy : y.length = n) :
    vecOf n (List.zipWith (· - ·) x y) = vecOf n x - vecOf n y := by
  funext i
  have hi : (i : ℕ) < (List.zipWith (· - ·) x y).length := by simp [hx, hy]
  rw [vecOf, List.getD_eq_getElem _ _ hi, List.getElem_zipWith, Pi.sub_apply, vecOf, vecOf,
    List.getD_eq_getElem _ _ (hx ▸ i.isLt), List.getD_eq_getElem _ _ (hy ▸ i.isLt)]

/-- The centred row, as a vector. -/
def centred (params : PcaParams ℝ) (x : List ℝ) : Fin params.inputDim → ℝ :=
  vecOf params.inputDim x - vecOf params.inputDim params.mean

/-- The components, as vectors. -/
def direction (params : PcaParams ℝ) (t : ℕ) : Fin params.inputDim → ℝ :=
  vecOf params.inputDim (params.component t)

theorem Orthonormal.direction (h : params.Orthonormal) :
    ∀ s ∈ params.kept dropK, ∀ t ∈ params.kept dropK,
      params.direction s ⬝ᵥ params.direction t = if s = t then 1 else 0 := by
  intro s hs t ht
  have hs := Finset.mem_range.mp (Finset.mem_filter.mp hs).1
  have ht := Finset.mem_range.mp (Finset.mem_filter.mp ht).1
  rw [PcaParams.direction, PcaParams.direction,
    ← dot_eq (h.length_component s hs) (h.length_component t ht)]
  exact h.dot_component s hs t ht

theorem Orthonormal.coordinate (h : params.Orthonormal) (hx : x.length = params.inputDim) {t : ℕ}
    (ht : t < params.targetDim) :
    params.coordinate x t = params.centred x ⬝ᵥ params.direction t := by
  have hsub : (List.zipWith (· - ·) x params.mean).length = params.inputDim := by
    rw [List.length_zipWith, hx, inputDim, min_self]
  rw [PcaParams.coordinate, dot_eq hsub (h.length_component t ht), vecOf_sub hx rfl]
  rfl

/-- The row less its reconstruction is what the kept components leave of it. -/
theorem Orthonormal.sub_reconstruct (h : params.Orthonormal) (hx : x.length = params.inputDim) :
    vecOf params.inputDim (List.zipWith (· - ·) x (params.reconstruct dropK x)) =
      residual (params.kept dropK) params.direction (params.centred x) := by
  have hlength : (params.reconstruct dropK x).length = params.inputDim := by simp [reconstruct]
  rw [vecOf_sub hx hlength, reconstruct, vecOf_map_range]
  funext j
  have hsum : params.reconstructEntry dropK x j =
      (∑ t ∈ params.kept dropK, (params.centred x ⬝ᵥ params.direction t) • params.direction t) j +
        vecOf params.inputDim params.mean j := by
    have hfold : ∀ (f : ℕ → ℝ) (l : List ℕ),
        l.foldl (fun acc t => acc + f t) 0 = (l.map f).sum := by
      intro f l
      rw [List.sum_eq_foldl, List.foldl_map]
    rw [reconstructEntry, hfold, sum_map_range, Finset.sum_apply, kept, Finset.sum_filter,
      Fin.sum_univ_eq_sum_range (fun t => (if dropK ≤ t then params.coordinate x t else 0) *
        (params.component t).getD j 0)]
    congr 1
    refine Finset.sum_congr rfl fun t ht => ?_
    split_ifs
    · rw [h.coordinate hx (Finset.mem_range.mp ht)]
      rfl
    · exact zero_mul _
  rw [Deflation.residual, centred, Pi.sub_apply, Pi.sub_apply, Pi.sub_apply, hsum, centred]
  ring

/-- The score is the squared length of the residual. -/
theorem Orthonormal.rowScore (h : params.Orthonormal) (hx : x.length = params.inputDim)
    (hdrop : dropK < params.targetDim) :
    params.rowScore .reconstruction dropK x =
      dot (List.zipWith (· - ·) x (params.reconstruct dropK x))
        (List.zipWith (· - ·) x (params.reconstruct dropK x)) := by
  have hsub : (List.zipWith (· - ·) x params.mean).length = params.inputDim := by
    rw [List.length_zipWith, hx, inputDim, min_self]
  have hrest : (List.zipWith (· - ·) x (params.reconstruct dropK x)).length = params.inputDim := by
    simp [reconstruct, hx]
  have hkept : dot (params.keptCoordinates dropK x) (params.keptCoordinates dropK x) =
      ∑ t ∈ params.kept dropK, (params.centred x ⬝ᵥ params.direction t) *
        (params.centred x ⬝ᵥ params.direction t) := by
    rw [dot, accumulate_eq_sum, keptCoordinates, List.zipWith_map, List.zipWith_self,
      sum_drop_range]
    refine Finset.sum_congr rfl fun t ht => ?_
    rw [h.coordinate hx (Finset.mem_range.mp (Finset.mem_filter.mp ht).1)]
  have horthonormal : ∀ s ∈ params.kept dropK, ∀ t ∈ params.kept dropK,
      params.direction s ⬝ᵥ params.direction t = if s = t then 1 else 0 := h.direction
  have hresidual := residual_sq horthonormal (params.centred x)
  rw [← h.sub_reconstruct hx, ← dot_eq hrest hrest] at hresidual
  have hnonneg : 0 ≤ dot (List.zipWith (· - ·) x (params.reconstruct dropK x))
      (List.zipWith (· - ·) x (params.reconstruct dropK x)) := by
    rw [dot_eq hrest hrest]
    exact dotProduct_self_nonneg _
  rw [PcaParams.rowScore, if_neg (not_le.mpr hdrop), reconstructionScore]
  rw [stdMax_eq_max, hkept, dot_eq hsub hsub, vecOf_sub hx rfl]
  change max 0 (params.centred x ⬝ᵥ params.centred x - _) = _
  rw [← hresidual, max_eq_right hnonneg]

end PcaParams

/-! ### The components of a fit -/

section Fit

variable {power : List ℝ → ℕ → List ℝ × ℝ} {n t : ℕ} {cov m : List ℝ}

/-- The power iteration idealised on one matrix: where it does not take its zero branch, it
answers with an eigenpair, whose image has passed the test of the norm. -/
structure ExactOn (power : List ℝ → ℕ → List ℝ × ℝ) (n : ℕ) (m : List ℝ) : Prop where
  zero : powerConverges m n = none → power m n = (axis n, 0)
  length_eq : powerConverges m n ≠ none → (power m n).1.length = n
  eigenpair : powerConverges m n ≠ none →
    Eigenpair (matOf n m) (vecOf n (power m n).1) (power m n).2
  image : powerConverges m n ≠ none → powerTolerance ^ 2 ≤
    matOf n m *ᵥ vecOf n (power m n).1 ⬝ᵥ matOf n m *ᵥ vecOf n (power m n).1

/-- The vector found for component `t`. -/
noncomputable def found (power : List ℝ → ℕ → List ℝ × ℝ) (n : ℕ) (cov : List ℝ) (t : ℕ) : Fin n → ℝ :=
  vecOf n (topPair power n cov t).1

theorem ExactOn.length_pair (h : ExactOn power n m) : (power m n).1.length = n := by
  by_cases hzero : powerConverges m n = none
  · rw [h.zero hzero]
    exact length_axis n
  · exact h.length_eq hzero

/-- Whichever branch is taken, the vector has length one. -/
theorem ExactOn.unit (h : ExactOn power n m) (hn : 0 < n) :
    vecOf n (power m n).1 ⬝ᵥ vecOf n (power m n).1 = 1 := by
  by_cases hzero : powerConverges m n = none
  · rw [h.zero hzero]
    exact axis_unit hn
  · exact (h.eigenpair hzero).unit

/-- An eigenvalue whose vector has passed the test is large enough to be taken out. -/
theorem ExactOn.eigenvalue (h : ExactOn power n m) (hA : (matOf n m).PosSemidef)
    (hzero : powerConverges m n ≠ none) : 1 / (1000000000000 : ℕ) < (power m n).2 := by
  have himage := h.image hzero
  rw [(h.eigenpair hzero).image_sq] at himage
  have hle := abs_le_of_sq_le_sq himage ((h.eigenpair hzero).nonneg hA)
  refine lt_of_lt_of_le ?_ (le_of_abs_le hle)
  rw [powerTolerance]
  norm_num

theorem matOf_deflateFlat (n : ℕ) (m ev : List ℝ) (lambda : ℝ) :
    matOf n (deflateFlat n m ev lambda) = deflate (matOf n m) (vecOf n ev) lambda := by
  ext i j
  rw [deflateFlat, matOf_tabulate, deflate, Matrix.sub_apply, Matrix.smul_apply, vecMulVec_apply,
    smul_eq_mul, ← mul_assoc]
  rfl

/-- What holds of the matrix for component `t` when the zero branch has not been taken. -/
structure Deflating (power : List ℝ → ℕ → List ℝ × ℝ) (n : ℕ) (cov : List ℝ) (t : ℕ) : Prop where
  length_eq : (deflated power n cov t).length = n * n
  posSemidef : (matOf n (deflated power n cov t)).PosSemidef
  kernel : ∀ s < t, matOf n (deflated power n cov t) *ᵥ found power n cov s = 0
  orthonormal : ∀ r < t, ∀ s < t,
    found power n cov r ⬝ᵥ found power n cov s = if r = s then 1 else 0
  agrees : ∀ x, (∀ s < t, found power n cov s ⬝ᵥ x = 0) →
    matOf n (deflated power n cov t) *ᵥ x = matOf n cov *ᵥ x

theorem deflating_zero (hlength : cov.length = n * n) (hcov : (matOf n cov).PosSemidef) :
    Deflating power n cov 0 where
  length_eq := hlength
  posSemidef := hcov
  kernel s hs := absurd hs (Nat.not_lt_zero s)
  orthonormal r hr := absurd hr (Nat.not_lt_zero r)
  agrees _ _ := rfl

theorem Deflating.succ (h : Deflating power n cov t)
    (hexact : ExactOn power n (deflated power n cov t))
    (hzero : powerConverges (deflated power n cov t) n ≠ none) :
    Deflating power n cov (t + 1) := by
  have hpair := hexact.eigenpair hzero
  have hlarge := hexact.eigenvalue h.posSemidef hzero
  have hpos : (topPair power n cov t).2 ≠ 0 :=
    (lt_trans (by norm_num : (0 : ℝ) < 1 / (1000000000000 : ℕ)) hlarge).ne'
  have hflat : deflated power n cov (t + 1) = deflateFlat n (deflated power n cov t)
      (topPair power n cov t).1 (topPair power n cov t).2 := if_pos hlarge
  have hmat : matOf n (deflated power n cov (t + 1)) =
      deflate (matOf n (deflated power n cov t)) (found power n cov t) (topPair power n cov t).2 := by
    rw [hflat, matOf_deflateFlat]
    rfl
  have horthogonal : ∀ s < t, found power n cov t ⬝ᵥ found power n cov s = 0 := fun s hs =>
    hpair.orthogonal h.posSemidef.isHermitian hpos (h.kernel s hs)
  refine ⟨?_, ?_, ?_, ?_, ?_⟩
  · rw [hflat]
    exact length_tabulate ..
  · rw [hmat]
    exact hpair.posSemidef_deflate h.posSemidef
  · intro s hs
    rw [hmat]
    rcases Nat.lt_succ_iff_lt_or_eq.mp hs with hs | rfl
    · rw [deflate_mulVec_of_orthogonal (horthogonal s hs), h.kernel s hs]
    · exact hpair.deflate_mulVec_self
  · intro r hr s hs
    rcases Nat.lt_succ_iff_lt_or_eq.mp hr with hr | rfl
    · rcases Nat.lt_succ_iff_lt_or_eq.mp hs with hs | rfl
      · exact h.orthonormal r hr s hs
      · rw [dotProduct_comm, horthogonal r hr, if_neg hr.ne]
    · rcases Nat.lt_succ_iff_lt_or_eq.mp hs with hs | rfl
      · rw [horthogonal s hs, if_neg hs.ne']
      · rw [if_pos rfl]
        exact hpair.unit
  · intro x hx
    rw [hmat, deflate_mulVec_of_orthogonal (hx t t.lt_succ_self)]
    exact h.agrees x fun s hs => hx s (Nat.lt_succ_of_lt hs)

/-- As long as the zero branch is not taken. -/
theorem deflating (hlength : cov.length = n * n) (hcov : (matOf n cov).PosSemidef) {t : ℕ}
    (hexact : ∀ s < t, ExactOn power n (deflated power n cov s))
    (hzero : ∀ s < t, powerConverges (deflated power n cov s) n ≠ none) :
    Deflating power n cov t := by
  induction t with
  | zero => exact deflating_zero hlength hcov
  | succ t ih =>
    have hbefore := ih (fun s hs => hexact s (Nat.lt_succ_of_lt hs))
      (fun s hs => hzero s (Nat.lt_succ_of_lt hs))
    exact hbefore.succ (hexact t t.lt_succ_self) (hzero t t.lt_succ_self)

/-- After the zero branch the matrix stays, and so does the answer. -/
theorem topPair_of_none {s t : ℕ} (hst : s ≤ t)
    (hexact : ExactOn power n (deflated power n cov s))
    (hzero : powerConverges (deflated power n cov s) n = none) :
    deflated power n cov t = deflated power n cov s ∧ topPair power n cov t = (axis n, 0) := by
  have hsame : deflated power n cov t = deflated power n cov s := by
    induction t, hst using Nat.le_induction with
    | base => rfl
    | succ t _ ih =>
      rw [deflated, ih, hexact.zero hzero]
      exact if_neg (by norm_num)
  exact ⟨hsame, by rw [topPair, hsame, hexact.zero hzero]⟩

/-- The zero branch is taken for none of the components. -/
def NeverZero (power : List ℝ → ℕ → List ℝ × ℝ) (n : ℕ) (cov : List ℝ) (k : ℕ) : Prop :=
  ∀ t < k, powerConverges (deflated power n cov t) n ≠ none

variable {mean : List ℝ} {k : ℕ}

/-- Every vector found is of the dimension and of length one, so it becomes a component. -/
theorem component_pcaOfMoments (hn : 0 < n) (hmean : mean.length = n)
    (hexact : ∀ t < k, ExactOn power n (deflated power n cov t)) (ht : t < k) :
    (pcaOfMoments power mean cov n k).component t = (topPair power n cov t).1 := by
  have hlong : ∀ t < k, ¬dot (topPair power n cov t).1 (topPair power n cov t).1 <
      1 / (2 : ℕ) := by
    intro t ht
    have hunit := (hexact t ht).unit hn
    rw [topPair, dot_eq (hexact t ht).length_pair (hexact t ht).length_pair, hunit]
    norm_num
  subst hmean
  exact row_pcaOfMoments ht (fun t ht => (hexact t ht).length_pair) hlong

theorem orthonormal_iff_found (hn : 0 < n) (hmean : mean.length = n)
    (hexact : ∀ t < k, ExactOn power n (deflated power n cov t)) :
    (pcaOfMoments power mean cov n k).Orthonormal ↔ ∀ s < k, ∀ t < k,
      found power n cov s ⬝ᵥ found power n cov t = if s = t then 1 else 0 := by
  have hcomponent : ∀ t < k, (pcaOfMoments power mean cov n k).component t =
      (topPair power n cov t).1 := fun t ht => component_pcaOfMoments hn hmean hexact ht
  have hdot : ∀ s < k, ∀ t < k, dot ((pcaOfMoments power mean cov n k).component s)
      ((pcaOfMoments power mean cov n k).component t) =
        found power n cov s ⬝ᵥ found power n cov t := by
    intro s hs t ht
    rw [hcomponent s hs, hcomponent t ht]
    exact dot_eq (hexact s hs).length_pair (hexact t ht).length_pair
  constructor
  · intro h s hs t ht
    rw [← hdot s hs t ht]
    exact h.dot_component s hs t ht
  · intro h
    refine ⟨fun t ht => ?_, fun s hs t ht => ?_⟩
    · rw [hcomponent t ht]
      exact (hexact t ht).length_pair.trans hmean.symm
    · rw [hdot s hs t ht]
      exact h s hs t ht

/-- When the zero branch is taken and there are two components, two of them are not
orthogonal. -/
theorem not_orthonormal_of_none (hn : 0 < n) (hlength : cov.length = n * n)
    (hcov : (matOf n cov).PosSemidef)
    (hexact : ∀ t < k, ExactOn power n (deflated power n cov t)) (hk : 2 ≤ k)
    (h : ¬NeverZero power n cov k) :
    ¬∀ s < k, ∀ t < k,
      found power n cov s ⬝ᵥ found power n cov t = if s = t then 1 else 0 := by
  intro horthonormal
  have hsome : ∃ t, t < k ∧ powerConverges (deflated power n cov t) n = none := by
    unfold NeverZero at h
    push Not at h
    exact h
  classical
  obtain ⟨hlt, hnone⟩ := Nat.find_spec hsome
  set s := Nat.find hsome with hs
  have hbefore : ∀ r < s, powerConverges (deflated power n cov r) n ≠ none := fun r hr hr' =>
    Nat.find_min hsome hr ⟨lt_trans hr hlt, hr'⟩
  have hzero : ∀ t, s ≤ t → found power n cov t = vecOf n (axis n) := fun t ht =>
    congrArg (fun pair : List ℝ × ℝ => vecOf n pair.1) (topPair_of_none ht (hexact s hlt) hnone).2
  rcases Nat.lt_or_ge (s + 1) k with hnext | hlast
  · -- the same vector is found twice
    have hdot := horthonormal s hlt (s + 1) hnext
    rw [hzero s (Nat.le_refl s), hzero (s + 1) (Nat.le_succ s), axis_unit hn,
      if_neg (Nat.ne_of_lt s.lt_succ_self)] at hdot
    exact one_ne_zero hdot
  · -- the vector is orthogonal to those before, so it was sent to zero from the start
    have hstate := deflating hlength hcov (fun r hr => hexact r (lt_trans hr hlt)) hbefore
    have haxis : ∀ r < s, found power n cov r ⬝ᵥ vecOf n (axis n) = 0 := by
      intro r hr
      have hdot := horthonormal r (lt_trans hr hlt) s hlt
      rwa [hzero s (Nat.le_refl s), if_neg hr.ne] at hdot
    have himage := hstate.agrees (vecOf n (axis n)) haxis
    have hshort := (powerConverges_eq_none_iff hn hstate.length_eq hstate.posSemidef).mp hnone
    have hfirst : columnNorm n cov = columnNorm n (deflated power n cov s) := by
      rw [columnNorm, columnNorm, dot_eq (length_matVec ..) (length_matVec ..),
        dot_eq (length_matVec ..) (length_matVec ..), vecOf_matVec hlength (length_axis n),
        vecOf_matVec hstate.length_eq (length_axis n), himage]
    rw [← hfirst] at hshort
    exact hbefore 0 (by omega) (powerConverges_of_lt hshort)

/-- A fit of at least two components gives orthonormal ones, and scores the squared length of
the residual for every row, exactly when no power iteration takes its zero branch. -/
theorem pca_orthonormal_iff {samples : List (Embedding ℝ)} {s : CollectedSamples ℝ}
    {params : PcaParams ℝ} (hs : collectSamples samples = some (.ok s))
    (hfit : fitPca power samples k = some (.ok params))
    (hexact : ∀ t < k, ExactOn power s.inputDim
      (deflated power s.inputDim (batchMoments s.rows s.inputDim).2 t)) :
    ((∀ t < k, (params.component t).length = s.inputDim) ∧
        (∀ r < k, ∀ t < k, dot (params.component r) (params.component t) =
          if r = t then 1 else 0) ∧
        ∀ (data : List ℝ) (rows dropK : ℕ), rows * s.inputDim ≤ data.length → dropK < k →
          params.score data rows .reconstruction dropK =
            (Rows.rows s.inputDim rows data).map fun x =>
              dot (List.zipWith (· - ·) x (params.reconstruct dropK x))
                (List.zipWith (· - ·) x (params.reconstruct dropK x))) ↔
      k ≤ 1 ∨ NeverZero power s.inputDim (batchMoments s.rows s.inputDim).2 k := by
  obtain ⟨s', hs', -, rfl⟩ := fitPca_eq_ok hfit
  obtain rfl : s = s' := Except.ok.inj (Option.some.inj (hs.symm.trans hs'))
  have hn := (collectSamples_pos hs).1
  have hmean : (batchMoments s.rows s.inputDim).1.length = s.inputDim := by
    simp [batchMoments, computeMean]
  have hlength := length_batchMoments s.rows s.inputDim
  have hcov : (matOf s.inputDim (batchMoments s.rows s.inputDim).2).PosSemidef :=
    posSemidef_batchMoments _
  have hiff := orthonormal_iff_found hn hmean hexact
  constructor
  · rintro ⟨hcomponents, hdots, -⟩
    by_contra hnot
    obtain ⟨hk, hzero⟩ := not_or.mp hnot
    refine not_orthonormal_of_none hn hlength hcov hexact (by omega) hzero (hiff.mp ⟨?_, hdots⟩)
    exact fun t ht => (hcomponents t ht).trans hmean.symm
  · intro hcondition
    have horthonormal : (pcaOfMoments power (batchMoments s.rows s.inputDim).1
        (batchMoments s.rows s.inputDim).2 s.inputDim k).Orthonormal := by
      refine hiff.mpr fun r hr t ht => ?_
      rcases hcondition with hk | hzero
      · obtain rfl : r = 0 := by omega
        obtain rfl : t = 0 := by omega
        rw [if_pos rfl]
        exact (hexact 0 ht).unit hn
      · exact (deflating hlength hcov hexact hzero).orthonormal r hr t ht
    refine ⟨fun t ht => (horthonormal.length_component t ht).trans hmean,
      horthonormal.dot_component, fun data rows dropK hdata hdrop => ?_⟩
    rw [PcaParams.score]
    refine (congrArg (fun d => (Rows.rows d rows data).map _) hmean).trans
      (List.map_congr_left fun x hx => ?_)
    exact horthonormal.rowScore ((Rows.length_of_mem_rows hdata hx).trans hmean.symm) hdrop

end Fit

/-! ### Two fits -/

theorem lineSample_moments : batchMoments (Rows.rows 1 2 [0, 2]) 1 = ([(1 : ℝ)], [(1 : ℝ)]) := by
  simp [batchMoments, computeMean, computeCovariance, centerData, tabulate, Rows.rows, Rows.row,
    accumulate, List.range_succ]
  norm_num

theorem powerConverges_line : powerConverges [(1 : ℝ)] 1 = some ([1], 1) := by
  have himage : matVec 1 [(1 : ℝ)] [1] = [1] := by
    simp [matVec, Rows.row, dot, accumulate, List.range_succ]
  have hroot : (FloatMath.sqrt (dot [(1 : ℝ)] [1]) : ℝ) = 1 := by
    simp [dot, accumulate, FloatMath.sqrt]
  have hlarge : ¬(1 : ℝ) < powerTolerance := by
    rw [powerTolerance]
    norm_num
  have hquotient : ¬dot [(1 : ℝ)] [1] < 0 := by
    simp [dot, accumulate]
  rw [powerConverges, show (axis 1 : List ℝ) = [1] from rfl, powerTurns, himage]
  dsimp only
  have hclose : dot (List.zipWith (· - ·) ([(1 : ℝ)].map (· / 1)) [1])
      (List.zipWith (· - ·) ([(1 : ℝ)].map (· / 1)) [1]) < powerTolerance := by
    simpa [dot, accumulate] using powerTolerance_pos
  rw [hroot, if_neg hlarge, if_neg hquotient, if_pos (.inl hclose)]
  simp [dot, accumulate]

theorem exactOn_line : ExactOn powerIteration 1 [(1 : ℝ)] := by
  have hpair : powerIteration [(1 : ℝ)] 1 = ([1], 1) := by
    rw [powerIteration, powerConverges_line, Option.getD_some]
  have hvec : vecOf 1 [(1 : ℝ)] = fun _ => 1 := by
    funext i
    simp [vecOf, Fin.fin_one_eq_zero i]
  have himage : matOf 1 [(1 : ℝ)] *ᵥ vecOf 1 [1] = vecOf 1 [1] := by
    funext i
    simp [mulVec, dotProduct, matOf, vecOf, Fin.fin_one_eq_zero i]
  have hunit : vecOf 1 [(1 : ℝ)] ⬝ᵥ vecOf 1 [1] = 1 := by
    rw [hvec]
    simp [dotProduct]
  refine ⟨fun h => ?_, fun _ => ?_, fun _ => ?_, fun _ => ?_⟩
  · rw [powerConverges_line] at h
    cases h
  · rw [hpair]
    rfl
  · rw [hpair]
    exact ⟨hunit, by rw [himage, one_smul]⟩
  · rw [hpair, himage, hunit, powerTolerance]
    norm_num

theorem pca_orthonormal_iff_line :
    ((∀ t < 1, (lineModel.component t).length = 1) ∧
        (∀ r < 1, ∀ t < 1, dot (lineModel.component r) (lineModel.component t) =
          if r = t then 1 else 0) ∧
        ∀ (data : List ℝ) (rows dropK : ℕ), rows * 1 ≤ data.length → dropK < 1 →
          lineModel.score data rows .reconstruction dropK =
            (Rows.rows 1 rows data).map fun x =>
              dot (List.zipWith (· - ·) x (lineModel.reconstruct dropK x))
                (List.zipWith (· - ·) x (lineModel.reconstruct dropK x))) ↔
      1 ≤ 1 ∨ NeverZero powerIteration 1 (batchMoments (Rows.rows 1 2 [0, 2]) 1).2 1 :=
  pca_orthonormal_iff collectSamples_line fitPca_line (by
    intro t ht
    obtain rfl : t = 0 := by omega
    change ExactOn powerIteration 1 (batchMoments (Rows.rows 1 2 [0, 2]) 1).2
    rw [lineSample_moments]
    exact exactOn_line)

/-- The model of two components that is fitted to `splitSample`. -/
def splitModel : PcaParams ℝ := ⟨[1, 0, 1, 0], 2, [0, 0], [0, 0]⟩

theorem fitPca_split : fitPca powerIteration [splitSample] 2 = some (.ok splitModel) := by
  have hmean : (batchMoments (Rows.rows 2 2 [0, -1, 0, 1]) 2).1 = [(0 : ℝ), 0] := by
    simp [batchMoments, computeMean, Rows.rows, Rows.row, accumulate, List.range_succ]
  have htop : computeTopEigen powerIteration [(0 : ℝ), 0, 0, 1] 2 2 =
      ⟨[0, 0, 0, 1], [1, 0, 1, 0], [0, 0]⟩ := by
    have hsmall : ¬(1 / (1000000000000 : ℕ) : ℝ) < 0 := by norm_num
    simp only [computeTopEigen, List.range_succ, List.range_zero, List.nil_append,
      List.cons_append, List.foldl_cons, List.foldl_nil, TopEigen.next, powerIteration_split,
      if_neg hsmall]
    rfl
  change some (Except.ok (pcaOfMoments powerIteration (batchMoments (Rows.rows 2 2 [0, -1, 0, 1]) 2).1
    (batchMoments (Rows.rows 2 2 [0, -1, 0, 1]) 2).2 2 2)) = _
  rw [hmean, splitSample_covariance, pcaOfMoments, htop]
  have hlong : ¬dot [(1 : ℝ), 0] [1, 0] < 2⁻¹ := by
    norm_num [dot, accumulate]
  simp [fixDegenerateComponents, Rows.row, List.range_succ, hlong, splitModel]

/-- Variance along the second axis only: both components are along the first, and a row on it
scores nothing though its residual has length one. -/
theorem pca_not_orthonormal :
    fitPca powerIteration [splitSample] 2 = some (.ok splitModel) ∧
      (∀ t < 2, ExactOn powerIteration 2 (deflated powerIteration 2
        (batchMoments (Rows.rows 2 2 [0, -1, 0, 1]) 2).2 t)) ∧
      dot (splitModel.component 0) (splitModel.component 1) = 1 ∧
      splitModel.score [1, 0] 1 .reconstruction 0 = [0] ∧
      dot (List.zipWith (· - ·) [1, 0] (splitModel.reconstruct 0 [1, 0]))
        (List.zipWith (· - ·) [1, 0] (splitModel.reconstruct 0 [1, 0])) = 1 := by
  have hzero : powerConverges [(0 : ℝ), 0, 0, 1] 2 = none := powerConverges_of_lt columnNorm_split
  have hexact : ExactOn powerIteration 2 [(0 : ℝ), 0, 0, 1] :=
    ⟨fun _ => powerIteration_split, fun h => absurd hzero h, fun h => absurd hzero h,
      fun h => absurd hzero h⟩
  refine ⟨fitPca_split, fun t _ => ?_, ?_, ?_, ?_⟩
  · rw [splitSample_covariance, (topPair_of_none (Nat.zero_le t) hexact hzero).1]
    exact hexact
  · simp [splitModel, PcaParams.component, PcaParams.inputDim, Rows.row, dot, accumulate]
  · simp [splitModel, PcaParams.score, PcaParams.rowScore, PcaParams.reconstructionScore,
      PcaParams.keptCoordinates, PcaParams.coordinate, PcaParams.component, PcaParams.inputDim,
      Rows.rows, Rows.row, dot, accumulate, List.range_succ, stdMax]
  · simp [splitModel, PcaParams.reconstruct, PcaParams.reconstructEntry, PcaParams.coordinate,
      PcaParams.component, PcaParams.inputDim, Rows.row, dot, accumulate, List.range_succ]

end SurfaceAi.Embeddings
