import SurfaceAi.Detection.Initialize
import SurfaceAi.Embedding.PcaOrthonormal
import SurfaceAi.Library.Covariance
import Mathlib.Tactic.FinCases

/-! Whitening of a detector's bank. The fit is asked for as many components as there are
dimensions and the dropped ones on top, which is more than it ever gives; when nothing is
dropped, and the eigenvectors are exact, the whitened bank has a diagonal covariance. -/

namespace SurfaceAi.Detection

open Embeddings FlatMatrix Matrix

/-- The bank's vectors as the samples of a fit. -/
def bankSamples {F : Type*} (dim : ℕ) (rows : List (List F)) : List (Embedding F) :=
  rows.map fun v => .fromCpu v ⟨dim, 1, 1, 1⟩

section Collected

variable {F : Type*} {dim : ℕ} {rows : List (List F)}

theorem checkSamples_bank (rows : List (List F)) : checkSamples dim (bankSamples dim rows) = .ok () := by
  induction rows with
  | nil => rfl
  | cons v rows ih =>
    rw [bankSamples, List.map_cons, checkSamples, if_neg (by simp [Embedding.fromCpu]),
      if_neg (by simp [Embedding.fromCpu])]
    exact ih

theorem countSamples_bank (hdim : 0 < dim) (rows : List (List F)) :
    countSamples (bankSamples dim rows) = rows.length := by
  have hone : ∀ v : List F, (if 0 < (Embedding.fromCpu v ⟨dim, 1, 1, 1⟩).embeddingMeta.dim ∧
      0 < (Embedding.fromCpu v ⟨dim, 1, 1, 1⟩).embeddingMeta.count then
      (Embedding.fromCpu v ⟨dim, 1, 1, 1⟩).embeddingMeta.count else 0) = 1 :=
    fun v => if_pos ⟨hdim, Nat.one_pos⟩
  rw [countSamples, bankSamples, List.map_map]
  simp only [Function.comp_def, hone]
  simp

theorem copySamples_bank (h : ∀ v ∈ rows, v.length = dim) :
    (bankSamples dim rows).mapM (copySample dim) = some rows := by
  induction rows with
  | nil => rfl
  | cons v rows ih =>
    have hv := h v List.mem_cons_self
    have hcopy : copySample dim (Embedding.fromCpu v ⟨dim, 1, 1, 1⟩) = some v := by
      rw [copySample]
      simp [Embedding.fromCpu, hv, List.take_of_length_le hv.le]
    have hrest := ih fun x hx => h x (List.mem_cons_of_mem v hx)
    rw [bankSamples, List.map_cons, List.mapM_cons, hcopy, ← bankSamples, hrest]
    rfl

theorem collectSamples_bank (hdim : 0 < dim) (h : ∀ v ∈ rows, v.length = dim) (hsome : rows ≠ []) :
    collectSamples (bankSamples dim rows) = some (.ok ⟨rows.flatten, dim, rows.length⟩) := by
  obtain ⟨v, rest, rfl⟩ := List.exists_cons_of_ne_nil hsome
  unfold collectSamples
  split
  next hnil => cases hnil
  next first tail hcons =>
    obtain ⟨rfl, -⟩ := List.cons.inj hcons
    dsimp only [Embedding.fromCpu]
    rw [checkSamples_bank, countSamples_bank hdim, copySamples_bank h]
    exact if_neg (by simp; omega)

end Collected

/-! ### The fit -/

/-- An orthonormal basis of eigenvectors, the largest eigenvalue first. -/
structure ExactBasis (n : ℕ) (cov : List ℝ) (top : TopEigen ℝ) : Prop where
  length_eigenvectors : top.eigenvectors.length = n * n
  length_eigenvalues : top.eigenvalues.length = n
  orthonormal : ∀ s t : Fin n, matOf n top.eigenvectors s ⬝ᵥ matOf n top.eigenvectors t =
    if s = t then 1 else 0
  eigen : ∀ t : Fin n, matOf n cov *ᵥ matOf n top.eigenvectors t =
    top.eigenvalues.getD t 0 • matOf n top.eigenvectors t
  descending : ∀ s t : Fin n, s ≤ t → top.eigenvalues.getD t 0 ≤ top.eigenvalues.getD s 0

namespace ExactBasis

variable {n : ℕ} {cov : List ℝ} {top : TopEigen ℝ}

theorem eigenvalue_nonneg (h : ExactBasis n cov top) (hcov : (matOf n cov).PosSemidef)
    (t : Fin n) : 0 ≤ top.eigenvalues.getD t 0 :=
  Deflation.Eigenpair.nonneg ⟨by rw [h.orthonormal, if_pos rfl], h.eigen t⟩ hcov

/-- Components of length one are not replaced. -/
theorem fixDegenerateComponents_eq (h : ExactBasis n cov top) :
    fixDegenerateComponents top.eigenvectors top.eigenvalues n n = top.eigenvectors := by
  have hrow : ∀ t < n, (Rows.row n t top.eigenvectors).length = n := by
    intro t ht
    exact Rows.length_row (h.length_eigenvectors ▸ Nat.mul_le_mul_right n ht)
  have hkept : fixDegenerateComponents top.eigenvectors top.eigenvalues n n =
      (Rows.rows n n top.eigenvectors).flatten := by
    rw [fixDegenerateComponents, List.flatMap_def]
    refine congrArg List.flatten (List.map_congr_left fun t ht => if_neg fun hshort => ?_)
    have ht := List.mem_range.mp ht
    have hunit : dot (Rows.row n t top.eigenvectors) (Rows.row n t top.eigenvectors) = 1 := by
      rw [dot_eq (hrow t ht) (hrow t ht)]
      change vecOf n (Rows.row n (⟨t, ht⟩ : Fin n) top.eigenvectors) ⬝ᵥ
        vecOf n (Rows.row n (⟨t, ht⟩ : Fin n) top.eigenvectors) = 1
      rw [vecOf_row, h.orthonormal, if_pos rfl]
    have := hshort.2
    rw [hunit] at this
    norm_num at this
  rw [hkept, Rows.flatten_rows h.length_eigenvectors]

end ExactBasis

/-- The covariance that the fit computes is that of the vectors. -/
theorem matOf_batchMoments {n : ℕ} {rows : List (List ℝ)} (h : ∀ x ∈ rows, x.length = n) :
    matOf n (batchMoments rows n).2 = Covariance.covariance (rows.map (vecOf n)) := by
  have hmean : vecOf n (computeMean rows n) = Covariance.mean (rows.map (vecOf n)) := by
    have hsum : ∀ (l : List (List ℝ)) (j : Fin n),
        (l.map (vecOf n)).sum j = (l.map fun x => x.getD j 0).sum := by
      intro l j
      induction l with
      | nil => rfl
      | cons x l ih =>
        rw [List.map_cons, List.sum_cons, Pi.add_apply, ih, List.map_cons, List.sum_cons]
        rfl
    funext j
    rw [computeMean, vecOf_map_range, Covariance.mean, Pi.smul_apply, hsum, List.length_map]
    dsimp only
    rw [accumulate_eq_sum, smul_eq_mul, mul_comm]
  have hcentre : ∀ x ∈ rows, vecOf n (List.zipWith (· - ·) x (computeMean rows n)) =
      vecOf n x - Covariance.mean (rows.map (vecOf n)) := by
    intro x hx
    rw [PcaParams.vecOf_sub (h x hx) (by simp [computeMean]), hmean]
  rw [batchMoments, matOf_computeCovariance, Covariance.covariance, centerData, List.map_map,
    List.map_map, List.length_map, List.length_map]
  refine congrArg (_ • ·) (congrArg List.sum (List.map_congr_left fun x hx => ?_))
  rw [Function.comp_apply, Function.comp_apply, hcentre x hx]

section Fit

variable {power : List ℝ → ℕ → List ℝ × ℝ} {dim k : ℕ} {rows : List (List ℝ)}

/-- A fit of a bank asks for no more components than dimensions. -/
theorem fitPca_bank (hdim : 0 < dim) (h : ∀ v ∈ rows, v.length = dim) (hsome : rows ≠ []) :
    fitPca power (bankSamples dim rows) k = some (if dim < k then
      fail .embeddingDimensionMismatch ("DimensionReducer::FitPca: target_dim (" ++
        toString k ++ ") > input_dim (" ++ toString dim ++ ")")
      else .ok (pcaOfMoments power (batchMoments rows dim).1 (batchMoments rows dim).2 dim k)) := by
  rw [fitPca, collectSamples_bank hdim h hsome, Option.map_some]
  refine congrArg some ?_
  change (if dim < k then _ else _) = _
  rw [Rows.rows_flatten h]
  rfl

/-- The fit that the detector is given is `FitPca`, with some way to find an eigenpair. -/
def FitsWith (power : List ℝ → ℕ → List ℝ × ℝ) (dim : ℕ)
    (fit : List (List ℝ) → ℕ → Result (PcaParams ℝ)) : Prop :=
  ∀ rows k, (∀ v ∈ rows, v.length = dim) → fitPca power (bankSamples dim rows) k = some (fit rows k)

/-- `FitPca` of a bank. -/
noncomputable def fitBank (power : List ℝ → ℕ → List ℝ × ℝ) (dim : ℕ) (rows : List (List ℝ))
    (k : ℕ) : Result (PcaParams ℝ) :=
  (fitPca power (bankSamples dim rows) k).getD (fail .embeddingDimensionMismatch "")

theorem fitsWith_fitBank (hdim : 0 < dim) : FitsWith power dim (fitBank power dim) := by
  intro rows k h
  rcases eq_or_ne rows [] with rfl | hsome
  · rfl
  · rw [fitBank, fitPca_bank hdim h hsome, Option.getD_some]

/-- The eigenvectors that the fit of a bank is made from. -/
noncomputable def bankBasis (power : List ℝ → ℕ → List ℝ × ℝ) (bank : FeatureBank ℝ) : TopEigen ℝ :=
  computeTopEigen power (batchMoments bank.vectors bank.dim).2 bank.dim bank.dim

theorem pcaOfMoments_bank {bank : FeatureBank ℝ} {mean : List ℝ}
    (h : ExactBasis bank.dim (batchMoments bank.vectors bank.dim).2 (bankBasis power bank)) :
    pcaOfMoments power mean (batchMoments bank.vectors bank.dim).2 bank.dim bank.dim =
      ⟨(bankBasis power bank).eigenvectors, bank.dim, mean, (bankBasis power bank).eigenvalues⟩ := by
  rw [pcaOfMoments, ← bankBasis, h.fixDegenerateComponents_eq]

end Fit

/-! ### The whitened bank -/

namespace PatchCore

section Whitened

variable {core : PatchCore ℝ} {bank : FeatureBank ℝ} {power : List ℝ → ℕ → List ℝ × ℝ}
  {pca : PcaParams ℝ} {n : ℕ}

theorem vecOf_whiten {wp : WhiteningParams ℝ} {x : List ℝ} (hwp : wp.targetDim = n)
    (htransform : wp.transform.length = n * n) (hx : x.length = n) :
    vecOf n (whiten wp n x) = matOf n wp.transform *ᵥ vecOf n x := by
  rw [← vecOf_matVec htransform hx, whiten, hwp]
  rfl

/-- The factor of a component of the transform. -/
noncomputable def scaleOf (lambda : ℝ) : ℝ := 1 / FloatMath.sqrt (lambda + 1 / (1000000 : ℕ))

theorem scaleOf_sq {lambda : ℝ} (h : 0 ≤ lambda) :
    scaleOf lambda * scaleOf lambda * lambda = lambda / (lambda + 1 / (1000000 : ℕ)) := by
  have hpos : 0 < lambda + 1 / ((1000000 : ℕ) : ℝ) := by positivity
  have hroot : (FloatMath.sqrt (lambda + 1 / ((1000000 : ℕ) : ℝ)) : ℝ) *
      FloatMath.sqrt (lambda + 1 / ((1000000 : ℕ) : ℝ)) = lambda + 1 / ((1000000 : ℕ) : ℝ) :=
    Real.mul_self_sqrt hpos.le
  rw [scaleOf, div_mul_div_comm, one_mul, hroot, div_mul_eq_mul_div, one_mul]

theorem length_transform (core : PatchCore ℝ) (pca : PcaParams ℝ) :
    (core.whiteningOf pca).transform.length = core.cfg.embedDim * core.cfg.embedDim :=
  length_tabulate ..

/-- Row `t` of the transform is component `drop_k + t`, scaled. -/
theorem matOf_transform (hn : core.cfg.embedDim = n) (hdrop : core.cfg.dropK = 0) (t : Fin n) :
    matOf n (core.whiteningOf pca).transform t =
      scaleOf (pca.eigvals.getD t 0) • matOf n pca.components t := by
  subst hn
  have htable : (core.whiteningOf pca).transform = tabulate core.cfg.embedDim fun t j =>
      pca.components.getD ((core.cfg.dropK + t) * core.cfg.embedDim + j) 0 *
        scaleOf (pca.eigvals.getD (core.cfg.dropK + t) 0) := rfl
  funext j
  rw [htable, matOf_tabulate, Pi.smul_apply, smul_eq_mul, mul_comm, hdrop]
  dsimp only
  rw [Nat.zero_add]
  rfl

/-- Whitening by the exact basis makes the covariance of the bank diagonal. -/
theorem covariance_whitened (hdim : bank.dim = n) (hn : core.cfg.embedDim = n)
    (hdrop : core.cfg.dropK = 0) {mean : List ℝ}
    (h : ExactBasis bank.dim (batchMoments bank.vectors bank.dim).2 (bankBasis power bank))
    (hpca : pca = ⟨(bankBasis power bank).eigenvectors, bank.dim, mean,
      (bankBasis power bank).eigenvalues⟩) :
    matOf n (batchMoments (bank.vectors.map (whiten (core.whiteningOf pca) n)) n).2 =
      diagonal fun t : Fin n =>
        pca.eigvals.getD t 0 / (pca.eigvals.getD t 0 + 1 / (1000000 : ℕ)) := by
  subst hdim
  have htransform : (core.whiteningOf pca).transform.length = bank.dim * bank.dim := by
    rw [length_transform, hn]
  have hlength : ∀ x ∈ bank.vectors.map (whiten (core.whiteningOf pca) bank.dim),
      x.length = bank.dim := by
    intro x hx
    obtain ⟨v, -, rfl⟩ := List.mem_map.mp hx
    rw [whiten, List.length_map, List.length_range]
    exact hn
  have hvectors : (bank.vectors.map (whiten (core.whiteningOf pca) bank.dim)).map (vecOf bank.dim) =
      (bank.vectors.map (vecOf bank.dim)).map
        (matOf bank.dim (core.whiteningOf pca).transform *ᵥ ·) := by
    rw [List.map_map, List.map_map]
    exact List.map_congr_left fun v hv => vecOf_whiten hn htransform (bank.length_vectors v hv)
  have hrow : ∀ t : Fin bank.dim, matOf bank.dim (core.whiteningOf pca).transform t =
      scaleOf (pca.eigvals.getD t 0) • matOf bank.dim pca.components t :=
    matOf_transform hn hdrop
  have horthonormal : ∀ s t : Fin bank.dim,
      matOf bank.dim pca.components s ⬝ᵥ matOf bank.dim pca.components t =
        if s = t then 1 else 0 := by
    rw [hpca]
    exact h.orthonormal
  have heigen : ∀ t : Fin bank.dim,
      matOf bank.dim (batchMoments bank.vectors bank.dim).2 *ᵥ matOf bank.dim pca.components t =
        pca.eigvals.getD t 0 • matOf bank.dim pca.components t := by
    rw [hpca]
    exact h.eigen
  rw [matOf_batchMoments hlength, hvectors, Covariance.covariance_map,
    ← matOf_batchMoments bank.length_vectors,
    Covariance.conjugate_eq_diagonal hrow horthonormal heigen]
  refine congrArg diagonal (funext fun t => ?_)
  rw [hpca]
  exact scaleOf_sq (h.eigenvalue_nonneg (posSemidef_batchMoments _) t)

end Whitened

/-! ### Initialisation with whitening -/

section Initialise

variable {icfg : InitializeConfig ℝ} {inputs : InitializeInputs ℝ} {engine : NearestSearch ℝ}
  {core core₁ core' : PatchCore ℝ} {bank : FeatureBank ℝ} {power : List ℝ → ℕ → List ℝ × ℝ}

/-- What whitening does when it succeeds: the components it reads are there, and the covariance
of the new bank is diagonal. -/
structure Whitens (core core' : PatchCore ℝ) (pca : PcaParams ℝ) : Prop where
  params : core'.whiteningParams = some (core.whiteningOf pca)
  eigvals_inside : ∀ t < (core.whiteningOf pca).targetDim, core.cfg.dropK + t < pca.eigvals.length
  components_inside : ∀ t < (core.whiteningOf pca).targetDim, ∀ j < core.cfg.embedDim,
    (core.cfg.dropK + t) * core.cfg.embedDim + j < pca.components.length
  covariance : ∃ bank', core'.featureBank = some bank' ∧
    bank'.dim = (core.whiteningOf pca).targetDim ∧
    matOf bank'.dim (batchMoments bank'.vectors bank'.dim).2 = diagonal fun t : Fin bank'.dim =>
      pca.eigvals.getD (core.cfg.dropK + t) 0 /
        (pca.eigvals.getD (core.cfg.dropK + t) 0 + 1 / (1000000 : ℕ))

theorem whitenBank_eq (inputs : InitializeInputs ℝ) (hwhiten : icfg.enableWhitening = true)
    (hbank : core.featureBank = some bank)
    (hdim : bank.dim = core.cfg.embedDim) :
    core.whitenBank icfg inputs =
      match inputs.fitPca bank.vectors (core.cfg.embedDim + core.cfg.dropK) with
      | .error e => some (.error e, core)
      | .ok pca => some (.ok (), { core with
          featureBank := some (core.whitenedBank (core.whiteningOf pca) bank.vectors)
          whiteningParams := some (core.whiteningOf pca) }) := by
  unfold whitenBank
  rw [hbank]
  dsimp only
  rw [if_neg (not_not.mpr hwhiten), if_neg (by rw [hdim]; exact lt_irrefl _), ← hdim,
    bank.rows_extractAllVectors]
  cases inputs.fitPca bank.vectors (bank.dim + core.cfg.dropK) <;> rfl

/-- With a bank the threshold is set, and neither the bank nor its whitening changes. -/
theorem setThreshold_eq_ok (icfg : InitializeConfig ℝ) (engine : NearestSearch ℝ)
    (hbank : core.featureBank = some bank) :
    ∃ core', core.setThreshold icfg engine = some (.ok (), core') ∧
      core'.featureBank = core.featureBank ∧ core'.whiteningParams = core.whiteningParams := by
  unfold setThreshold
  split_ifs
  · rw [hbank]
    exact ⟨_, rfl, hbank.symm ▸ rfl, rfl⟩
  · exact ⟨_, rfl, rfl, rfl⟩

theorem loadPca_eq_ok (core : PatchCore ℝ) (h : ∀ e, inputs.pcaFile ≠ some (.error e)) :
    ∃ core', core.loadPca inputs = some (.ok (), core') ∧
      core'.featureBank = core.featureBank ∧ core'.whiteningParams = core.whiteningParams := by
  unfold loadPca
  split
  · exact ⟨_, rfl, rfl, rfl⟩
  · next e he => exact absurd he (h e)
  · exact ⟨_, rfl, rfl, rfl⟩

/-- Behind the bank, the initialisation goes as whitening goes. -/
theorem initializeDetector_of_whitenBank (engine : NearestSearch ℝ)
    (hload : core.loadBank inputs = some (.ok (), core₁))
    (hpca : ∀ e, inputs.pcaFile ≠ some (.error e))
    (hwhitened : core₁.whitenBank icfg inputs = some (.ok (), core'))
    (hbank : core'.featureBank = some bank) :
    ∃ core'', core.initializeDetector icfg inputs engine = some (.ok (), core'') ∧
      core''.featureBank = core'.featureBank ∧ core''.whiteningParams = core'.whiteningParams := by
  obtain ⟨core₃, hset, hbank₃, hwp₃⟩ := setThreshold_eq_ok icfg engine hbank
  obtain ⟨core₄, hfile, hbank₄, hwp₄⟩ := loadPca_eq_ok core₃ hpca
  refine ⟨core₄, ?_, hbank₄.trans hbank₃, hwp₄.trans hwp₃⟩
  rw [initializeDetector, hload]
  change andThen (andThen (core₁.whitenBank icfg inputs) _) _ = _
  rw [hwhitened]
  change andThen (core'.setThreshold icfg engine) _ = _
  rw [hset]
  exact hfile

theorem initializeDetector_of_error {e : ErrorInfo}
    (hload : core.loadBank inputs = some (.ok (), core₁))
    (herror : core₁.whitenBank icfg inputs = some (.error e, core')) :
    core.initializeDetector icfg inputs engine = some (.error e, core') := by
  rw [initializeDetector, hload]
  change andThen (andThen (core₁.whitenBank icfg inputs) _) _ = _
  rw [herror]
  rfl

/-- A dropped component is one more than the fit gives. -/
theorem initializeDetector_of_dropped (engine : NearestSearch ℝ)
    (hwhiten : icfg.enableWhitening = true)
    (hload : core.loadBank inputs = some (.ok (), core₁)) (hbank : core₁.featureBank = some bank)
    (hdim : bank.dim = core.cfg.embedDim) (hpos : 0 < bank.dim) (hsome : bank.vectors ≠ [])
    (hfit : FitsWith power core.cfg.embedDim inputs.fitPca) (hdrop : 0 < core.cfg.dropK) :
    ∃ e, core.initializeDetector icfg inputs engine = some (.error e, core₁) := by
  have hcfg : core₁.cfg = core.cfg := (keeps_loadBank hload).cfg
  have hfitted := hfit bank.vectors (core.cfg.embedDim + core.cfg.dropK)
    (hdim ▸ bank.length_vectors)
  rw [← hdim, fitPca_bank hpos bank.length_vectors hsome, Option.some_inj, if_pos (by omega), hdim]
    at hfitted
  obtain ⟨e, he⟩ : ∃ e, inputs.fitPca bank.vectors (core.cfg.embedDim + core.cfg.dropK) =
      .error e := ⟨_, hfitted.symm⟩
  refine ⟨e, initializeDetector_of_error hload ?_⟩
  rw [whitenBank_eq inputs hwhiten hbank (hdim.trans (by rw [hcfg])), hcfg, he]

/-- With exact eigenvectors, whitening a bank of the detector's dimension works exactly when no
component is dropped. -/
theorem whitening_works_iff (hwhiten : icfg.enableWhitening = true)
    (hload : core.loadBank inputs = some (.ok (), core₁)) (hbank : core₁.featureBank = some bank)
    (hdim : bank.dim = core.cfg.embedDim) (hsome : bank.vectors ≠ [])
    (hdrop : core.cfg.dropK < core.cfg.embedDim)
    (hfit : FitsWith power core.cfg.embedDim inputs.fitPca)
    (hexact : ExactBasis bank.dim (batchMoments bank.vectors bank.dim).2 (bankBasis power bank))
    (hpca : ∀ e, inputs.pcaFile ≠ some (.error e)) :
    (∃ core' pca, core.initializeDetector icfg inputs engine = some (.ok (), core') ∧
      inputs.fitPca bank.vectors (core.cfg.embedDim + core.cfg.dropK) = .ok pca ∧
      Whitens core core' pca) ↔ core.cfg.dropK = 0 := by
  have hpos : 0 < bank.dim := by omega
  constructor
  · rintro ⟨core', pca, hinit, -, -⟩
    by_contra hne
    obtain ⟨e, herror⟩ := initializeDetector_of_dropped engine hwhiten hload hbank hdim hpos
      hsome hfit (Nat.pos_of_ne_zero hne)
    rw [herror] at hinit
    cases (Prod.mk.inj (Option.some.inj hinit)).1
  · intro hzero
    have hcfg : core₁.cfg = core.cfg := (keeps_loadBank hload).cfg
    have hdim₁ : bank.dim = core₁.cfg.embedDim := by rw [hdim, hcfg]
    obtain ⟨pca, hpcaEq⟩ : ∃ pca : PcaParams ℝ, pca = ⟨(bankBasis power bank).eigenvectors,
        bank.dim, (batchMoments bank.vectors bank.dim).1, (bankBasis power bank).eigenvalues⟩ :=
      ⟨_, rfl⟩
    have hfitted : inputs.fitPca bank.vectors (core.cfg.embedDim + core.cfg.dropK) = .ok pca := by
      have h := hfit bank.vectors (core.cfg.embedDim + core.cfg.dropK) (hdim ▸ bank.length_vectors)
      rw [← hdim, fitPca_bank hpos bank.length_vectors hsome, Option.some_inj, hzero, Nat.add_zero,
        if_neg (lt_irrefl _), pcaOfMoments_bank hexact] at h
      rw [hzero, Nat.add_zero, ← hdim, ← h, hpcaEq]
    have hparams : core₁.whiteningOf pca = core.whiteningOf pca := by
      rw [whiteningOf, whiteningOf, hcfg]
    have hwhitened := whitenBank_eq inputs hwhiten hbank hdim₁
    rw [hcfg, hfitted] at hwhitened
    obtain ⟨core', hinit, hbank', hwp'⟩ :=
      initializeDetector_of_whitenBank engine hload hpca hwhitened rfl
    refine ⟨core', pca, hinit, hfitted, hwp'.trans (congrArg some hparams), ?_, ?_, _, hbank',
      congrArg WhiteningParams.targetDim hparams, ?_⟩
    · intro t ht
      rw [hzero, Nat.zero_add, hpcaEq, hexact.length_eigenvalues, hdim]
      exact ht
    · intro t ht j hj
      rw [hzero, Nat.zero_add, hpcaEq, hexact.length_eigenvectors, hdim]
      calc t * core.cfg.embedDim + j < (t + 1) * core.cfg.embedDim := by
            rw [Nat.succ_mul]
            exact Nat.add_lt_add_left hj _
        _ ≤ core.cfg.embedDim * core.cfg.embedDim := Nat.mul_le_mul_right _ ht
    · simp only [hzero, Nat.zero_add]
      exact covariance_whitened hdim₁ rfl (by rw [hcfg, hzero]) hexact hpcaEq

end Initialise

/-! ### Two banks -/

/-- Exact search on reals, as `flatL2`. -/
noncomputable def realL2 : NearestSearch ℝ where
  knn vectors query k :=
    let distances := vectors.map fun v =>
      accumulate (List.zipWith (fun x y => (x - y) * (x - y)) query v)
    (List.insertionSort (· ≤ ·) distances ++ List.replicate k (((10 : ℕ) : ℝ) ^ 38)).take k
  length_knn vectors query k := by simp

noncomputable def bankConfig (embedDim dropK : ℕ) : PatchCoreConfig ℝ :=
  ⟨1, 0, 1, 1, 1, embedDim, dropK, 1, .reconstruction⟩

def whiteningOn : InitializeConfig ℝ where
  anomalyThreshold := 1
  enableWhitening := true
  targetFpr := 0

def lineBank : FeatureBank ℝ := ⟨1, [[0], [(2 : ℕ)]],
  List.forall_mem_cons.mpr ⟨rfl, List.forall_mem_singleton.mpr rfl⟩⟩

noncomputable def lineCore : PatchCore ℝ := create (bankConfig 1 0) (some lineBank)

noncomputable def lineInputs : InitializeInputs ℝ where
  fitPca := fitBank powerIteration 1

theorem lineBank_covariance : (batchMoments lineBank.vectors lineBank.dim).2 = [1] :=
  congrArg Prod.snd lineSample_moments

theorem exactBasis_line : ExactBasis lineBank.dim (batchMoments lineBank.vectors lineBank.dim).2
    (bankBasis powerIteration lineBank) := by
  have hbasis : bankBasis powerIteration lineBank =
      ⟨(bankBasis powerIteration lineBank).cov, [1], [1]⟩ := by
    have hpair : powerIteration [(1 : ℝ)] 1 = ([1], 1) := by
      rw [powerIteration, powerConverges_line, Option.getD_some]
    rw [bankBasis, lineBank_covariance, computeTopEigen_eq]
    simp [List.range_succ, topPair, deflated, lineBank, hpair]
  have hunit : matOf 1 [(1 : ℝ)] = 1 := by
    ext s t
    obtain rfl := Subsingleton.elim s t
    simp [matOf, Fin.fin_one_eq_zero s]
  rw [hbasis, lineBank_covariance]
  change ExactBasis 1 [1] ⟨_, [1], [1]⟩
  refine ⟨rfl, rfl, fun s t => ?_, fun t => ?_, fun s t _ => ?_⟩
  · rw [hunit, Fin.fin_one_eq_zero s, Fin.fin_one_eq_zero t]
    simp [dotProduct]
  · rw [hunit, one_mulVec, Fin.fin_one_eq_zero t]
    simp
  · rw [Subsingleton.elim s t]

theorem whitening_works_iff_line :
    (∃ core' pca, lineCore.initializeDetector whiteningOn lineInputs realL2 =
        some (.ok (), core') ∧ lineInputs.fitPca lineBank.vectors 1 = .ok pca ∧
      Whitens lineCore core' pca) ↔ 0 = 0 :=
  whitening_works_iff rfl rfl rfl rfl (List.cons_ne_nil _ _) Nat.one_pos
    (fitsWith_fitBank Nat.one_pos) exactBasis_line (by simp [lineInputs])

/-- Eigenpairs of a diagonal matrix of two rows. -/
noncomputable def axisPower (m : List ℝ) (_ : ℕ) : List ℝ × ℝ :=
  if 0 < m.getD 0 0 then ([1, 0], m.getD 0 0) else ([0, 1], m.getD 3 0)

def planeBank : FeatureBank ℝ := ⟨2, [[1, 0], [-1, 0]], by simp⟩

noncomputable def planeCore : PatchCore ℝ := create (bankConfig 2 1) (some planeBank)

noncomputable def planeInputs : InitializeInputs ℝ where
  fitPca := fitBank axisPower 2

theorem planeBank_covariance : (batchMoments planeBank.vectors planeBank.dim).2 = [1, 0, 0, 0] := by
  simp [planeBank, batchMoments, computeMean, computeCovariance, centerData, tabulate, accumulate,
    List.range_succ]
  norm_num

theorem exactBasis_plane : ExactBasis planeBank.dim
    (batchMoments planeBank.vectors planeBank.dim).2 (bankBasis axisPower planeBank) := by
  have hbasis : bankBasis axisPower planeBank =
      ⟨(bankBasis axisPower planeBank).cov, [1, 0, 0, 1], [1, 0]⟩ := by
    have hfirst : axisPower [1, 0, 0, 0] 2 = ([1, 0], 1) := by simp [axisPower]
    have hsecond : axisPower [0, 0, 0, 0] 2 = ([0, 1], 0) := by simp [axisPower]
    have hleft : deflateFlat 2 [(1 : ℝ), 0, 0, 0] [1, 0] 1 = [0, 0, 0, 0] := by
      simp [deflateFlat, tabulate, List.range_succ]
    have hlarge : (1 / (1000000000000 : ℕ) : ℝ) < 1 := by norm_num
    rw [bankBasis, planeBank_covariance, computeTopEigen_eq]
    simp only [planeBank, List.range_succ, List.range_zero, List.nil_append, List.map_append,
      List.map_cons, List.map_nil, topPair, deflated, hfirst, if_pos hlarge, hleft, hsecond]
    rfl
  rw [hbasis, planeBank_covariance]
  change ExactBasis 2 [1, 0, 0, 0] ⟨_, [1, 0, 0, 1], [1, 0]⟩
  refine ⟨rfl, rfl, fun s t => ?_, fun t => ?_, fun s t _ => ?_⟩
  · fin_cases s <;> fin_cases t <;> simp [dotProduct, matOf]
  · fin_cases t <;> funext i <;> fin_cases i <;> simp [mulVec, dotProduct, matOf]
  · fin_cases s <;> fin_cases t <;> simp at *

/-- Dropping one of two components fails, though the eigenvectors are exact. -/
theorem whitening_fails_plane :
    ExactBasis planeBank.dim (batchMoments planeBank.vectors planeBank.dim).2
        (bankBasis axisPower planeBank) ∧
      FitsWith axisPower 2 planeInputs.fitPca ∧
      planeCore.initializeDetector whiteningOn planeInputs realL2 =
        some (fail .embeddingDimensionMismatch
          "DimensionReducer::FitPca: target_dim (3) > input_dim (2)", planeCore) := by
  have hcount : planeCore.cfg.embedDim + planeCore.cfg.dropK = 3 := rfl
  have hfit : planeInputs.fitPca planeBank.vectors 3 = fail .embeddingDimensionMismatch
      "DimensionReducer::FitPca: target_dim (3) > input_dim (2)" := by
    have hbank : fitPca axisPower (bankSamples 2 planeBank.vectors) 3 = _ :=
      fitPca_bank Nat.two_pos planeBank.length_vectors (List.cons_ne_nil _ _)
    change fitBank axisPower 2 planeBank.vectors 3 = _
    rw [fitBank, hbank, Option.getD_some, if_pos (by decide)]
    rfl
  have hwhitened := whitenBank_eq planeInputs (show whiteningOn.enableWhitening = true from rfl)
    (show planeCore.featureBank = some planeBank from rfl) rfl
  rw [hcount, hfit] at hwhitened
  exact ⟨exactBasis_plane, fitsWith_fitBank Nat.two_pos, initializeDetector_of_error rfl hwhitened⟩

end PatchCore

end SurfaceAi.Detection
