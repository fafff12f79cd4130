import SurfaceAi.Core.Arithmetic
import SurfaceAi.Embedding.PcaFitting
import SurfaceAi.Embedding.TopEigen
import Mathlib.Algebra.Field.Rat
import Mathlib.Algebra.Order.BigOperators.Group.List
import Mathlib.Data.List.TakeWhile
import Mathlib.Tactic.FieldSimp
import Mathlib.Tactic.LinearCombination

/-! Fitting a PCA to a stream that is read twice, once for the mean and once for the upper
triangle of the covariance. The stream's covariance is over one less than the number of vectors,
the one of the samples in memory over their number. -/

namespace SurfaceAi.Embeddings

open FlatMatrix

section Model

variable {F : Type*}

/-- The vectors of the batches, up to the first empty batch. -/
def streamRows (dim : ℕ) (batches : List (List F)) : List (List F) :=
  (batches.takeWhile fun batch => !batch.isEmpty).flatMap fun batch =>
    Rows.rows dim (batch.length / dim) batch

variable [Zero F] [One F] [Add F] [Sub F] [Mul F] [Div F] [NatCast F]

/-- Both passes with the symmetric fill; `none` divides by zero. -/
def streamingMoments (first second : List (List F)) (dim totalN : ℕ) : Option (List F × List F) :=
  let mean := (List.range dim).map fun j =>
    accumulate ((streamRows dim first).map fun x => x.getD j 0) * (1 / (totalN : F))
  let upper := fun p q => accumulate ((streamRows dim second).map fun x =>
    (x.getD p 0 - mean.getD p 0) * (x.getD q 0 - mean.getD q 0))
  if totalN - 1 = 0 then none
  else some (mean, tabulate dim fun i j => upper (min i j) (max i j) * (1 / ((totalN - 1 : ℕ) : F)))

variable [LT F] [DecidableLT F]

/-- `FitPcaStreaming`, with the batches that the two generators deliver. -/
def fitPcaStreaming (power : List F → ℕ → List F × F) (first second : List (List F))
    (dim totalN targetK : ℕ) : Option (Result (PcaParams F)) :=
  if dim = 0 ∨ totalN = 0 then
    some (fail .embeddingDimensionMismatch
      "DimensionReducer::FitPcaStreaming: D and total_N must be > 0")
  else
    let targetK := if targetK = 0 then dim else targetK
    if dim < targetK then
      some (fail .embeddingDimensionMismatch ("DimensionReducer::FitPcaStreaming: target_k (" ++
        toString targetK ++ ") > D (" ++ toString dim ++ ")"))
    else
      let seen := (streamRows dim first).length
      if seen ≠ totalN then
        some (fail .embeddingDimensionMismatch ("DimensionReducer::FitPcaStreaming: expected " ++
          toString totalN ++ " vectors but saw " ++ toString seen))
      else
        (streamingMoments first second dim totalN).map fun moments =>
          .ok (pcaOfMoments power moments.1 moments.2 dim targetK)

end Model

section Batches

variable {F : Type*} {dim : ℕ}

/-- However the vectors are cut into batches, the stream has them in order. -/
theorem streamRows_flatten {groups : List (List (List F))} (hdim : 0 < dim)
    (hgroups : ∀ g ∈ groups, g ≠ []) (hlength : ∀ g ∈ groups, ∀ x ∈ g, x.length = dim) :
    streamRows dim (groups.map List.flatten) = groups.flatten := by
  have hsize : ∀ g ∈ groups, g.flatten.length = g.length * dim := by
    intro g hg
    have hmap : g.map List.length = List.replicate g.length dim :=
      List.map_eq_replicate_iff.mpr (hlength g hg)
    rw [List.length_flatten, hmap, List.sum_replicate_nat]
  have hall : (groups.map List.flatten).takeWhile (fun batch => !batch.isEmpty) =
      groups.map List.flatten := by
    rw [List.takeWhile_eq_self_iff]
    intro batch hbatch
    obtain ⟨g, hg, rfl⟩ := List.mem_map.mp hbatch
    have hpos : 0 < g.flatten.length := by
      rw [hsize g hg]
      exact Nat.mul_pos (List.length_pos_iff.mpr (hgroups g hg)) hdim
    simpa using List.length_pos_iff.mp hpos
  rw [streamRows, hall, List.flatMap_map, List.flatMap_def]
  refine congrArg List.flatten ((List.map_congr_left fun g hg => ?_).trans (List.map_id groups))
  rw [hsize g hg, Nat.mul_div_cancel _ hdim, Rows.rows_flatten (hlength g hg)]
  rfl

end Batches

section Exact

variable {F : Type*} [Field F] [LinearOrder F] [IsStrictOrderedRing F] {dim : ℕ}
  {vectors : List (List F)}

/-- The sum that both fits divide to get a covariance. -/
def scatter (vectors : List (List F)) (mean : List F) (i j : ℕ) : F :=
  (vectors.map fun x => (x.getD i 0 - mean.getD i 0) * (x.getD j 0 - mean.getD j 0)).sum

omit [LinearOrder F] [IsStrictOrderedRing F] in
theorem scatter_min_max (mean : List F) (i j : ℕ) :
    scatter vectors mean (min i j) (max i j) = scatter vectors mean i j := by
  rcases le_total i j with h | h
  · rw [min_eq_left h, max_eq_right h]
  · rw [min_eq_right h, max_eq_left h, scatter, scatter]
    simp only [mul_comm]

omit [LinearOrder F] [IsStrictOrderedRing F] in
theorem length_computeMean (vectors : List (List F)) (dim : ℕ) :
    (computeMean vectors dim).length = dim := by simp [computeMean]

omit [LinearOrder F] [IsStrictOrderedRing F] in
theorem computeCovariance_centerData {mean : List F} (hlength : ∀ x ∈ vectors, x.length = dim)
    (hmean : mean.length = dim) :
    computeCovariance (centerData vectors mean) dim =
      tabulate dim fun i j => scatter vectors mean i j * (1 / (vectors.length : F)) := by
  refine tabulate_inj.mpr fun i hi j hj => ?_
  have hentry : ∀ x ∈ vectors, ∀ l < dim,
      (List.zipWith (· - ·) x mean).getD l 0 = x.getD l 0 - mean.getD l 0 := by
    intro x hx l hl
    have hxl : l < x.length := (hlength x hx).symm ▸ hl
    have hml : l < mean.length := hmean.symm ▸ hl
    rw [List.getD_eq_getElem _ _ (by simpa using ⟨hxl, hml⟩), List.getD_eq_getElem _ _ hxl,
      List.getD_eq_getElem _ _ hml, List.getElem_zipWith]
  rw [accumulate_eq_sum, centerData, List.map_map, List.length_map, scatter]
  congr 2
  refine List.map_congr_left fun x hx => ?_
  rw [Function.comp_apply, hentry x hx i hi, hentry x hx j hj]

omit [LinearOrder F] [IsStrictOrderedRing F] in
/-- The moments of a stream, in terms of the scatter. -/
theorem streamingMoments_eq {batches : List (List F)} (hstream : streamRows dim batches = vectors)
    (htwo : 2 ≤ vectors.length) :
    streamingMoments batches batches dim vectors.length =
      some (computeMean vectors dim, tabulate dim fun i j =>
        scatter vectors (computeMean vectors dim) i j * (1 / ((vectors.length - 1 : ℕ) : F))) := by
  have hfill : ∀ i j, accumulate (vectors.map fun x =>
      (x.getD (min i j) 0 - (computeMean vectors dim).getD (min i j) 0) *
        (x.getD (max i j) 0 - (computeMean vectors dim).getD (max i j) 0)) =
      scatter vectors (computeMean vectors dim) i j := by
    intro i j
    rw [accumulate_eq_sum, ← scatter_min_max]
    rfl
  have hmany : vectors.length - 1 ≠ 0 := by omega
  rw [streamingMoments, hstream]
  change (if vectors.length - 1 = 0 then none else some (computeMean vectors dim, _)) = _
  rw [if_neg hmany]
  exact congrArg (fun f => some (computeMean vectors dim, tabulate dim f))
    (funext fun i => funext fun j => congrArg (· * _) (hfill i j))

omit [LinearOrder F] [IsStrictOrderedRing F] in
theorem streamingMoments_one (first second : List (List F)) :
    streamingMoments first second dim 1 = none := rfl

/-! ### Normalisers -/

theorem scatter_self_eq_zero {mean : List F} {i : ℕ} :
    scatter vectors mean i i = 0 ↔ ∀ x ∈ vectors, x.getD i 0 = mean.getD i 0 := by
  constructor
  · intro h x hx
    have hsquare : (x.getD i 0 - mean.getD i 0) * (x.getD i 0 - mean.getD i 0) = 0 := by
      refine List.all_zero_of_le_zero_le_of_sum_eq_zero ?_ h (List.mem_map_of_mem hx)
      intro y hy
      obtain ⟨z, -, rfl⟩ := List.mem_map.mp hy
      exact mul_self_nonneg _
    exact sub_eq_zero.mp (mul_self_eq_zero.mp hsquare)
  · intro h
    refine List.sum_eq_zero fun y hy => ?_
    obtain ⟨x, hx, rfl⟩ := List.mem_map.mp hy
    rw [h x hx, sub_self, zero_mul]

/-- The mean of equal vectors is each of them. -/
theorem computeMean_of_equal {x : List F} {i : ℕ} (hi : i < dim) (hx : x ∈ vectors)
    (hequal : ∀ y ∈ vectors, y = x) : (computeMean vectors dim).getD i 0 = x.getD i 0 := by
  have hcount : (vectors.length : F) ≠ 0 :=
    Nat.cast_ne_zero.mpr (List.length_pos_of_mem hx).ne'
  have hconst : vectors.map (fun y => y.getD i 0) = List.replicate vectors.length (x.getD i 0) :=
    List.map_eq_replicate_iff.mpr fun y hy => by rw [hequal y hy]
  rw [computeMean, getD_map_range hi, accumulate_eq_sum, hconst, List.sum_replicate, nsmul_eq_mul]
  field_simp

/-- The two quotients of the scatter agree for equal vectors only. -/
theorem quotients_eq_iff (hlength : ∀ x ∈ vectors, x.length = dim) (htwo : 2 ≤ vectors.length) :
    (∀ i < dim, ∀ j < dim,
      scatter vectors (computeMean vectors dim) i j * (1 / ((vectors.length - 1 : ℕ) : F)) =
        scatter vectors (computeMean vectors dim) i j * (1 / (vectors.length : F))) ↔
      ∀ x ∈ vectors, ∀ y ∈ vectors, x = y := by
  constructor
  · intro h x hx y hy
    have hcentre : ∀ i < dim, ∀ z ∈ vectors,
        z.getD i 0 = (computeMean vectors dim).getD i 0 := by
      intro i hi
      refine scatter_self_eq_zero.mp ?_
      have hdistinct : 1 / ((vectors.length - 1 : ℕ) : F) ≠ 1 / (vectors.length : F) := by
        intro heq
        rw [one_div, one_div, inv_inj, Nat.cast_inj] at heq
        omega
      by_contra hne
      exact hdistinct (mul_left_cancel₀ hne (h i hi i hi))
    refine eq_of_vecOf_eq (hlength x hx) (hlength y hy) (funext fun i => ?_)
    exact (hcentre i i.isLt x hx).trans (hcentre i i.isLt y hy).symm
  · intro h i hi j hj
    have hzero : scatter vectors (computeMean vectors dim) i j = 0 := by
      refine List.sum_eq_zero fun z hz => ?_
      obtain ⟨x, hx, rfl⟩ := List.mem_map.mp hz
      rw [computeMean_of_equal hi hx fun y hy => h y hy x hx, sub_self, zero_mul]
    rw [hzero, zero_mul, zero_mul]

/-- The moments of the stream are those of the samples when there are two vectors or more and
all are equal. -/
theorem streamingMoments_eq_iff {batches : List (List F)} (hlength : ∀ x ∈ vectors, x.length = dim)
    (hsome : vectors ≠ []) (hstream : streamRows dim batches = vectors) :
    streamingMoments batches batches dim vectors.length = some (batchMoments vectors dim) ↔
      2 ≤ vectors.length ∧ ∀ x ∈ vectors, ∀ y ∈ vectors, x = y := by
  have hpos : 0 < vectors.length := List.length_pos_iff.mpr hsome
  rcases Nat.lt_or_ge 1 vectors.length with htwo | hone
  · rw [streamingMoments_eq hstream htwo, Option.some_inj, batchMoments, Prod.mk.injEq,
      computeCovariance_centerData hlength (length_computeMean vectors dim), tabulate_inj,
      quotients_eq_iff hlength htwo]
    exact ⟨fun h => ⟨htwo, h.2⟩, fun h => ⟨rfl, h.2⟩⟩
  · have hcount : vectors.length = 1 := by omega
    rw [hcount, streamingMoments_one]
    exact ⟨fun h => absurd h (by simp), fun h => absurd h.1 (by omega)⟩

/-- A fit of the stream has the moments and the model of a fit of the samples exactly when there
are two vectors or more and all are equal. -/
theorem streaming_fit_eq_iff {groups : List (List (List F))} {samples : List (Embedding F)}
    {k : ℕ} (power : List F → ℕ → List F × F) (hdim : 0 < dim) (hk : 0 < k) (hle : k ≤ dim)
    (hgroups : ∀ g ∈ groups, g ≠ []) (hlength : ∀ g ∈ groups, ∀ x ∈ g, x.length = dim)
    (hsome : groups ≠ [])
    (hsamples : collectSamples samples =
      some (.ok ⟨groups.flatten.flatten, dim, groups.flatten.length⟩)) :
    (∃ moments params,
        streamingMoments (groups.map List.flatten) (groups.map List.flatten) dim
          groups.flatten.length = some moments ∧
        moments = batchMoments groups.flatten dim ∧
        fitPcaStreaming power (groups.map List.flatten) (groups.map List.flatten) dim
          groups.flatten.length k = some (.ok params) ∧
        fitPca power samples k = some (.ok params)) ↔
      2 ≤ groups.flatten.length ∧ ∀ x ∈ groups.flatten, ∀ y ∈ groups.flatten, x = y := by
  have hrows : ∀ x ∈ groups.flatten, x.length = dim := by
    intro x hx
    obtain ⟨g, hg, hxg⟩ := List.mem_flatten.mp hx
    exact hlength g hg x hxg
  have hvectors : groups.flatten ≠ [] := by
    obtain ⟨g, hg⟩ := List.exists_mem_of_ne_nil groups hsome
    obtain ⟨x, hx⟩ := List.exists_mem_of_ne_nil g (hgroups g hg)
    exact List.ne_nil_of_mem (List.mem_flatten.mpr ⟨g, hg, hx⟩)
  have hstream := streamRows_flatten hdim hgroups hlength
  rw [← streamingMoments_eq_iff hrows hvectors hstream]
  constructor
  · rintro ⟨moments, params, hmoments, rfl, -, -⟩
    exact hmoments
  · intro hmoments
    refine ⟨_, pcaOfMoments power (batchMoments groups.flatten dim).1
      (batchMoments groups.flatten dim).2 dim k, hmoments, rfl, ?_, ?_⟩
    · have hcount : groups.flatten.length ≠ 0 := (List.length_pos_iff.mpr hvectors).ne'
      rw [fitPcaStreaming, if_neg (by omega), if_neg hk.ne']
      dsimp only
      rw [if_neg hle.not_gt, hstream, if_neg (not_not.mpr rfl), hmoments, Option.map_some]
    · rw [fitPca, hsamples, Option.map_some]
      change some (if dim < k then _ else _) = _
      rw [if_neg hle.not_gt, Rows.rows_flatten hrows]
      rfl

end Exact

/-- Two batches that repeat one vector. -/
def repeatedGroups : List (List (List ℚ)) := [[[3]], [[3]]]

def repeatedSample : Embedding ℚ := .fromCpu [3, 3] ⟨1, 2, 1, 2⟩

theorem streaming_fit_eq_iff_repeated :
    (∃ moments params,
        streamingMoments [[(3 : ℚ)], [3]] [[3], [3]] 1 2 = some moments ∧
        moments = batchMoments [[3], [3]] 1 ∧
        fitPcaStreaming powerIteration [[3], [3]] [[3], [3]] 1 2 1 = some (.ok params) ∧
        fitPca powerIteration [repeatedSample] 1 = some (.ok params)) ↔
      2 ≤ 2 ∧ ∀ x ∈ [[(3 : ℚ)], [3]], ∀ y ∈ [[(3 : ℚ)], [3]], x = y :=
  streaming_fit_eq_iff powerIteration Nat.one_pos Nat.one_pos le_rfl
    (show ∀ g ∈ repeatedGroups, g ≠ [] by decide) (by decide) (by decide) rfl

def pairSample : Embedding ℚ := .fromCpu [0, 2] ⟨1, 2, 1, 2⟩

/-- One vector divides by zero, and two vectors that differ have twice the variance. -/
theorem streaming_fit_differs :
    streamingMoments [[(3 : ℚ)]] [[3]] 1 1 = none ∧
      (fitPcaStreaming powerIteration [[(3 : ℚ)]] [[3]] 1 1 1).isNone ∧
      streamingMoments [[(0 : ℚ), 2]] [[0, 2]] 1 2 = some ([1], [2]) ∧
      batchMoments [[(0 : ℚ)], [2]] 1 = ([1], [1]) ∧
      (fitPcaStreaming powerIteration [[(0 : ℚ), 2]] [[0, 2]] 1 2 1).map
        (·.toOption.map PcaParams.eigvals) = some (some [2]) ∧
      (fitPca powerIteration [pairSample] 1).map (·.toOption.map PcaParams.eigvals) =
        some (some [1]) := by
  decide +kernel

end SurfaceAi.Embeddings
