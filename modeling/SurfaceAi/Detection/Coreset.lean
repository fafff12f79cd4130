import SurfaceAi.Core.Arithmetic
import SurfaceAi.Detection.FeatureBank
import SurfaceAi.Library.FarthestPoint
import Mathlib.Algebra.Order.BigOperators.Group.List
import Mathlib.Algebra.Order.Ring.Defs

/-! Building a feature bank from embeddings, either every row (thinned out by a stride
when there are too many) or a greedy coreset of the rows. A coreset as large as the
set of rows keeps the value of every row. -/

namespace SurfaceAi.Detection

open Embeddings

/-- An embedding whose data covers its shape, so that all its rows can be read. -/
structure PatchEmbedding (F : Type*) where
  embedding : Embedding F
  covers : embedding.embeddingMeta.count * embedding.embeddingMeta.dim ≤ embedding.data.length

/-- `FromCpu` on a flat array, shaped as many whole rows as it holds. -/
def PatchEmbedding.ofVectors {F : Type*} (vectors : List F) (dim gridH gridW : ℕ) :
    PatchEmbedding F where
  embedding := .fromCpu vectors ⟨dim, vectors.length / dim, gridH, gridW⟩
  covers := Nat.div_mul_le_self vectors.length dim

/-- All rows of the embeddings read so far, in one flat array. -/
structure Gathered (F : Type*) (dim : ℕ) where
  vectors : List F
  total : ℕ
  length_vectors : vectors.length = total * dim

namespace Gathered

variable {F : Type*} {dim : ℕ}

def empty : Gathered F dim := ⟨[], 0, by simp⟩

/-- Append the rows of one embedding of the right dimension. -/
def add (builder : String) (g : Gathered F dim) (e : PatchEmbedding F) :
    Result (Gathered F dim) :=
  let m := e.embedding.embeddingMeta
  if h : m.dim = dim then
    .ok ⟨g.vectors ++ e.embedding.data.take (m.count * dim), g.total + m.count, by
      have hcovers : m.count * dim ≤ e.embedding.data.length := by
        rw [← h]
        exact e.covers
      rw [List.length_append, List.length_take, g.length_vectors, Nat.add_mul,
        Nat.min_eq_left hcovers]⟩
  else
    fail .detectionFeatureBankLoadFailed (builder ++ ": embedding dim mismatch (expected " ++
      toString dim ++ ", got " ++ toString m.dim ++ ")")

def rows (g : Gathered F dim) : List (List F) := Rows.rows dim g.total g.vectors

theorem length_of_mem_rows {g : Gathered F dim} {v : List F} (h : v ∈ g.rows) :
    v.length = dim :=
  Rows.length_of_mem_rows g.length_vectors.ge h

end Gathered

/-- The loop both builders start with. -/
def gather {F : Type*} (builder : String) (dim : ℕ) (embeddings : List (PatchEmbedding F)) :
    Result (Gathered F dim) :=
  if embeddings = [] then
    fail .detectionFeatureBankLoadFailed (builder ++ ": no embeddings provided")
  else embeddings.foldlM (Gathered.add builder) .empty

/-- The rows kept of `total`: every stride-th one, filled up to the wanted number. -/
def strideIndices (total maxSamples : ℕ) : List ℕ :=
  let stride := max (total / maxSamples) 1
  let strided := ((List.range total).filter fun i => i % stride = 0).take maxSamples
  strided ++ (List.range (min maxSamples total)).drop strided.length

/-- The squared distance, summed up in order. -/
def squaredDistance {F : Type*} [Zero F] [Add F] [Sub F] [Mul F] (x y : List F) : F :=
  accumulate (List.zipWith (fun a b => (a - b) * (a - b)) x y)

namespace FeatureBank

variable {F : Type*}

/-- The rows at the given indices. -/
def ofIndices {dim : ℕ} (g : Gathered F dim) (indices : List ℕ) : FeatureBank F where
  dim := dim
  vectors := indices.filterMap fun i => g.rows[i]?
  length_vectors v hv := by
    obtain ⟨i, -, hi⟩ := List.mem_filterMap.mp hv
    exact Gathered.length_of_mem_rows (List.mem_of_getElem? hi)

/-- `BuildFromEmbeddings`. -/
def buildFromEmbeddings (embeddings : List (PatchEmbedding F)) (dim maxSamples : ℕ) :
    Result (FeatureBank F) := do
  let g ← gather "BuildFromEmbeddings" dim embeddings
  if g.total = 0 then
    fail .detectionFeatureBankLoadFailed
      "BuildFromEmbeddings: no patch vectors extracted from embeddings"
  else if maxSamples < g.total then .ok (ofIndices g (strideIndices g.total maxSamples))
  else .ok (rebuild g.vectors g.total dim g.length_vectors.ge)

variable [Zero F] [One F] [Add F] [Sub F] [Neg F] [Mul F] [LT F] [DecidableLT F] [DecidableEq F]

/-- The bank of a greedy selection of the rows. -/
def greedyCoreset {dim : ℕ} (g : Gathered F dim) (numSamples : ℕ) : FeatureBank F where
  dim := dim
  vectors := (FarthestPoint.select squaredDistance g.rows numSamples).take numSamples
  length_vectors _ hv := Gathered.length_of_mem_rows
    (FarthestPoint.mem_of_mem_select squaredDistance (List.mem_of_mem_take hv))

/-- `BuildWithGreedyCoreset`. -/
def buildWithGreedyCoreset (embeddings : List (PatchEmbedding F)) (dim maxSamples : ℕ) :
    Result (FeatureBank F) := do
  let g ← gather "BuildWithGreedyCoreset" dim embeddings
  if g.total = 0 then
    fail .detectionFeatureBankLoadFailed "BuildWithGreedyCoreset: no patch vectors extracted"
  else .ok (greedyCoreset g (min maxSamples g.total))

end FeatureBank

/-! ### One flat array -/

section OneArray

variable {F : Type*} (vectors : List F) (dim gridH gridW : ℕ)

/-- A flat array is gathered up to its last whole row. -/
theorem gather_ofVectors (builder : String) :
    ∃ g, gather builder dim [.ofVectors vectors dim gridH gridW] = .ok g ∧
      g.total = vectors.length / dim ∧ g.rows = Rows.rows dim (vectors.length / dim) vectors := by
  refine ⟨⟨vectors.take (vectors.length / dim * dim), vectors.length / dim, ?_⟩, ?_, rfl, ?_⟩
  · rw [List.length_take, Nat.min_eq_left (Nat.div_mul_le_self _ _)]
  · rw [gather, if_neg (by simp), List.foldlM_cons]
    simp only [Gathered.add, PatchEmbedding.ofVectors, Embedding.fromCpu, Gathered.empty,
      List.nil_append, Nat.zero_add, dite_true]
    rfl
  · exact Rows.rows_take dim _ vectors

variable {vectors dim gridH gridW} in
/-- The plain builder stores rows of the array. -/
theorem FeatureBank.buildFromEmbeddings_mem {maxSamples : ℕ} {bank : FeatureBank F}
    (h : buildFromEmbeddings [.ofVectors vectors dim gridH gridW] dim maxSamples = .ok bank) :
    bank.dim = dim ∧ ∀ v ∈ bank.vectors, v ∈ Rows.rows dim (vectors.length / dim) vectors := by
  obtain ⟨g, hg, -, hrows⟩ := gather_ofVectors vectors dim gridH gridW "BuildFromEmbeddings"
  have h' : (if g.total = 0 then fail .detectionFeatureBankLoadFailed
      "BuildFromEmbeddings: no patch vectors extracted from embeddings"
    else if maxSamples < g.total then .ok (ofIndices g (strideIndices g.total maxSamples))
    else .ok (rebuild g.vectors g.total dim g.length_vectors.ge)) = .ok bank := by
    rw [← h]
    simp only [buildFromEmbeddings, hg]
    rfl
  rw [← hrows]
  split_ifs at h'
  · cases h'
  · obtain rfl := Except.ok.inj h'
    refine ⟨rfl, fun v hv => ?_⟩
    obtain ⟨i, -, hi⟩ := List.mem_filterMap.mp hv
    exact List.mem_of_getElem? hi
  · obtain rfl := Except.ok.inj h'
    exact ⟨rfl, fun v hv => hv⟩

variable {vectors dim gridH gridW} in
/-- A coreset consists of rows of the array, of which there is one. -/
theorem FeatureBank.buildWithGreedyCoreset_mem [Zero F] [One F] [Add F] [Sub F] [Neg F] [Mul F]
    [LT F] [DecidableLT F] [DecidableEq F] {maxSamples : ℕ} {bank : FeatureBank F}
    (h : buildWithGreedyCoreset [.ofVectors vectors dim gridH gridW] dim maxSamples = .ok bank) :
    0 < dim ∧ bank.dim = dim ∧
      ∀ v ∈ bank.vectors, v ∈ Rows.rows dim (vectors.length / dim) vectors := by
  obtain ⟨g, hg, htotal, hrows⟩ := gather_ofVectors vectors dim gridH gridW "BuildWithGreedyCoreset"
  have h' : (if g.total = 0 then fail .detectionFeatureBankLoadFailed
      "BuildWithGreedyCoreset: no patch vectors extracted"
    else .ok (greedyCoreset g (min maxSamples g.total))) = .ok bank := by
    rw [← h]
    simp only [buildWithGreedyCoreset, hg]
    rfl
  rw [← hrows]
  split_ifs at h' with hzero
  · cases h'
  · obtain rfl := Except.ok.inj h'
    have hdim : 0 < dim := by
      rw [Nat.pos_iff_ne_zero]
      rintro rfl
      exact hzero (htotal.trans (Nat.div_zero _))
    exact ⟨hdim, rfl, fun v hv => FarthestPoint.mem_of_mem_select _ (List.mem_of_mem_take hv)⟩

variable (hrow : 0 < vectors.length / dim)
include hrow

/-- Asked for all rows, the plain builder stores them in order. -/
theorem FeatureBank.buildFromEmbeddings_ofVectors :
    ∃ bank, buildFromEmbeddings [.ofVectors vectors dim gridH gridW] dim (vectors.length / dim) =
        .ok bank ∧ bank.dim = dim ∧ bank.vectors = Rows.rows dim (vectors.length / dim) vectors := by
  obtain ⟨g, hg, htotal, hrows⟩ := gather_ofVectors vectors dim gridH gridW "BuildFromEmbeddings"
  refine ⟨rebuild g.vectors g.total dim g.length_vectors.ge, ?_, rfl, hrows⟩
  simp only [buildFromEmbeddings, hg]
  show (if g.total = 0 then _ else _) = _
  rw [if_neg (by omega), if_neg (by omega)]

variable [Ring F] [LinearOrder F] [IsStrictOrderedRing F]

omit [LinearOrder F] [IsStrictOrderedRing F] hrow in
theorem squaredDistance_cons (a b : F) (x y : List F) :
    squaredDistance (a :: x) (b :: y) = (a - b) * (a - b) + squaredDistance x y := by
  simp only [squaredDistance, accumulate, ← List.sum_eq_foldl, List.zipWith_cons_cons,
    List.sum_cons]

omit hrow in
theorem squaredDistance_nonneg (x y : List F) : 0 ≤ squaredDistance x y := by
  induction x generalizing y with
  | nil => exact le_rfl
  | cons a x ih =>
    cases y with
    | nil => exact le_rfl
    | cons b y =>
      rw [squaredDistance_cons]
      exact add_nonneg (mul_self_nonneg _) (ih y)

omit hrow in
theorem eq_of_squaredDistance_eq_zero {x y : List F} (hlen : x.length = y.length)
    (h : squaredDistance x y = 0) : x = y := by
  induction x generalizing y with
  | nil => exact (List.length_eq_zero_iff.mp hlen.symm).symm
  | cons a x ih =>
    cases y with
    | nil => simp at hlen
    | cons b y =>
      rw [squaredDistance_cons] at h
      obtain ⟨hhead, htail⟩ := (add_eq_zero_iff_of_nonneg (mul_self_nonneg _)
        (squaredDistance_nonneg x y)).mp h
      rw [sub_eq_zero.mp (mul_self_eq_zero.mp hhead), ih (by simpa using hlen) htail]

/-- A coreset of at least as many rows as there are holds exactly the rows. -/
theorem FeatureBank.buildWithGreedyCoreset_ofVectors {maxSamples : ℕ}
    (hmax : vectors.length / dim ≤ maxSamples) :
    ∃ bank, buildWithGreedyCoreset [.ofVectors vectors dim gridH gridW] dim maxSamples =
        .ok bank ∧ bank.dim = dim ∧
      ∀ v, v ∈ bank.vectors ↔ v ∈ Rows.rows dim (vectors.length / dim) vectors := by
  obtain ⟨g, hg, htotal, hrows⟩ :=
    gather_ofVectors vectors dim gridH gridW "BuildWithGreedyCoreset"
  refine ⟨greedyCoreset g (min maxSamples g.total), ?_, rfl, ?_⟩
  · simp only [buildWithGreedyCoreset, hg]
    show (if g.total = 0 then _ else _) = _
    rw [if_neg (by omega)]
  · intro v
    rw [← hrows]
    show v ∈ (FarthestPoint.select squaredDistance g.rows (min maxSamples g.total)).take
      (min maxSamples g.total) ↔ v ∈ g.rows
    rw [List.take_of_length_le (FarthestPoint.length_select_le _ _ (by omega))]
    refine ⟨FarthestPoint.mem_of_mem_select _, fun hv => ?_⟩
    refine FarthestPoint.mem_select _ squaredDistance_nonneg ?_ ?_ hv
    · intro x hx y hy
      exact eq_of_squaredDistance_eq_zero
        ((Gathered.length_of_mem_rows hx).trans (Gathered.length_of_mem_rows hy).symm)
    · rw [Gathered.rows, Rows.length_rows]
      omega

end OneArray

end SurfaceAi.Detection
