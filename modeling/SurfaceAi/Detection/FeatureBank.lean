import SurfaceAi.Core.Error
import SurfaceAi.Embedding.Embedding
import SurfaceAi.Library.Rows
import Mathlib.Algebra.Order.Ring.Unbundled.Rat
import Mathlib.Data.List.Sort

/-! The feature bank: the vectors its index holds, in insertion order, each of the
bank's dimension. The nearest-neighbour search over them is a parameter that answers
every query row on its own with `k` distances. -/

namespace SurfaceAi.Detection

open Embeddings

structure FeatureBank (F : Type*) where
  dim : ℕ
  vectors : List (List F)
  length_vectors : ∀ v ∈ vectors, v.length = dim

/-- The search of the index: missing neighbours are filled up, so a query row always
gets `k` distances. -/
structure NearestSearch (F : Type*) where
  knn : List (List F) → List F → ℕ → List F
  length_knn : ∀ vectors query k, (knn vectors query k).length = k

/-- Exact search on rationals: squared distances in ascending order, filled up with a
distance no real neighbour has. -/
def flatL2 : NearestSearch ℚ where
  knn vectors query k :=
    let distances := vectors.map fun v =>
      (List.zipWith (fun x y => (x - y) * (x - y)) query v).foldl (· + ·) 0
    (List.insertionSort (· ≤ ·) distances ++ List.replicate k (10 ^ 38)).take k
  length_knn vectors query k := by simp

namespace FeatureBank

variable {F : Type*} (bank : FeatureBank F)

def numSamples : ℕ := bank.vectors.length

/-- `ExtractAllVectors`, the flat array of all vectors. -/
def extractAllVectors : List F := bank.vectors.flatten

/-- `Search`: the distances of all query rows, row after row. -/
def search (engine : NearestSearch F) (queries : List (List F)) (k : ℕ) : List F :=
  if queries = [] ∨ k = 0 then [] else queries.flatMap fun q => engine.knn bank.vectors q k

theorem length_extractAllVectors : bank.extractAllVectors.length = bank.numSamples * bank.dim := by
  have hlen : bank.vectors.map List.length = List.replicate bank.vectors.length bank.dim :=
    List.map_eq_replicate_iff.mpr bank.length_vectors
  rw [extractAllVectors, List.length_flatten, hlen, List.sum_replicate_nat, numSamples]

/-- The flat array is cut into the vectors again. -/
theorem rows_extractAllVectors :
    Rows.rows bank.dim bank.numSamples bank.extractAllVectors = bank.vectors :=
  Rows.rows_flatten bank.length_vectors

/-- `Rebuild` from the first `count` rows of an array that holds them. -/
def rebuild (data : List F) (count dim : ℕ) (h : count * dim ≤ data.length) : FeatureBank F where
  dim := dim
  vectors := Rows.rows dim count data
  length_vectors _ hv := Rows.length_of_mem_rows h hv

theorem length_search (engine : NearestSearch F) (queries : List (List F)) (k : ℕ) :
    (bank.search engine queries k).length = queries.length * k := by
  rw [search]
  split_ifs with hempty
  · rcases hempty with rfl | rfl
    · exact (Nat.zero_mul k).symm
    · rfl
  · simp [List.length_flatMap, engine.length_knn]

/-- The distances of row `i` start at entry `i * k`. -/
theorem getElem?_search (engine : NearestSearch F) {queries : List (List F)} {k i j : ℕ}
    (hj : j < k) :
    (bank.search engine queries k)[i * k + j]? =
      queries[i]?.bind fun q => (engine.knn bank.vectors q k)[j]? := by
  unfold search
  split_ifs with h
  · rcases h with rfl | rfl
    · simp
    · omega
  · exact Rows.getElem?_flatMap (fun q _ => engine.length_knn _ q k) hj

end FeatureBank

end SurfaceAi.Detection
