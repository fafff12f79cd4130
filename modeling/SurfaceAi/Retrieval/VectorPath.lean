import Mathlib.Data.List.TakeWhile
import SurfaceAi.Detection.BankIndex
import SurfaceAi.Rule.FactBuilder

/-! The vector search over a feature bank. What FAISS answers is a parameter: position by position a
label and a distance, where a negative label says that there is no further neighbour. -/

namespace SurfaceAi.Retrieval

open Detection Rules

inductive Mode where
  | topK | range | hybrid
  deriving DecidableEq

/-- `VectorPath::Config`. -/
structure VectorConfig (F : Type) where
  mode : Mode
  k : ℕ
  rangeThreshold : F
  idSubset : List ℕ

/-- The searches of FAISS for one query: the nearest `k`, perhaps restricted by a selector to some
ids, and all within a distance. -/
structure NeighbourSearch (F : Type) where
  search : Index F → ℕ → List F → ℕ → Option (List ℕ) → List (ℤ × F)
  rangeSearch : Index F → ℕ → List F → F → List (ℤ × F)
  length_search : ∀ index nprobe query k ids, (search index nprobe query k ids).length = k

/-- A selector restricts a search to its ids. -/
def NeighbourSearch.Restricts {F : Type} (faiss : NeighbourSearch F) : Prop :=
  ∀ index nprobe query k ids, ∀ answer ∈ faiss.search index nprobe query k (some ids),
    0 ≤ answer.1 → answer.1.toNat ∈ ids

structure VectorPath (F : Type) where
  faiss : NeighbourSearch F
  bank : IndexedBank F

/-- The answers up to the first without a neighbour. -/
def found {F : Type} (answers : List (ℤ × F)) : List (VectorResult F) :=
  (answers.takeWhile fun a => 0 ≤ a.1).map fun a => ⟨a.1.toNat, a.2⟩

namespace VectorPath

variable {F : Type} (path : VectorPath F)

def dim : ℕ := path.bank.dim

/-- `topk_search`, for at most as many neighbours as there are samples. -/
def topkSearch (index : Index F) (query : List F) (k : ℕ) : List (VectorResult F) :=
  found (path.faiss.search index path.bank.nprobe query (min k path.bank.numSamples) none)

/-- The searches of an index by mode; without ids the hybrid mode is a top-k search. -/
def searchIndex (index : Index F) (query : List F) (cfg : VectorConfig F) : List (VectorResult F) :=
  match cfg.mode with
  | .topK => path.topkSearch index query cfg.k
  | .range => (path.faiss.rangeSearch index path.bank.nprobe query cfg.rangeThreshold).map fun a =>
      ⟨a.1.toNat, a.2⟩
  | .hybrid =>
    if cfg.idSubset = [] then path.topkSearch index query cfg.k
    else found (path.faiss.search index path.bank.nprobe query (min cfg.k cfg.idSubset.length)
      (some cfg.idSubset))

/-- `VectorPath::Search`. -/
def search (query : List F) (dim : ℕ) (cfg : VectorConfig F) : Result (List (VectorResult F)) :=
  if dim ≠ path.bank.dim then
    fail .retrievalDimensionMismatch ("query dimension " ++ toString dim ++
      " does not match index dimension " ++ toString path.bank.dim)
  else
    match path.bank.searchedIndex with
    | none => fail .retrievalEmptyIndex "FeatureBank is empty"
    | some index =>
      if path.bank.numSamples = 0 then fail .retrievalEmptyIndex "FeatureBank is empty"
      else .ok (path.searchIndex index query cfg)

end VectorPath

variable {F : Type} {path : VectorPath F} {index : Index F} {query : List F} {dim : ℕ}
  {cfg : VectorConfig F} {results : List (VectorResult F)}

theorem VectorPath.search_eq_ok (h : path.search query dim cfg = .ok results) :
    ∃ index, path.bank.searchedIndex = some index ∧ results = path.searchIndex index query cfg := by
  rw [search] at h
  by_cases hdim : dim ≠ path.bank.dim
  · rw [if_pos hdim] at h
    cases h
  · rw [if_neg hdim] at h
    split at h
    · cases h
    · next index hindex =>
      by_cases hnone : path.bank.numSamples = 0
      · rw [if_pos hnone] at h
        cases h
      · rw [if_neg hnone] at h
        exact ⟨index, hindex, (Except.ok.inj h).symm⟩

theorem length_found_le (answers : List (ℤ × F)) : (found answers).length ≤ answers.length := by
  rw [found, List.length_map]
  exact (List.takeWhile_prefix _).length_le

theorem mem_found {answers : List (ℤ × F)} {r : VectorResult F} (h : r ∈ found answers) :
    ∃ answer ∈ answers, 0 ≤ answer.1 ∧ answer.1.toNat = r.index := by
  obtain ⟨answer, hanswer, rfl⟩ := List.mem_map.mp h
  refine ⟨answer, (List.takeWhile_prefix _).subset hanswer, ?_, rfl⟩
  simpa using List.mem_takeWhile_imp hanswer

theorem VectorPath.length_topkSearch_le (k : ℕ) : (path.topkSearch index query k).length ≤ k := by
  refine (length_found_le _).trans ?_
  rw [path.faiss.length_search]
  exact min_le_left _ _

/-- With a restricting FAISS every hit of a hybrid search is among the ids. -/
theorem VectorPath.mem_searchIndex_hybrid (hrestricts : path.faiss.Restricts)
    (hmode : cfg.mode = .hybrid) (hids : cfg.idSubset ≠ []) {r : VectorResult F}
    (h : r ∈ path.searchIndex index query cfg) : r.index ∈ cfg.idSubset := by
  simp only [searchIndex, hmode, if_neg hids] at h
  obtain ⟨answer, hanswer, hfound, hr⟩ := mem_found h
  exact hr ▸ hrestricts _ _ _ _ _ answer hanswer hfound

def squaredDistance (xs ys : List ℚ) : ℚ :=
  (List.zipWith (fun x y => (x - y) * (x - y)) xs ys).foldl (· + ·) 0

/-- Exact search on rationals: squared distances in ascending order, filled up with an answer that
is no neighbour. -/
def flatNeighbours : NeighbourSearch ℚ where
  search index _ query k ids :=
    let candidates := index.vectors.zipIdx.filter fun v => ids.all fun ids => v.2 ∈ ids
    let answers : List (ℤ × ℚ) := candidates.map fun v => (v.2, squaredDistance query v.1)
    (answers.insertionSort (fun a b : ℤ × ℚ => a.2 ≤ b.2) ++ List.replicate k (-1, 10 ^ 38)).take k
  rangeSearch index _ query threshold :=
    let answers : List (ℤ × ℚ) := index.vectors.zipIdx.map fun v => (v.2, squaredDistance query v.1)
    answers.filter fun a => a.2 < threshold
  length_search index nprobe query k ids := by simp

theorem flatNeighbours_restricts : flatNeighbours.Restricts := by
  intro index nprobe query k ids answer hanswer hfound
  rcases List.mem_append.mp (List.mem_of_mem_take hanswer) with hmem | hmem
  · obtain ⟨⟨v, i⟩, hv, rfl⟩ := List.mem_map.mp ((List.mem_insertionSort _).mp hmem)
    simpa using (List.mem_filter.mp hv).2
  · obtain rfl := List.eq_of_mem_replicate hmem
    cases hfound

theorem length_zero_three : ∀ v ∈ ([[0], [3]] : List (List ℚ)), v.length = 1 := by
  intro v hv
  simp only [List.mem_cons, List.not_mem_nil, or_false] at hv
  rcases hv with rfl | rfl <;> rfl

/-- A bank of two vectors. -/
def twoVectors : VectorPath ℚ where
  faiss := flatNeighbours
  bank := IndexedBank.empty.rebuild ⟨1, [[0], [3]], length_zero_three⟩

end SurfaceAi.Retrieval
