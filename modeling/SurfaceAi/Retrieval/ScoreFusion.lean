import SurfaceAi.Library.KeyedFold
import SurfaceAi.Retrieval.MetadataPath
import SurfaceAi.Retrieval.VectorPath
import Mathlib.Algebra.Order.Field.Basic
import Mathlib.Data.List.Sort

/-! The two fusions of vector hits with metadata results, in exact arithmetic. Both fold the two lists
into a map of scores by node and sort what it holds. The sort of the standard library is a parameter:
it orders, but need not keep the order of equals. -/

namespace SurfaceAi.Retrieval

open Rules

structure ScoreBreakdown (F : Type) where
  vectorScore : F
  metadataScore : F
  fusedScore : F
  fusionStrategy : String

/-- `std::sort` by a comparison. -/
structure StdSort {α : Type} (le : α → α → Prop) where
  sort : List α → List α
  perm : ∀ l, (sort l).Perm l
  ordered : ∀ l, (sort l).Pairwise le

/-- A result with a higher fused score comes first. -/
def FusedFirst {F : Type} [LE F] (a b : ℤ × ScoreBreakdown F) : Prop :=
  b.2.fusedScore ≤ a.2.fusedScore

/-- A hit, here its position and distance, with a smaller distance ranks first. -/
def NearestFirst {F : Type} [LE F] (a b : ℕ × F) : Prop := a.2 ≤ b.2

section Fuse

variable {F : Type} [Field F] [LinearOrder F]

/-- The scores by node as a vector, before they are sorted. -/
def entries (breakdowns : AList fun _ : ℤ => ScoreBreakdown F) : List (ℤ × ScoreBreakdown F) :=
  breakdowns.entries.map fun e => (e.1, e.2)

structure WeightedFusion (F : Type) where
  alpha : F

namespace WeightedFusion

variable (fusion : WeightedFusion F)

def maxDist (vecResults : List (VectorResult F)) : F :=
  vecResults.foldl (fun maxDist v => if maxDist < v.distance then v.distance else maxDist) 1

/-- The score of a distance; the constant is `1e-6F`. -/
def vectorScore (maxDist distance : F) : F := 1 - distance / (maxDist + 1 / 10 ^ 6)

/-- The metadata score of a node, that of its last result. -/
def metaScores (metaResults : List (MetadataResult F)) (nodeId : ℤ) : F :=
  ((metaResults.reverse.find? fun m => m.nodeId = nodeId).map MetadataResult.score).getD 0

/-- What a hit leaves for its node, whatever was there. -/
def ofHit (maxDist : F) (metaResults : List (MetadataResult F)) (hit : VectorResult F × ℤ) :
    ScoreBreakdown F :=
  let vScore := vectorScore maxDist hit.1.distance
  let mScore := metaScores metaResults hit.2
  ⟨vScore, mScore, fusion.alpha * vScore + (1 - fusion.alpha) * mScore, "WeightedFusion"⟩

/-- What a metadata result leaves for a node that is not there yet. -/
def ofMetadata (m : MetadataResult F) : ScoreBreakdown F :=
  ⟨0, m.score, (1 - fusion.alpha) * m.score, "WeightedFusion"⟩

def breakdowns (hits : List (VectorResult F × ℤ)) (maxDist : F)
    (metaResults : List (MetadataResult F)) : AList fun _ : ℤ => ScoreBreakdown F :=
  KeyedFold.fold MetadataResult.nodeId (fun o m => o.getD (fusion.ofMetadata m)) metaResults
    (KeyedFold.fold Prod.snd (fun _ hit => fusion.ofHit maxDist metaResults hit) hits ∅)

/-- `WeightedFusion::Fuse`. Nothing when there are fewer node ids than hits. -/
def fuse (sort : StdSort (FusedFirst (F := F))) (vecResults : List (VectorResult F))
    (vecNodeIds : List ℤ) (metaResults : List (MetadataResult F)) :
    Option (List (ℤ × ScoreBreakdown F)) :=
  (vecResults.zipIdx.mapM fun v => vecNodeIds[v.2]?.map fun nodeId => (v.1, nodeId)).map fun hits =>
    sort.sort (entries (fusion.breakdowns hits (maxDist vecResults) metaResults))

end WeightedFusion

/-- The constant is positive, by default and as `Configure` accepts it. -/
structure RRFFusion (F : Type) [Zero F] [LT F] where
  k : F
  k_pos : 0 < k

namespace RRFFusion

variable (fusion : RRFFusion F)

/-- The reciprocal of a rank. -/
def rrf (rank : ℕ) : F := 1 / (fusion.k + ((rank + 1 : ℕ) : F))

/-- A default breakdown. -/
def zero : ScoreBreakdown F := ⟨0, 0, 0, ""⟩

def addVectorRank (o : Option (ScoreBreakdown F)) (ranked : ℤ × ℕ) : ScoreBreakdown F :=
  let bd := o.getD zero
  { bd with
    vectorScore := fusion.rrf ranked.2
    fusedScore := bd.fusedScore + fusion.rrf ranked.2
    fusionStrategy := "RRFFusion" }

def addMetadataRank (o : Option (ScoreBreakdown F)) (ranked : MetadataResult F × ℕ) :
    ScoreBreakdown F :=
  let bd := o.getD zero
  { bd with
    metadataScore := fusion.rrf ranked.2
    fusedScore := bd.fusedScore + fusion.rrf ranked.2
    fusionStrategy := "RRFFusion" }

def breakdowns (rankedNodes : List ℤ) (metaResults : List (MetadataResult F)) :
    AList fun _ : ℤ => ScoreBreakdown F :=
  KeyedFold.fold (fun ranked => ranked.1.nodeId) fusion.addMetadataRank metaResults.zipIdx
    (KeyedFold.fold Prod.fst fusion.addVectorRank rankedNodes.zipIdx ∅)

/-- The nodes of the hits in the order of their ranks. -/
def rankedNodes (rank : StdSort (NearestFirst (F := F))) (vecResults : List (VectorResult F))
    (vecNodeIds : List ℤ) : Option (List ℤ) :=
  (rank.sort (vecResults.zipIdx.map fun v => (v.2, v.1.distance))).mapM fun ranked =>
    vecNodeIds[ranked.1]?

/-- `RRFFusion::Fuse`. Nothing when there are fewer node ids than hits. -/
def fuse (rank : StdSort (NearestFirst (F := F))) (sort : StdSort (FusedFirst (F := F)))
    (vecResults : List (VectorResult F)) (vecNodeIds : List ℤ)
    (metaResults : List (MetadataResult F)) : Option (List (ℤ × ScoreBreakdown F)) :=
  (rankedNodes rank vecResults vecNodeIds).map fun nodes =>
    sort.sort (entries (fusion.breakdowns nodes metaResults))

end RRFFusion

end Fuse

end SurfaceAi.Retrieval
