import Mathlib.Data.Nat.Notation
import Mathlib.Algebra.Notation.Defs

/-! What a detector hands on: the anomaly map, the region proposals and the
image-level score, with the identity of the inspected surface. The float type is a
parameter. -/

namespace SurfaceAi.Detection

structure Rect where
  x : ℕ := 0
  y : ℕ := 0
  width : ℕ := 0
  height : ℕ := 0
  deriving DecidableEq, Repr

structure AnomalyMap (F : Type*) where
  scores : List F := []
  gridH : ℕ := 0
  gridW : ℕ := 0
  deriving DecidableEq

structure RegionProposal (F : Type*) where
  boundingBox : Rect
  maxAnomalyScore : F
  meanAnomalyScore : F
  areaPixels : ℕ
  deriving DecidableEq

structure DetectionResult (F : Type*) where
  anomalyMap : AnomalyMap F
  regions : List (RegionProposal F)
  imageLevelScore : F
  inferenceLatency : ℕ
  globalFeatures : List F
  surfaceId : String
  positionId : ℕ
  deriving DecidableEq

variable {F : Type*}

/-- `*std::max_element`: the first element no later one exceeds. -/
def maxElement [LT F] [DecidableLT F] (x : F) (xs : List F) : F :=
  xs.foldl (fun best y => if best < y then y else best) x

/-- `MaxScore()`, zero on an empty map. -/
def AnomalyMap.maxScore [Zero F] [LT F] [DecidableLT F] (map : AnomalyMap F) : F :=
  match map.scores with
  | [] => 0
  | x :: xs => maxElement x xs

/-- A value-initialised result. -/
def DetectionResult.default [Zero F] : DetectionResult F where
  anomalyMap := {}
  regions := []
  imageLevelScore := 0
  inferenceLatency := 0
  globalFeatures := []
  surfaceId := ""
  positionId := 0

end SurfaceAi.Detection
