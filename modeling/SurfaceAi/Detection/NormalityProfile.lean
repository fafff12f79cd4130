import SurfaceAi.Core.Arithmetic
import SurfaceAi.Detection.FeatureBank

/-! The normality profile of a bank: how far its own vectors are from their neighbours.
All gates of the coreset evolution are derived from it. Single and double precision are
one type here. -/

namespace SurfaceAi.Detection

structure NormalityProfile (F : Type*) where
  kNearest : ℕ
  dim : ℕ
  numSamples : ℕ
  p50 : F
  p95 : F
  p99 : F
  mean : F
  stddev : F
  selfNormalcy : F
  deriving DecidableEq

/-- A decimal fraction. -/
def ratio {F : Type*} [NatCast F] [Div F] (numerator denominator : ℕ) : F :=
  (numerator : F) / (denominator : F)

/-- `std::sort`, ascending. -/
def stdSort {F : Type*} [LT F] [DecidableLT F] (xs : List F) : List F :=
  xs.insertionSort fun a b => ¬b < a

/-- `std::abs`. -/
def stdAbs {F : Type*} [Zero F] [Neg F] [LT F] [DecidableLT F] (x : F) : F :=
  if x < 0 then -x else x

namespace NormalityProfile

variable {F : Type*} [Zero F]

/-- A value-initialised profile. -/
def default : NormalityProfile F := ⟨5, 0, 0, 0, 0, 0, 0, 0, 0⟩

variable [One F] [Add F] [Sub F] [Mul F] [Div F] [NatCast F] [LT F] [DecidableLT F]

/-- `1 - min(1, tail / tailMax)`, where a tail share exceeds a positive limit in part. -/
def normalcy (tailRatio tailRatioMax : F) : F := 1 - stdMin 1 (tailRatio / tailRatioMax)

/-- The share of the distances above a bound. -/
def tailRatio (distances : List F) (bound : F) : F :=
  ((distances.countP fun d => decide (bound < d) : ℕ) : F) / (distances.length : F)

variable [FloatMath F]

/-- The entry at a fraction of a sorted list. -/
def percentile (sorted : List F) (p : F) : F :=
  sorted.getD (min (FloatMath.toSize (p * ((sorted.length - 1 : ℕ) : F))) (sorted.length - 1)) 0

/-- The profile of the sorted self-query distances. -/
def ofDistances (k dim numSamples : ℕ) (sorted : List F) (tailRatioMax : F) :
    NormalityProfile F :=
  let count : F := (sorted.length : F)
  let mean := accumulate sorted / count
  let p95 := percentile sorted (ratio 95 100)
  { kNearest := k
    dim := dim
    numSamples := numSamples
    p50 := percentile sorted (ratio 50 100)
    p95 := p95
    p99 := percentile sorted (ratio 99 100)
    mean := mean
    stddev := FloatMath.sqrt (accumulate (sorted.map fun d => (d - mean) * (d - mean)) / count)
    selfNormalcy := if 0 < tailRatioMax then normalcy (tailRatio sorted p95) tailRatioMax else 1 }

/-- The distance of vector `i` to its `k`-th neighbour beside itself. -/
def selfDistance (engine : NearestSearch F) (bank : FeatureBank F) (k i : ℕ) : F :=
  (bank.search engine [Rows.row bank.dim i bank.extractAllVectors] (k + 1)).getLastD 0

/-- `ComputeFast`: self-queries of evenly spaced vectors. Undefined without a sample. -/
def computeFast (engine : NearestSearch F) (bank : FeatureBank F) (k sampleCount : ℕ)
    (tailRatioMax : F) : Option (NormalityProfile F) :=
  let num := bank.numSamples
  if num = 0 then some default
  else
    let actualSamples := min sampleCount num
    if actualSamples = 0 then none
    else
      let stride := max (num / actualSamples) 1
      let distances := (List.range actualSamples).map fun i =>
        selfDistance engine bank k (min (i * stride) (num - 1))
      some (ofDistances k bank.dim num (stdSort distances) tailRatioMax)

variable [LE F] [DecidableLE F] (profile : NormalityProfile F)

/-- `ConsensusThreshold`, with a fallback for a profile without samples. -/
def consensusThreshold : F :=
  if profile.selfNormalcy ≤ 0 then ratio 40 100 else profile.selfNormalcy * ratio 8 10

def evolutionGate : F :=
  if profile.selfNormalcy ≤ 0 then ratio 30 100 else profile.selfNormalcy * ratio 7 10

end NormalityProfile

end SurfaceAi.Detection
