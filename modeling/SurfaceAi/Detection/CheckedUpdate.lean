import SurfaceAi.Detection.CoresetEvolution
import SurfaceAi.Library.Checked
import SurfaceAi.Library.Returns

/-! An iteration of the update loop with every division, subscript and copied range checked. The
configuration and the profile come from documents whose numbers nothing checks, so here a zero in
one of them is a division by zero, or a subscript before a buffer's start. -/

namespace SurfaceAi.Detection

open Checked Embeddings

variable {F : Type}

/-- `PrefilterCandidates`. -/
def prefilterCandidatesChecked (vectors : List F) (dim target : ℕ) : Option (List F) := do
  let total ← divide vectors.length dim
  if total ≤ target then return vectors
  else do
    let stride := max (← divide total target) 1
    let rows ← ((List.range target).takeWhile fun i => i * stride < total).mapM fun i =>
      slice vectors (i * stride * dim) dim
    return rows.flatten

section Profile

variable [Zero F] [One F] [Add F] [Sub F] [Mul F] [Div F] [NatCast F] [LT F] [DecidableLT F]
  [FloatMath F] (engine : NearestSearch F)

namespace NormalityProfile

/-- The last entry of a self-query; `k + 1` is a `std::size_t`. -/
def selfDistanceChecked (bank : FeatureBank F) (k i : ℕ) : Option F := do
  let query ← slice bank.extractAllVectors (i * bank.dim) bank.dim
  (bank.search engine [query] ((k + 1) % 2 ^ 64)).getLast?

def percentileChecked (sorted : List F) (p : F) : Option F :=
  sorted[min (FloatMath.toSize (p * ((sorted.length - 1 : ℕ) : F))) (sorted.length - 1)]?

/-- `ComputeFast`. -/
def computeFastChecked (bank : FeatureBank F) (k sampleCount : ℕ) (tailRatioMax : F) :
    Option (NormalityProfile F) :=
  let num := bank.numSamples
  if num = 0 then some default
  else do
    let actualSamples := min sampleCount num
    let stride := max (← divide num actualSamples) 1
    let distances ← (List.range actualSamples).mapM fun i =>
      selfDistanceChecked engine bank k (min (i * stride) (num - 1))
    let sorted := stdSort distances
    let p50 ← percentileChecked sorted (ratio 50 100)
    let p95 ← percentileChecked sorted (ratio 95 100)
    let p99 ← percentileChecked sorted (ratio 99 100)
    return { ofDistances k bank.dim num sorted tailRatioMax with p50 := p50, p95 := p95, p99 := p99 }

end NormalityProfile

end Profile

section Update

variable [Zero F] [One F] [Add F] [Sub F] [Neg F] [Mul F] [LT F] [DecidableLT F] [DecidableEq F]

/-- The merge; the rows that a builder reads are in the embedding it is given. -/
def updatedBankChecked (cfg : EvolutionConfig F) (dim : ℕ) (standby : FeatureBank F)
    (prefiltered : List F) : Option (Option (FeatureBank F)) := do
  let existing := standby.extractAllVectors ++ prefiltered
  let totalCount ← divide existing.length dim
  let target := min cfg.targetSize totalCount
  let selected :=
    if totalCount ≤ target then existing
    else
      match FeatureBank.buildWithGreedyCoreset [.ofVectors existing dim totalCount 1] dim target with
      | .ok bank => bank.extractAllVectors
      | .error _ => []
  if selected = [] then return none
  else do
    let count ← divide selected.length dim
    return (FeatureBank.buildFromEmbeddings [.ofVectors selected dim count 1] dim count).toOption

def validationSampleChecked (oldBank : FeatureBank F) (sampleCount : ℕ) : Option (List F) := do
  let oldN := oldBank.numSamples
  let stride := max (← divide oldN sampleCount) 1
  let rows ← (List.range sampleCount).mapM fun i =>
    slice oldBank.extractAllVectors (min (i * stride) (oldN - 1) * oldBank.dim) oldBank.dim
  return rows.flatten

namespace CoresetEvolution

variable (s : CoresetEvolution F)

def nextBankChecked (batch : List (EvolutionCandidate F)) : Option (Option (FeatureBank F)) := do
  let vectors ← flatten batch
  let prefiltered ←
    prefilterCandidatesChecked vectors s.activeProfile.dim s.cfg.greedyPrefilter
  match s.standbyBank with
  | none => return none
  | some standby => updatedBankChecked s.cfg s.activeProfile.dim standby prefiltered

variable [Div F] [NatCast F] [LE F] [DecidableLE F] [FloatMath F] (engine : NearestSearch F)

/-- The old bank is dereferenced for its profile. -/
def installUpdateChecked (newBank : FeatureBank F) : Option (CoresetEvolution F) := do
  let (oldBank, s) := s.swapFeatureBank (some newBank)
  let standby ← oldBank
  let profile ← NormalityProfile.computeFastChecked engine standby s.cfg.normalityK 100
    s.cfg.tailRatioMax
  return { s with
    standbyBank := some standby
    standbyProfile := s.activeProfile
    activeProfile := profile }

/-- A search reads its queries row by row, each of the new bank's dimension. -/
def newCoverageChecked (oldBank newBank : FeatureBank F) (sampleCount : ℕ) : Option F := do
  let k := s.cfg.normalityK
  let sampled ← validationSampleChecked oldBank sampleCount
  let queries ← (List.range sampleCount).mapM fun i => slice sampled (i * newBank.dim) newBank.dim
  let distances := newBank.search engine queries k
  let kth ← (List.range sampleCount).mapM fun i => distances[i * k + k - 1]?
  let covered := kth.countP fun d => decide (d < s.activeProfile.p50)
  return (covered : F) / (sampleCount : F)

def selfValidationFailsChecked : Option Bool :=
  match s.standbyBank, s.detectorBank with
  | some oldBank, some newBank =>
    if s.cfg.evolutionSelfValidation ∧ 0 < oldBank.numSamples ∧ 0 < newBank.numSamples then do
      let coverage ← s.newCoverageChecked engine oldBank newBank
        (min s.cfg.validationSampleCount oldBank.numSamples)
      return coverage < s.oldCoverage * s.cfg.validationDegradationThreshold
    else some false
  | _, _ => some false

def processBatchChecked (batch : List (EvolutionCandidate F)) :
    Option (UpdateEnd × CoresetEvolution F) :=
  if batch.isEmpty then some (.idle, s)
  else if meanNormalcy batch < s.activeProfile.evolutionGate then some (.discarded, s)
  else do
    match ← s.nextBankChecked batch with
    | none => return (.discarded, s)
    | some newBank =>
      let installed ← s.installUpdateChecked engine newBank
      let fails ← installed.selfValidationFailsChecked engine
      return if fails then (.rejected, installed.restore.recordUpdate batch.length)
        else (.installed 100, installed.recordUpdate batch.length)

/-- One iteration of the loop of `Start`. -/
def updateChecked : Option (UpdateEnd × CoresetEvolution F) :=
  let (batch, buffer) := s.buffer.drainAll
  { s with buffer }.processBatchChecked engine batch

end CoresetEvolution

end Update

end SurfaceAi.Detection
