import SurfaceAi.Detection.CandidateBuffer
import SurfaceAi.Detection.Coreset
import SurfaceAi.Detection.NormalityProfile
import SurfaceAi.Detection.Result

/-! The coreset evolution: frames judged normal but novel are buffered, and a background
loop merges them into the bank. The detector's bank and a standby bank are swapped at
every update. An operation whose behaviour the code leaves undefined (a division by zero,
an access out of range) has no result. -/

namespace SurfaceAi.Detection

open Embeddings

structure EvolutionConfig (F : Type*) where
  enabled : Bool
  normalityK : ℕ := 5
  tailRatioMax : F
  coverageThreshold : F
  buffer : BufferConfig := {}
  targetSize : ℕ := 10000
  greedyPrefilter : ℕ := 5000
  saveOnStop : Bool := true
  coverageSaturationThreshold : F
  saturationWindow : ℕ := 10
  driftAutoRebuild : Bool := false
  evolutionSelfValidation : Bool := true
  validationDegradationThreshold : F
  validationSampleCount : ℕ := 100

structure EvolutionStats where
  framesAdded : ℕ := 0
  updateCount : ℕ := 0
  deriving DecidableEq

/-- The state behind the facade, with the bank of the detector it refers to. -/
structure CoresetEvolution (F : Type*) where
  cfg : EvolutionConfig F
  detectorBank : Option (FeatureBank F)
  activeProfile : NormalityProfile F
  standbyProfile : NormalityProfile F
  buffer : CandidateBuffer F
  stats : EvolutionStats
  standbyBank : Option (FeatureBank F)
  savePath : String
  displacementHistory : List F
  consecutiveSaturationCount : ℕ
  incrementalUpdateCount : ℕ
  evolutionPaused : Bool

/-! ### Construction -/

/-- `InitializeStandbyBank`: a copy of the detector's bank, unless it or the profile is
empty. -/
def initialStandby {F : Type*} (profile : NormalityProfile F) (bank : Option (FeatureBank F)) :
    Option (FeatureBank F) :=
  if profile.dim = 0 then none
  else do
    let active ← bank
    let count := active.numSamples
    if count = 0 then none
    else (FeatureBank.buildFromEmbeddings
      [⟨.fromCpu active.extractAllVectors ⟨active.dim, count, count, 1⟩,
        active.length_extractAllVectors.ge⟩] active.dim count).toOption

def CoresetEvolution.create {F : Type*} (cfg : EvolutionConfig F) (bank : Option (FeatureBank F))
    (profile : NormalityProfile F) : CoresetEvolution F where
  cfg := cfg
  detectorBank := bank
  activeProfile := profile
  standbyProfile := profile
  buffer := ⟨cfg.buffer, [], 0⟩
  stats := {}
  standbyBank := initialStandby profile bank
  savePath := ""
  displacementHistory := []
  consecutiveSaturationCount := 0
  incrementalUpdateCount := 0
  evolutionPaused := false

/-! ### Offering a frame -/

structure NormalityAssessment (F : Type*) where
  normalcyScore : F
  concentrationRatio : F
  tailRatio : F

structure NoveltyResult (F : Type*) where
  isNovel : Bool
  coverageRatio : F
  novelPatchCount : ℕ

/-- The arguments of `AssessAndOffer`. -/
structure Offer (F : Type*) where
  distances : List F
  queryCount : ℕ
  embeddingData : Option (List F)
  gridH : ℕ
  gridW : ℕ
  dim : ℕ
  detResult : DetectionResult F
  matchedRulesCount : ℕ
  reasonerVerdict : String
  effectiveThreshold : F
  pcaImageScore : F
  pcaSelfQueryP95 : F

section Assess

variable {F : Type*} [Zero F] [One F] [Sub F] [Mul F] [Div F] [NatCast F] [LT F] [DecidableLT F]
  [LE F] [DecidableLE F]

def computeNormalcy (distances : List F) (profile : NormalityProfile F) (tailRatioMax : F) :
    NormalityAssessment F :=
  if distances = [] ∨ profile.numSamples = 0 then ⟨0, 0, 0⟩
  else
    let median := (stdSort distances).getD (distances.length / 2) 0
    let concentration := if 0 < profile.p50 then median / profile.p50 else 1
    let tail := NormalityProfile.tailRatio distances profile.p95
    let score :=
      if 0 < tail ∧ 0 < tailRatioMax then NormalityProfile.normalcy tail tailRatioMax else 1
    ⟨score, concentration, tail⟩

def checkNovelty (distances : List F) (profile : NormalityProfile F) (coverageThreshold : F) :
    NoveltyResult F :=
  if distances = [] then ⟨false, 1, 0⟩
  else
    let covered := distances.countP fun d => decide (d < profile.p50)
    let coverage := (covered : F) / (distances.length : F)
    ⟨coverage < coverageThreshold, coverage, distances.length - covered⟩

/-- `MultiSignalConsensusCheck`: all signals say that the frame is normal. -/
def multiSignalConsensusCheck (normalcy : NormalityAssessment F) (offer : Offer F)
    (normalcyThreshold : F) : Bool :=
  ¬normalcy.normalcyScore < normalcyThreshold ∧
    ¬offer.effectiveThreshold ≤ offer.detResult.imageLevelScore ∧
    offer.matchedRulesCount = 0 ∧
    offer.reasonerVerdict = "OK" ∧
    ¬(0 < offer.pcaSelfQueryP95 ∧ offer.pcaSelfQueryP95 ≤ offer.pcaImageScore)

namespace CoresetEvolution

variable (s : CoresetEvolution F)

/-- Count how long the coverage has been saturated; true when the frame is not needed. -/
def noteSaturation (novelty : NoveltyResult F) : Bool × CoresetEvolution F :=
  if s.cfg.coverageSaturationThreshold ≤ novelty.coverageRatio then
    let count := s.consecutiveSaturationCount + 1
    if s.cfg.saturationWindow ≤ count then
      (true, { s with consecutiveSaturationCount := count, evolutionPaused := true })
    else (false, { s with consecutiveSaturationCount := count })
  else (false, { s with consecutiveSaturationCount := 0, evolutionPaused := false })

/-- `AssessAndOffer`. -/
def assessAndOffer (offer : Offer F) : Option (CoresetEvolution F) :=
  match offer.embeddingData with
  | none => some s
  | some data =>
    if ¬s.cfg.enabled ∨ offer.queryCount = 0 ∨ data = [] then some s
    else if offer.distances.length < offer.queryCount then none
    else
      let distances := offer.distances.take offer.queryCount
      let normalcy := computeNormalcy distances s.activeProfile s.cfg.tailRatioMax
      if ¬multiSignalConsensusCheck normalcy offer s.activeProfile.consensusThreshold then some s
      else
        let novelty := checkNovelty distances s.activeProfile s.cfg.coverageThreshold
        if ¬novelty.isNovel then some s
        else
          let (saturated, s) := s.noteSaturation novelty
          if saturated then some s
          else some { s with buffer := (s.buffer.append
            ⟨data, offer.gridH, offer.gridW, offer.dim, normalcy.normalcyScore⟩).2 }

end CoresetEvolution

end Assess

/-! ### The background update -/

/-- How an operation on the banks ends; an installed bank comes with the number of samples
its profile is asked for. -/
inductive UpdateEnd where
  | idle
  | discarded
  | rejected
  | installed (sampleCount : ℕ)
  deriving DecidableEq

/-- How the two writes of a rebuild end. -/
structure RebuildIo where
  saveBank : Result Unit
  saveProfile : Result Unit

section Update

variable {F : Type*}

/-- `PrefilterCandidates`: evenly spaced vectors when there are more than wanted. -/
def prefilterCandidates (vectors : List F) (dim target : ℕ) : Option (List F) :=
  if dim = 0 then none
  else
    let total := vectors.length / dim
    if total ≤ target then some vectors
    else if target = 0 then none
    else
      let stride := max (total / target) 1
      some (((List.range target).takeWhile fun i => i * stride < total).flatMap fun i =>
        Rows.row dim (i * stride) vectors)

variable [Zero F] [One F] [Add F] [Sub F] [Neg F] [Mul F] [LT F] [DecidableLT F] [DecidableEq F]

/-- The merged vectors, reduced to a coreset when they exceed the target size. -/
def selectVectors (cfg : EvolutionConfig F) (dim : ℕ) (existing : List F) : List F :=
  let totalCount := existing.length / dim
  let target := min cfg.targetSize totalCount
  if totalCount ≤ target then existing
  else
    match FeatureBank.buildWithGreedyCoreset [.ofVectors existing dim totalCount 1] dim target with
    | .ok bank => bank.extractAllVectors
    | .error _ => []

/-- The bank an update would install. -/
def updatedBank (cfg : EvolutionConfig F) (dim : ℕ) (standby : FeatureBank F)
    (prefiltered : List F) : Option (FeatureBank F) :=
  let selected := selectVectors cfg dim (standby.extractAllVectors ++ prefiltered)
  if selected = [] then none
  else
    let count := selected.length / dim
    (FeatureBank.buildFromEmbeddings [.ofVectors selected dim count 1] dim count).toOption

namespace CoresetEvolution

variable (s : CoresetEvolution F)

/-- The bank made of the standby bank and a batch; none when the batch is discarded. -/
def nextBank (batch : List (EvolutionCandidate F)) : Option (Option (FeatureBank F)) := do
  let vectors ← flatten batch
  let prefiltered ← prefilterCandidates vectors s.activeProfile.dim s.cfg.greedyPrefilter
  some (s.standbyBank.bind fun standby =>
    updatedBank s.cfg s.activeProfile.dim standby prefiltered)

/-- `SwapFeatureBank` of the detector. -/
def swapFeatureBank (bank : Option (FeatureBank F)) :
    Option (FeatureBank F) × CoresetEvolution F :=
  (s.detectorBank, { s with detectorBank := bank })

variable [Div F] [NatCast F] [LE F] [DecidableLE F] [FloatMath F] (engine : NearestSearch F)

/-- The population deviation check over the last displacements. -/
def driftDetected (history : List F) : Bool :=
  let n := history.length
  let mean := accumulate history / (n : F)
  let stddev := FloatMath.sqrt
    (accumulate (history.map fun d => (d - mean) * (d - mean)) / (n : F))
  let threshold := mean + ((2 : ℕ) : F) * stddev
  0 < stddev ∧ (history.drop (n - 3)).all fun d => decide (threshold < d)

/-- `CheckDrift` over a window of five. -/
def checkDrift (displacement : F) : CoresetEvolution F :=
  let extended := s.displacementHistory ++ [displacement]
  let history := if 5 < extended.length then extended.drop 1 else extended
  let s := { s with displacementHistory := history }
  if history.length < 3 then s
  else if driftDetected history then
    { s with
      consecutiveSaturationCount := 0
      evolutionPaused := false
      standbyBank := if s.cfg.driftAutoRebuild then none else s.standbyBank }
  else s

/-- Install the new bank; the profile is computed on the bank that is now standby. -/
def installUpdate (newBank : FeatureBank F) : Option (CoresetEvolution F) := do
  let (oldBank, s) := s.swapFeatureBank (some newBank)
  let standby ← oldBank
  let profile ← NormalityProfile.computeFast engine standby s.cfg.normalityK 100 s.cfg.tailRatioMax
  some { s with
    standbyBank := some standby
    standbyProfile := s.activeProfile
    activeProfile := profile }

/-- The vectors of the old bank that self-validation queries the new one with. -/
def validationSample (oldBank : FeatureBank F) (sampleCount : ℕ) : List F :=
  let oldN := oldBank.numSamples
  let stride := max (oldN / sampleCount) 1
  (List.range sampleCount).flatMap fun i =>
    Rows.row oldBank.dim (min (i * stride) (oldN - 1)) oldBank.extractAllVectors

/-- The share of the sample that the new bank covers within the profile's median. -/
def newCoverage (oldBank newBank : FeatureBank F) (sampleCount : ℕ) : F :=
  let k := s.cfg.normalityK
  let queries := Rows.rows newBank.dim sampleCount (validationSample oldBank sampleCount)
  let distances := newBank.search engine queries k
  let covered := (List.range sampleCount).countP fun i =>
    decide (distances.getD (i * k + k - 1) 0 < s.activeProfile.p50)
  (covered : F) / (sampleCount : F)

/-- The old bank's normalcy stands for its own coverage. -/
def oldCoverage : F :=
  if s.standbyProfile.selfNormalcy ≤ 0 then ratio 50 100 else s.standbyProfile.selfNormalcy

/-- Whether self-validation fails after the new bank was installed. -/
def selfValidationFails : Option Bool :=
  match s.standbyBank, s.detectorBank with
  | some oldBank, some newBank =>
    if s.cfg.evolutionSelfValidation ∧ 0 < oldBank.numSamples ∧ 0 < newBank.numSamples then
      let sampleCount := min s.cfg.validationSampleCount oldBank.numSamples
      if sampleCount = 0 ∨ s.cfg.normalityK = 0 ∨ oldBank.dim < newBank.dim then none
      else some (decide (s.newCoverage engine oldBank newBank sampleCount <
        s.oldCoverage * s.cfg.validationDegradationThreshold))
    else some false
  | _, _ => some false

/-- Restore the old bank and its profile; the rejected bank becomes the standby bank. -/
def restore : CoresetEvolution F :=
  let (rejected, s) := s.swapFeatureBank s.standbyBank
  { s with standbyBank := rejected, activeProfile := s.standbyProfile }

/-- The bookkeeping after an update, accepted or rejected. -/
def recordUpdate (framesAdded : ℕ) : CoresetEvolution F :=
  { s with
    incrementalUpdateCount := s.incrementalUpdateCount + 1
    stats := ⟨framesAdded, s.stats.updateCount + 1⟩ }.checkDrift 0

/-- The mean normalcy of a batch. -/
def meanNormalcy (batch : List (EvolutionCandidate F)) : F :=
  accumulate (batch.map EvolutionCandidate.normalcyScore) / (batch.length : F)

/-- One iteration of the loop of `Start`. -/
def update : Option (UpdateEnd × CoresetEvolution F) :=
  let (batch, buffer) := s.buffer.drainAll
  let s := { s with buffer }
  if batch.isEmpty then some (.idle, s)
  else if meanNormalcy batch < s.activeProfile.evolutionGate then some (.discarded, s)
  else do
    match ← s.nextBank batch with
    | none => some (.discarded, s)
    | some newBank =>
      let installed ← s.installUpdate engine newBank
      (installed.selfValidationFails engine).map fun fails =>
        if fails then (.rejected, installed.restore.recordUpdate batch.length)
        else (.installed 100, installed.recordUpdate batch.length)

/-! ### The full rebuild -/

/-- The displacement of the mean distance, zero without two profiles to compare. -/
def meanDisplacement (newProfile : NormalityProfile F) : F :=
  if 0 < s.activeProfile.numSamples ∧ 0 < newProfile.numSamples then
    stdAbs (newProfile.mean - s.activeProfile.mean)
  else 0

/-- The samples a rebuild asks the profile for. -/
def rebuildSamples (bank : FeatureBank F) : ℕ :=
  max (FloatMath.toSize (FloatMath.sqrt (bank.numSamples : F))) 1

/-- Install a rebuilt bank with its own profile. -/
def installRebuild (newBank : FeatureBank F) (newProfile : NormalityProfile F)
    (savePath : String) : CoresetEvolution F :=
  let displacement := s.meanDisplacement newProfile
  let (oldBank, s) := s.swapFeatureBank (some newBank)
  { { s with
      standbyBank := oldBank
      standbyProfile := s.activeProfile
      activeProfile := newProfile
      savePath := savePath
      stats := { s.stats with updateCount := s.stats.updateCount + 1 } }.checkDrift displacement with
    incrementalUpdateCount := 0
    consecutiveSaturationCount := 0
    evolutionPaused := false }

/-- All vectors a rebuild selects from. -/
def mergedVectors (batch : List (EvolutionCandidate F)) : Option (List F) :=
  (flatten batch).map fun vectors =>
    (s.standbyBank.elim [] FeatureBank.extractAllVectors) ++ vectors

/-- `FullRebuild`. -/
def fullRebuild (savePath : String) (io : RebuildIo) :
    Option (Result Unit × UpdateEnd × CoresetEvolution F) :=
  let (batch, buffer) := s.buffer.drainAll
  let s := { s with buffer }
  let dim := s.activeProfile.dim
  if dim = 0 then some (.ok (), .discarded, s)
  else do
    let merged ← s.mergedVectors batch
    if merged.isEmpty then some (.ok (), .discarded, s)
    else
      let total := merged.length / dim
      match FeatureBank.buildWithGreedyCoreset [.ofVectors merged dim total 1] dim
          (min s.cfg.targetSize total) with
      | .error e => some (.error e, .discarded, s)
      | .ok newBank =>
        let samples := rebuildSamples newBank
        let newProfile ← NormalityProfile.computeFast engine newBank s.cfg.normalityK samples
          s.cfg.tailRatioMax
        match io.saveBank, io.saveProfile with
        | .error e, _ => some (.error e, .discarded, s)
        | .ok (), .error e => some (.error e, .discarded, s)
        | .ok (), .ok () =>
          some (.ok (), .installed samples, s.installRebuild newBank newProfile savePath)

/-- `Stop`, with the background thread joined. -/
def stop (io : RebuildIo) : Option (UpdateEnd × CoresetEvolution F) :=
  if s.cfg.saveOnStop ∧ s.savePath ≠ "" then
    (s.fullRebuild engine s.savePath io).map Prod.snd
  else some (.idle, s)

end CoresetEvolution

end Update

end SurfaceAi.Detection
