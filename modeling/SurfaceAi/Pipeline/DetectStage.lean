import SurfaceAi.Detection.Coreset
import SurfaceAi.Detection.PatchCore
import SurfaceAi.Pipeline.Stage
import SurfaceAi.Pipeline.StageData
import Mathlib.Data.List.AList

/-! The detection stage: choose the detector of the frame's surface and position and
run it. A failed detection is answered by a default result, never by an error. While
bootstrapping, frames without a detector are collected until a bank can be built. -/

namespace SurfaceAi.Pipeline

open Detection Embeddings

/-- The implementations of `IDetector`. -/
inductive Detector (F : Type) where
  | patchCore (core : PatchCore F)
  | pca (detector : PcaDetector F)

structure BootstrapState (F : Type) where
  vectors : List F := []
  dim : ℕ := 0
  gridH : ℕ := 0
  gridW : ℕ := 0
  frameCount : ℕ := 0

structure DetectStage (F : Type) where
  detectors : AList fun _ : BankKey => Detector F
  defaultDetector : Option (Detector F)
  stub : Bool
  bootstrapEnabled : Bool
  bootstrapMinFrames : ℕ
  bootstrapTargetSize : ℕ
  bootstrapStates : AList fun _ : BankKey => BootstrapState F

section Detect

variable {F : Type} [Zero F] [One F] [Add F] [Sub F] [Mul F] [Div F] [Neg F] [NatCast F]
  [LT F] [DecidableLT F] [FloatMath F]

/-- `IDetector::Detect`; only the nearest-neighbour detector keeps a trace of the frame. -/
def Detector.detect (engine : NearestSearch F) (latency : ℕ) (embedding : Embedding F) :
    Detector F → Result (DetectionResult F) × Detector F
  | .patchCore core =>
    let (result, core') := core.detect engine latency embedding
    (result, .patchCore core')
  | .pca detector => (detector.detect latency embedding, .pca detector)

end Detect

/-! ### Bootstrap -/

section Bootstrap

variable {F : Type}

/-- Every how many patches one is kept; zero divisors leave it undefined. -/
def bootstrapStride (targetSize minFrames patchCount : ℕ) : Option ℕ :=
  if minFrames = 0 then none
  else
    let targetPerFrame := targetSize / minFrames
    if targetPerFrame < patchCount then
      if targetPerFrame = 0 then none else some (max (patchCount / targetPerFrame) 1)
    else some 1

/-- Every `stride`-th patch; undefined when one of them is not in the data. -/
def sampledPatches (embedding : Embedding F) (stride : ℕ) : Option (List F) :=
  let m := embedding.embeddingMeta
  let indices := (List.range (m.gridH * m.gridW)).filter fun i => i % stride = 0
  if indices.all fun i => i * m.dim + m.dim ≤ embedding.data.length then
    some (indices.flatMap fun i => Rows.row m.dim i embedding.data)
  else none

/-- The shape is taken from the first frame. -/
def BootstrapState.shaped (state : BootstrapState F) (m : EmbeddingMeta) : BootstrapState F :=
  if state.dim = 0 then { state with dim := m.dim, gridH := m.gridH, gridW := m.gridW } else state

variable [Zero F] [One F] [Add F] [Sub F] [Mul F] [Div F] [Neg F] [NatCast F] [LT F]
  [DecidableLT F] [DecidableEq F]

/-- The configuration of a bootstrapped detector, the other fields at their defaults. -/
def bootstrapConfig (state : BootstrapState F) : PatchCoreConfig F where
  kNearest := 5
  gaussianSigma := 4
  imageWidth := state.gridW
  imageHeight := state.gridH
  patchSize := 14
  embedDim := 1024
  dropK := 0
  hybridAlpha := 1 / (2 : ℕ)
  pcaScoreMethod := .reconstruction

/-- A detector that has not been initialised, with an injected bank. -/
def bootstrapDetector (state : BootstrapState F) (bank : FeatureBank F) : PatchCore F where
  cfg := bootstrapConfig state
  featureBank := some bank
  lastCtx := ⟨[], 0, [], 0, 0, 0, .default, 0, 0, 0⟩
  whiteningParams := none
  effectiveThreshold := (4 : ℕ) / (5 : ℕ)
  refDist := 1
  pcaParams := none

/-- Build the bank from what was collected, and register a detector if that succeeds. -/
def DetectStage.register (stage : DetectStage F) (key : BankKey) (state : BootstrapState F)
    (dim : ℕ) : Option (DetectStage F) :=
  if dim = 0 then none
  else
    let sampleCount := state.vectors.length / dim
    let erased := { stage with bootstrapStates := stage.bootstrapStates.erase key }
    match FeatureBank.buildWithGreedyCoreset [.ofVectors state.vectors dim 1 sampleCount] dim
        (min stage.bootstrapTargetSize sampleCount) with
    | .error _ => some erased
    | .ok bank => some { erased with
        detectors := stage.detectors.insert key (.patchCore (bootstrapDetector state bank))
        stub := false }

/-- Collect one frame, and register when there are enough. -/
def DetectStage.bootstrap (stage : DetectStage F) (key : BankKey) (embedding : Embedding F) :
    Option (DetectStage F) := do
  let m := embedding.embeddingMeta
  let state := ((stage.bootstrapStates.lookup key).getD {}).shaped m
  let stride ← bootstrapStride stage.bootstrapTargetSize stage.bootstrapMinFrames
    (m.gridH * m.gridW)
  let patches ← sampledPatches embedding stride
  let state' := { state with
    vectors := state.vectors ++ patches, frameCount := state.frameCount + 1 }
  if stage.bootstrapMinFrames ≤ state'.frameCount then stage.register key state' m.dim
  else some { stage with bootstrapStates := stage.bootstrapStates.insert key state' }

end Bootstrap

/-! ### Process -/

namespace DetectStage

variable {F D : Type} [Zero F] [One F] [Add F] [Sub F] [Mul F] [Div F] [Neg F] [NatCast F]
  [LT F] [DecidableLT F] [DecidableEq F] [FloatMath F] (stage : DetectStage F)
  (engine : NearestSearch F) (latency : ℕ)

def bankKey (embedding : Embedding F) : BankKey := (embedding.surfaceId, embedding.positionId)

/-- The detection proper, by the key's own detector or else by the default one. -/
def runDetector (embedding : Embedding F) : DetectionResult F × DetectStage F :=
  if stage.stub then (.default, stage)
  else
    match stage.detectors.lookup (bankKey embedding) with
    | some detector =>
      let (result, detector') := detector.detect engine latency embedding
      (result.toOption.getD .default,
        { stage with detectors := stage.detectors.insert (bankKey embedding) detector' })
    | none =>
      match stage.defaultDetector with
      | some detector =>
        let (result, detector') := detector.detect engine latency embedding
        (result.toOption.getD .default, { stage with defaultDetector := some detector' })
      | none => (.default, stage)

/-- Carry the global features and the identity of the frame forward. -/
def carryForward (embedding : Embedding F) (result : DetectionResult F) : DetectionResult F :=
  { result with
    globalFeatures :=
      if embedding.globalFeatures = [] then result.globalFeatures else embedding.globalFeatures
    surfaceId := if embedding.surfaceId = "" then result.surfaceId else embedding.surfaceId
    positionId := embedding.positionId }

def process (input : StageData F D) : Outcome (StageData F D) × DetectStage F :=
  match input with
  | .embedding embedding =>
    if (stage.detectors.lookup (bankKey embedding)).isNone ∧ stage.bootstrapEnabled then
      match stage.bootstrap (bankKey embedding) embedding with
      | none => (none, stage)
      | some stage' =>
        (some (.ok (.detectionResult { DetectionResult.default with
          surfaceId := embedding.surfaceId, positionId := embedding.positionId })), stage')
    else
      let (result, stage') := stage.runDetector engine latency embedding
      (some (.ok (.detectionResult (carryForward embedding result))), stage')
  | _ => (some (fail .pipelineStageTypeMismatch "Detect expects Embedding input"), stage)

end DetectStage

end SurfaceAi.Pipeline
