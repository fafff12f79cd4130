import SurfaceAi.Detection.FeatureBank
import SurfaceAi.Detection.PostProcess
import SurfaceAi.Embedding.PcaScoring

/-! The nearest-neighbour detector. A patch's score is its smallest distance to the
bank over a reference distance, mixed with a PCA score when a PCA model is loaded.
Every detection leaves its context in one slot. -/

namespace SurfaceAi.Detection

open Embeddings

structure PatchCoreConfig (F : Type*) where
  kNearest : ℕ
  gaussianSigma : ℕ
  imageWidth : ℕ
  imageHeight : ℕ
  patchSize : ℕ
  embedDim : ℕ
  dropK : ℕ
  hybridAlpha : F
  pcaScoreMethod : PcaScoreMethod

/-- The context of the last detection, for the coreset evolution. -/
structure DetectionContext (F : Type*) where
  knnDistances : List F
  kNearest : ℕ
  embeddingData : List F
  gridH : ℕ
  gridW : ℕ
  dim : ℕ
  detectionResult : DetectionResult F
  effectiveThreshold : F
  pcaImageScore : F
  pcaSelfQueryP95 : F

structure PatchCore (F : Type*) where
  cfg : PatchCoreConfig F
  featureBank : Option (FeatureBank F)
  lastCtx : DetectionContext F
  whiteningParams : Option (WhiteningParams F)
  effectiveThreshold : F
  refDist : F
  pcaParams : Option (PcaParams F)

section Normalise

variable {F : Type*} [Zero F] [Div F] [LT F] [DecidableLT F]

/-- The largest of the raw scores of a frame. -/
def largest (scores : List F) : F :=
  match scores with
  | [] => 0
  | x :: xs => maxElement x xs

/-- Divide a frame's scores by the largest of them when that is positive. -/
def normaliseByLargest (scores : List F) : List F :=
  let m := largest scores
  if 0 < m then scores.map (· / m) else scores

end Normalise

namespace PatchCore

variable {F : Type*} [Zero F] [One F] [Add F] [Sub F] [Mul F] [Div F] [Neg F] [NatCast F]
  [LT F] [DecidableLT F] [FloatMath F]

/-- `ApplyWhitening` on one row. -/
def whiten (wp : WhiteningParams F) (inputDim : ℕ) (x : List F) : List F :=
  (List.range wp.targetDim).map fun t => dot (Rows.row inputDim t wp.transform) x

variable (core : PatchCore F)

/-- The rows the bank is searched with. -/
def queryRows (bank : FeatureBank F) (data : List F) (queryCount : ℕ) : List (List F) :=
  match core.whiteningParams with
  | some wp =>
    (Rows.rows core.cfg.embedDim queryCount data).map (whiten wp core.cfg.embedDim)
  | none => Rows.rows bank.dim queryCount data

/-- The distance to the nearest bank vector over the reference distance. -/
def distanceScore (distance : F) : F :=
  if 0 < core.refDist then distance / core.refDist else distance

/-- The nearest distance of every query row, normalised. -/
def distanceScores (distances : List F) (queryCount : ℕ) : List F :=
  (List.range queryCount).map fun i =>
    core.distanceScore (distances.getD (i * core.cfg.kNearest) 0)

/-- Mix in the PCA scores, these normalised by the frame's largest one. -/
def hybridScores (pca : PcaParams F) (data : List F) (queryCount : ℕ) (scores : List F) :
    List F :=
  let pcaScores := normaliseByLargest
    (pca.score data queryCount core.cfg.pcaScoreMethod core.cfg.dropK)
  List.zipWith (fun s p => core.cfg.hybridAlpha * s + (1 - core.cfg.hybridAlpha) * p)
    scores pcaScores

def patchScores (distances data : List F) (queryCount : ℕ) : List F :=
  let scores := core.distanceScores distances queryCount
  match core.pcaParams with
  | none => scores
  | some pca => core.hybridScores pca data queryCount scores

/-- The context `Detect` leaves behind. -/
def contextOf (distances data : List F) (gridH gridW : ℕ) (result : DetectionResult F) :
    DetectionContext F where
  knnDistances := distances
  kNearest := core.cfg.kNearest
  embeddingData := data.take (gridH * gridW * core.cfg.embedDim)
  gridH := gridH
  gridW := gridW
  dim := core.cfg.embedDim
  detectionResult := result
  effectiveThreshold := core.effectiveThreshold
  pcaImageScore := 0
  pcaSelfQueryP95 := 0

/-- `PatchCore::Detect`, with the measured latency. -/
def detect (engine : NearestSearch F) (latency : ℕ) (embedding : Embedding F) :
    Result (DetectionResult F) × PatchCore F :=
  match core.featureBank with
  | none => (fail .detectionFeatureBankLoadFailed
      "PatchCore not initialized — FeatureBank not loaded", core)
  | some bank =>
    let gridH := embedding.embeddingMeta.gridH
    let gridW := embedding.embeddingMeta.gridW
    match validatePatchGrid gridH gridW core.cfg.imageHeight core.cfg.imageWidth
        core.cfg.patchSize with
    | .error e => (.error e, core)
    | .ok () =>
      let queryCount := gridH * gridW
      let distances := bank.search engine (core.queryRows bank embedding.data queryCount)
        core.cfg.kNearest
      if distances = [] then
        (fail .detectionFeatureBankLoadFailed "k-NN search returned empty distances", core)
      else
        let result := buildDetectionResult
          (core.patchScores distances embedding.data queryCount) gridH gridW
          core.cfg.imageHeight core.cfg.imageWidth core.cfg.gaussianSigma
          core.effectiveThreshold latency
        (.ok result,
          { core with lastCtx := core.contextOf distances embedding.data gridH gridW result })

end PatchCore

/-! The PCA detector: a patch's score is its PCA score over the largest one of the
frame. -/

structure PcaDetectorConfig (F : Type*) where
  scoreMethod : PcaScoreMethod
  dropK : ℕ
  anomalyThreshold : F
  gaussianSigma : ℕ
  imageWidth : ℕ
  imageHeight : ℕ
  patchSize : ℕ

/-- The model is absent until `Initialize` has loaded it. -/
structure PcaDetector (F : Type*) where
  cfg : PcaDetectorConfig F
  pcaParams : Option (PcaParams F)

namespace PcaDetector

variable {F : Type*} [Zero F] [One F] [Add F] [Sub F] [Mul F] [Div F] [Neg F] [NatCast F]
  [LT F] [DecidableLT F] [FloatMath F] (detector : PcaDetector F)

/-- The scores before normalisation. -/
def rawScores (pca : PcaParams F) (embedding : Embedding F) : List F :=
  pca.score embedding.data
    (embedding.embeddingMeta.gridH * embedding.embeddingMeta.gridW) detector.cfg.scoreMethod
    detector.cfg.dropK

/-- `PcaDetector::Detect`, with the measured latency. -/
def detect (latency : ℕ) (embedding : Embedding F) : Result (DetectionResult F) :=
  match detector.pcaParams with
  | none => fail .detectionFeatureBankLoadFailed
      "PcaDetector not initialized — PCA model not loaded"
  | some pca =>
    let gridH := embedding.embeddingMeta.gridH
    let gridW := embedding.embeddingMeta.gridW
    match validatePatchGrid gridH gridW detector.cfg.imageHeight detector.cfg.imageWidth
        detector.cfg.patchSize with
    | .error e => .error e
    | .ok () =>
      let scores := detector.rawScores pca embedding
      if scores = [] then
        fail .detectionFeatureBankLoadFailed "PCA scoring returned empty scores"
      else
        .ok (buildDetectionResult (normaliseByLargest scores) gridH gridW
          detector.cfg.imageHeight detector.cfg.imageWidth detector.cfg.gaussianSigma
          detector.cfg.anomalyThreshold latency)

end PcaDetector

end SurfaceAi.Detection
