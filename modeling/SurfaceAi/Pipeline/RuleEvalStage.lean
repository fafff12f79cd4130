import SurfaceAi.Pipeline.StageData
import SurfaceAi.Rule.FactBuilder

/-! The rule evaluation stage: which facts it hands to the rule engine. With a fact
builder they come from `build`, whose error is swallowed; without one the bare
detection facts are set. The graph path built for a matching batch has no `->`, so
`build` refuses it and the rules see no detection fact. -/

namespace SurfaceAi.Pipeline

open Detection Knowledge Rules

structure RuleEvalStage (F D : Type) where
  stub : Bool
  ruleEngine : Option (RuleEngine D)
  kg : Option (KnowledgeGraph D)
  factBuilder : Option (FactBuilder F D)
  recorderEnabled : Bool

/-- What `WriteRecord` is given, but for the time. -/
structure InspectionRecord (D : Type) where
  detectionScore : D
  machineVerdict : String
  surfaceId : String
  deriving DecidableEq

section Batch

variable {D : Type}

/-- The batch's `surface` field is this string. -/
def batchOn (surfaceId : String) (batch : KnowledgeNode D) : Bool :=
  match batch.properties.fields.lookup "surface" with
  | some (.string s) => s = surfaceId
  | _ => false

def batchPath (id : ℤ) : String := "batch." ++ toString id ++ ".material.supplier"

/-- The path of the first batch found for the surface. -/
def batchPaths (kg : KnowledgeGraph D) (surfaceId : String) : List String :=
  match kg.findNodesByType "Batch" with
  | .error _ => []
  | .ok batches => ((batches.find? (batchOn surfaceId)).map fun b => batchPath b.id).toList

end Batch

namespace RuleEvalStage

variable {F D : Type} [Zero F] [LT F] [DecidableLT F] [Doubles D] [FloatCasts F D]
  (stage : RuleEvalStage F D)

/-- The surface a result is looked up under. -/
def surfaceKey (det : DetectionResult F) : String :=
  if det.surfaceId = "" then "default" else det.surfaceId

def graphPaths (surfaceId : String) : List String :=
  match stage.kg with
  | some kg => if surfaceId = "default" then [] else batchPaths kg surfaceId
  | none => []

/-- The facts set when there is no builder. -/
def bareFacts (det : DetectionResult F) : FactBase D :=
  FactBase.empty.setDirect "detection.anomaly_score" (.ofFloat det.imageLevelScore)
      "DetectionResult"
    |>.setDirect "detection.image_level_score" (.ofFloat det.imageLevelScore) "DetectionResult"
    |>.setDirect "detection.anomaly_map.max_score" (.ofFloat det.anomalyMap.maxScore)
      "DetectionResult"

/-- The facts before retrieval; a failed build leaves them empty. -/
def builtFacts (det : DetectionResult F) : FactBase D :=
  match stage.factBuilder with
  | some builder =>
    match builder.build (surfaceKey det) det (stage.graphPaths (surfaceKey det)) with
    | .ok fb => fb
    | .error _ => .empty
  | none => bareFacts det

/-- Store the global features and search with them; a failed search changes nothing. -/
def retrieve (builder : FactBuilder F D) (det : DetectionResult F) (fb : FactBase D) :
    FactBase D × FactBuilder F D :=
  if det.globalFeatures = [] then (fb, builder)
  else
    (builder.runVectorRetrieval
      (fb.setDirect "embedding.global" (.list (det.globalFeatures.map Value.ofFloat))
        "CLIP GlobalEmbedder") "embedding.global").2

/-- The facts handed to `EvaluateAll`, and the stage with its builder's cache. -/
def handedFacts (det : DetectionResult F) : FactBase D × RuleEvalStage F D :=
  match stage.factBuilder with
  | some builder =>
    let (fb, builder') := retrieve builder det (stage.builtFacts det)
    (fb, { stage with factBuilder := some builder' })
  | none => (stage.builtFacts det, stage)

/-- The engine `Process` evaluates with, unless the stage is a stub. -/
def activeEngine : Option (RuleEngine D) := if stage.stub then none else stage.ruleEngine

/-- The record for the tuner: `NG` if a matched rule has a positive severity. -/
def inspectionRecord (det : DetectionResult F) (resolved : List (ResolvedRule D)) :
    Option (InspectionRecord D) :=
  if stage.recorderEnabled then
    some ⟨FloatCasts.toDouble det.imageLevelScore,
      if resolved.any fun r => r.matched && Doubles.lt (Doubles.ofInt 0) r.action.baseSeverity
      then "NG" else "OK",
      surfaceKey det⟩
  else none

/-- The output for the rules as evaluated, and the record written on the way. -/
def evaluated (resolveConflicts : List (ResolvedRule D) → List (ResolvedRule D))
    (det : DetectionResult F) (facts : FactBase D) (rules : List (ResolvedRule D)) :
    StageData F D × Option (InspectionRecord D) :=
  (.ruleEvalOutput ⟨facts, resolveConflicts rules, det.surfaceId, det.positionId⟩,
    stage.inspectionRecord det (resolveConflicts rules))

/-- `Process`. Conflict resolution only changes flags after the evaluation and is a
parameter; an undefined rule evaluation leaves the step undefined. -/
def process (w : Wrapper D) (resolveConflicts : List (ResolvedRule D) → List (ResolvedRule D))
    (input : StageData F D) :
    Outcome (StageData F D × Option (InspectionRecord D)) × RuleEvalStage F D :=
  match input with
  | .detectionResult det =>
    match stage.activeEngine with
    | some engine =>
      let (facts, stage') := stage.handedFacts det
      ((engine.evaluateAll w facts).map fun rules =>
        .ok (stage.evaluated resolveConflicts det facts rules), stage')
    | none =>
      (some (.ok (.ruleEvalOutput ⟨.empty, [], det.surfaceId, det.positionId⟩, none)), stage)
  | _ => (some (fail .pipelineStageTypeMismatch "RuleEval expects DetectionResult input"), stage)

end RuleEvalStage

end SurfaceAi.Pipeline
