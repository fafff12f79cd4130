import SurfaceAi.Pipeline.StageData
import SurfaceAi.Rule.FactBuilder

/-! The export stage and the two side channels that reach it past the queues: the pixels
of a frame, set by the preprocessing worker, and its anomaly scores, set by the
detection worker. Each is a single slot that a take empties. -/

namespace SurfaceAi.Pipeline

open Detection Rules

structure AnomalySnapshot (F : Type) where
  scores : List F
  gridH : ℕ
  gridW : ℕ

structure SideChannels (F : Type) where
  currentFrameImage : Option Image
  currentAnomaly : Option (AnomalySnapshot F)

namespace SideChannels

variable {F : Type} (channels : SideChannels F)

/-- `SetFrameImage`: an image without pixels leaves the slot as it is. -/
def setFrameImage (img : Image) : SideChannels F :=
  if img.bytes = [] then channels else { channels with currentFrameImage := some img }

def takeFrameImage : Option Image × SideChannels F :=
  (channels.currentFrameImage, { channels with currentFrameImage := none })

def setAnomalyScores (snapshot : AnomalySnapshot F) : SideChannels F :=
  { channels with currentAnomaly := some snapshot }

def takeAnomalyScores : Option (AnomalySnapshot F) × SideChannels F :=
  (channels.currentAnomaly, { channels with currentAnomaly := none })

/-- What the detection worker does with a result: an empty map is not stored. -/
def captureScores (result : DetectionResult F) : SideChannels F :=
  if result.anomalyMap.scores = [] then channels
  else channels.setAnomalyScores
    ⟨result.anomalyMap.scores, result.anomalyMap.gridH, result.anomalyMap.gridW⟩

end SideChannels

structure DefectRecord (F : Type) where
  label : String
  severity : String
  confidence : F

structure InspectionResult (F : Type) where
  skuId : String
  serialNumber : String
  verdict : String
  defects : List (DefectRecord F)

/-- `IExporter::Export`, with the image if there is one. -/
abbrev Exporter (F : Type) := InspectionResult F → Option Image → Result Unit

structure ExportStage (F : Type) where
  stub : Bool
  exporter : Option (Exporter F)

namespace ExportStage

variable {F D : Type} [FloatCasts F D] (stage : ExportStage F)

def inspectionResult (result : ReasoningResult D) : InspectionResult F where
  skuId := if result.surfaceId = "" then "default" else result.surfaceId
  serialNumber := "pos_" ++ toString result.positionId
  verdict := result.verdict
  defects := result.triggeredRules.map fun rule =>
    ⟨rule, result.verdict, FloatCasts.toFloat result.confidence⟩

def activeExporter : Option (Exporter F) := if stage.stub then none else stage.exporter

/-- `Process`, with the channels left behind and the scores a heatmap is written from. -/
def process (channels : SideChannels F) (input : StageData F D) :
    Result (StageData F D) × SideChannels F × Option (AnomalySnapshot F) :=
  match input with
  | .reasoningResult result =>
    match stage.activeExporter with
    | some exporter =>
      let (image, channels') := channels.takeFrameImage
      match exporter (inspectionResult result) image with
      | .error e => (.error e, channels', none)
      | .ok () =>
        let (anomaly, channels'') := channels'.takeAnomalyScores
        (.ok (.reasoningResult result), channels'', anomaly)
    | none => (.ok (.reasoningResult result), channels, none)
  | _ => (fail .pipelineStageTypeMismatch "Export expects ReasoningResult input", channels, none)

end ExportStage

end SurfaceAi.Pipeline
