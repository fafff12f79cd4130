import SurfaceAi.Core.Image
import SurfaceAi.Embedding.Embedding
import SurfaceAi.Detection.Result
import SurfaceAi.Rule.RuleEngine

/-! The message between stages: one of the payload types, which a stage asks for by
its tag. The decision trace and the evidence of a reasoning result are carried
through unread and left out. -/

namespace SurfaceAi.Pipeline

open Detection Embeddings Rules

structure RuleEvalOutput (D : Type) where
  facts : FactBase D
  rules : List (ResolvedRule D)
  surfaceId : String
  positionId : ℕ

structure ReasoningResult (D : Type) where
  surfaceId : String
  positionId : ℕ
  verdict : String
  severity : D
  recommendation : String
  confidence : D
  triggeredRules : List String
  overriddenRules : List String

inductive StageData (F D : Type) where
  | rawImage (img : Image)
  | surfaceImage (img : Image)
  | embedding (emb : Embedding F)
  | detectionResult (det : DetectionResult F)
  | ruleEvalOutput (output : RuleEvalOutput D)
  | reasoningResult (result : ReasoningResult D)

end SurfaceAi.Pipeline
