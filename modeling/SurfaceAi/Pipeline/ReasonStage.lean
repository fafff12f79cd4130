import SurfaceAi.Pipeline.StageData

/-! The reasoning stage: the reasoner's result, or its error. Region refinement is
wired in the source but not called. -/

namespace SurfaceAi.Pipeline

open Rules

/-- `IReasoner::Reason`. -/
abbrev Reasoner (D : Type) := FactBase D → List (ResolvedRule D) → Result (ReasoningResult D)

structure ReasonStage (D : Type) where
  stub : Bool
  reasoner : Option (Reasoner D)

/-- A value-initialised result. -/
def ReasoningResult.default {D : Type} [Doubles D] : ReasoningResult D where
  surfaceId := ""
  positionId := 0
  verdict := ""
  severity := Doubles.ofInt 0
  recommendation := ""
  confidence := Doubles.ofInt 0
  triggeredRules := []
  overriddenRules := []

namespace ReasonStage

variable {F D : Type} [Doubles D] (stage : ReasonStage D)

def reason (output : RuleEvalOutput D) : Result (ReasoningResult D) :=
  match if stage.stub then none else stage.reasoner with
  | some reasoner => reasoner output.facts output.rules
  | none => .ok .default

/-- `Process`; the identity of the frame is the one the rules were evaluated under. -/
def process (input : StageData F D) : Result (StageData F D) :=
  match input with
  | .ruleEvalOutput output =>
    (stage.reason output).map fun result => .reasoningResult
      { result with surfaceId := output.surfaceId, positionId := output.positionId }
  | _ => fail .pipelineStageTypeMismatch "Reason expects RuleEvalOutput input"

end ReasonStage

end SurfaceAi.Pipeline
