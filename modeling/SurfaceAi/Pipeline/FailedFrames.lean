import SurfaceAi.Pipeline.DetectStage
import SurfaceAi.Pipeline.ExportStage
import SurfaceAi.Pipeline.InferenceStage
import SurfaceAi.Pipeline.ReasonStage
import SurfaceAi.Pipeline.RuleEvalStage
import Mathlib

/-! What becomes of a frame whose anomaly scores could not be obtained. Neither the
inference nor the detection stage returns an error for it: the rules judge a default
result, and the verdict is exported like any other. -/

namespace SurfaceAi.Pipeline

open Detection Embeddings Rules

/-! ### The stages of a frame -/

/-- The stages from inference on, with the search of the feature bank. -/
structure InspectionLine (F D : Type) where
  inference : InferenceStage F
  detect : DetectStage F
  ruleEval : RuleEvalStage F D
  reason : ReasonStage D
  exportStage : ExportStage F
  engine : NearestSearch F

/-- What one frame leaves in the counters of the first two stages, what the rules are
evaluated on for it, and what the result callback is given. -/
structure FrameRun (F D : Type) where
  inferenceMetrics : StageMetrics
  detectMetrics : StageMetrics
  evaluated : Option (DetectionResult F)
  reported : Option (ReasoningResult D)

/-- The steps a frame's anomaly scores need, in the order they are taken. -/
inductive FailedStep where
  | gpuPool | fromPool | copyToDevice | extract | copyToHost | detect
  deriving DecidableEq, Repr

/-- The features of the image, or the first step that fails on the way to them. -/
def InferenceStage.extraction {F : Type} (stage : InferenceStage F) (copies : DeviceCopies)
    (extract : Embedder F) (img : Image) : Except FailedStep (Embedding F) :=
  match stage.gpuPool with
  | none => .error .gpuPool
  | some pool =>
    if hasValue (pool.fromPool img.imageMeta) = false then .error .fromPool
    else if copies.toDevice = false then .error .copyToDevice
    else
      match extract img with
      | .error _ => .error .extract
      | .ok extracted =>
        if extracted.onGpu ∧ copies.toHost = false then .error .copyToHost
        else .ok (download copies extracted)

/-- The embedding the inference stage hands on. -/
def InferenceStage.handed {F : Type} (stage : InferenceStage F) (copies : DeviceCopies)
    (img : Image) : Embedding F :=
  carryIdentity img.imageMeta (stage.globalFeatures img (stage.patchEmbedding copies img))

namespace InspectionLine

variable {F D : Type} [Zero F] [One F] [Add F] [Sub F] [Mul F] [Div F] [Neg F] [NatCast F]
  [LT F] [DecidableLT F] [DecidableEq F] [FloatMath F] [Doubles D] [FloatCasts F D]
  (line : InspectionLine F D) (w : Wrapper D)
  (resolveConflicts : List (ResolvedRule D) → List (ResolvedRule D))
  (channels : SideChannels F) (copies : DeviceCopies) (latency : ℕ)

/-- Rules, reasoning and export on one detection result: what the callback is given. -/
def judge (det : DetectionResult F) : Option (ReasoningResult D) := do
  let evaluated ← (line.ruleEval.process w resolveConflicts (.detectionResult det)).1
  let reasoned ← (evaluated.toOption.bind fun out => (line.reason.process out.1).toOption)
  match (line.exportStage.process channels reasoned).1 with
  | .ok (.reasoningResult result) => some result
  | _ => none

/-- The workers of the two stages and of the rules on one frame. -/
def inspect (img : Image) : FrameRun F D :=
  let (embedding, inferenceMetrics) := ({} : StageMetrics).settle
    (line.inference.process (D := D) copies (.surfaceImage img))
  match embedding with
  | none => ⟨inferenceMetrics, {}, none, none⟩
  | some embedding =>
    match (line.detect.process line.engine latency embedding).1 with
    | none => ⟨inferenceMetrics, {}, none, none⟩
    | some detected =>
      let (detected, detectMetrics) := ({} : StageMetrics).settle detected
      match detected with
      | some (.detectionResult det) =>
        ⟨inferenceMetrics, detectMetrics, some det,
          line.judge w resolveConflicts channels det⟩
      | _ => ⟨inferenceMetrics, detectMetrics, none, none⟩

/-- An embedder is set, and a detector for the frame's key; no bootstrap. -/
structure Configured (img : Image) : Prop where
  inference_active : line.inference.stub = false
  embedder : line.inference.embedder.isSome
  detect_active : line.detect.stub = false
  bootstrap_off : line.detect.bootstrapEnabled = false
  detector : (line.detect.detectors.lookup
    (DetectStage.bankKey (line.inference.handed copies img))).isSome

/-- The first needed step that fails, if one does. -/
def failedStep (img : Image) : Option FailedStep :=
  match line.inference.embedder.map (line.inference.extraction copies · img) with
  | some (.error step) => some step
  | _ =>
    let embedding := line.inference.handed copies img
    match line.detect.detectors.lookup (DetectStage.bankKey embedding) with
    | some detector =>
      if hasValue (detector.detect line.engine latency embedding).1 then none else some .detect
    | none => none

end InspectionLine

/-- The frame is counted as failed, and nothing of it is judged or reported. -/
def FrameRun.Stopped {F D : Type} (run : FrameRun F D) : Prop :=
  0 < run.inferenceMetrics.framesFailed + run.detectMetrics.framesFailed ∧
    run.evaluated = none ∧ run.reported = none

/-! ### A failed step -/

section Inference

variable {F : Type} (stage : InferenceStage F) (copies : DeviceCopies)

theorem GpuPool.fromPool_eq (pool : GpuPool) (m : ImageMeta) :
    (∃ e, pool.fromPool m = .error e) ∨ pool.fromPool m = .ok m := by
  unfold fromPool
  cases pool.acquire m.byteSize with
  | error e => exact .inl ⟨e, rfl⟩
  | ok _ => exact .inr rfl

/-- A failed extraction is handed on as the empty embedding. -/
theorem InferenceStage.patchEmbedding_eq {extract : Embedder F} (hstub : stage.stub = false)
    (hembedder : stage.embedder = some extract) (img : Image) :
    stage.patchEmbedding copies img =
      (stage.extraction copies extract img).toOption.getD .empty := by
  simp only [patchEmbedding, activeEmbedder, hstub, hembedder, Bool.false_eq_true, if_false,
    extraction]
  cases stage.gpuPool with
  | none => rfl
  | some pool =>
    rcases pool.fromPool_eq img.imageMeta with ⟨e, he⟩ | hok
    · simp [he, Except.toOption]
    · simp only [hok, hasValue_ok, Bool.true_eq_false, if_false]
      cases hcopy : copies.toDevice with
      | false => simp [Except.toOption]
      | true =>
        simp only [if_true, Bool.true_eq_false, if_false]
        cases extract img with
        | error e => rfl
        | ok extracted =>
          cases hgpu : extracted.onGpu <;> cases hhost : copies.toHost <;>
            simp [download, hgpu, hhost, Except.toOption]

theorem InferenceStage.embeddingMeta_handed (img : Image) :
    (stage.handed copies img).embeddingMeta = (stage.patchEmbedding copies img).embeddingMeta := by
  simp only [handed, carryIdentity, globalFeatures]
  split
  · rfl
  · split
    · rfl
    · split_ifs
      · rfl
      · rfl

end Inference

section Detector

variable {F : Type} [Zero F] [One F] [Add F] [Sub F] [Mul F] [Div F] [Neg F] [NatCast F]
  [LT F] [DecidableLT F] [FloatMath F]

/-- No detector accepts an embedding without patches. -/
theorem Detector.hasValue_detect_of_empty (detector : Detector F) (engine : NearestSearch F)
    (latency : ℕ) {embedding : Embedding F}
    (hempty : embedding.embeddingMeta.gridH * embedding.embeddingMeta.gridW = 0) :
    hasValue (detector.detect engine latency embedding).1 = false := by
  cases detector with
  | patchCore core =>
    simp only [detect, PatchCore.detect, hempty]
    cases core.featureBank with
    | none => rfl
    | some bank =>
      dsimp only
      split
      · rfl
      · have hrows : core.queryRows bank embedding.data 0 = [] := by
          unfold PatchCore.queryRows
          cases core.whiteningParams <;> rfl
        simp [hrows, FeatureBank.search]
  | pca detector =>
    simp only [detect, PcaDetector.detect]
    cases detector.pcaParams with
    | none => rfl
    | some pca =>
      dsimp only
      split
      · rfl
      · have hscores : detector.rawScores pca embedding = [] := by
          simp [PcaDetector.rawScores, hempty, PcaParams.score, Rows.rows]
        simp [hscores]

end Detector

namespace InspectionLine

variable {F D : Type} [Zero F] [One F] [Add F] [Sub F] [Mul F] [Div F] [Neg F] [NatCast F]
  [LT F] [DecidableLT F] [DecidableEq F] [FloatMath F] [Doubles D] [FloatCasts F D]
  (line : InspectionLine F D) (w : Wrapper D)
  (resolveConflicts : List (ResolvedRule D) → List (ResolvedRule D))
  (channels : SideChannels F) (copies : DeviceCopies) (latency : ℕ) {img : Image}

/-- The result the rules get for the frame. -/
def detected (img : Image) : DetectionResult F :=
  let embedding := line.inference.handed copies img
  DetectStage.carryForward embedding (line.detect.runDetector line.engine latency embedding).1

/-- Both stages count the frame as processed, whatever failed. -/
theorem inspect_eq (h : line.Configured copies img) :
    line.inspect w resolveConflicts channels copies latency img =
      ⟨⟨1, 0, 0⟩, ⟨1, 0, 0⟩, some (line.detected copies latency img),
        line.judge w resolveConflicts channels (line.detected copies latency img)⟩ := by
  have hprocess : line.inference.process (D := D) copies (.surfaceImage img) =
      .ok (.embedding (line.inference.handed copies img)) := rfl
  simp only [inspect, hprocess, StageMetrics.settle, DetectStage.process, h.bootstrap_off,
    Bool.false_eq_true, and_false, if_false]
  rfl

omit [DecidableEq F] [Doubles D] [FloatCasts F D] in
/-- After a failed step the result is the default one, with the identity of the frame. -/
theorem detected_of_failedStep (h : line.Configured copies img) {step : FailedStep}
    (hstep : line.failedStep copies latency img = some step) :
    line.detected copies latency img =
      DetectStage.carryForward (line.inference.handed copies img) .default := by
  obtain ⟨extract, hextract⟩ := Option.isSome_iff_exists.mp h.embedder
  obtain ⟨detector, hdetector⟩ := Option.isSome_iff_exists.mp h.detector
  have hfails : hasValue (detector.detect line.engine latency
      (line.inference.handed copies img)).1 = false := by
    simp only [failedStep, hextract, Option.map_some, hdetector] at hstep
    cases hextraction : line.inference.extraction copies extract img with
    | error failed =>
      apply detector.hasValue_detect_of_empty
      rw [InferenceStage.embeddingMeta_handed,
        line.inference.patchEmbedding_eq copies h.inference_active hextract, hextraction]
      rfl
    | ok extracted =>
      simp only [hextraction] at hstep
      cases hvalue : hasValue (detector.detect line.engine latency
          (line.inference.handed copies img)).1 with
      | false => rfl
      | true => simp [hvalue] at hstep
  have hdefault : (detector.detect line.engine latency
      (line.inference.handed copies img)).1.toOption = none := by
    cases hresult : (detector.detect line.engine latency
        (line.inference.handed copies img)).1 with
    | error e => rfl
    | ok result => simp [hresult] at hfails
  simp only [detected, DetectStage.runDetector, h.detect_active, Bool.false_eq_true, if_false,
    hdetector, hdefault, Option.getD_none]

/-- A frame is stopped by a failed step if and only if no step fails: after any failure no
stage counts it as failed, and the rules, the reasoner and the exporter treat it as a
frame without anomaly. -/
theorem failed_frame_stopped_iff (h : line.Configured copies img) :
    (((line.failedStep copies latency img).isSome →
        (line.inspect w resolveConflicts channels copies latency img).Stopped) ↔
      line.failedStep copies latency img = none) ∧
    ∀ step, line.failedStep copies latency img = some step →
      line.inspect w resolveConflicts channels copies latency img =
        ⟨⟨1, 0, 0⟩, ⟨1, 0, 0⟩,
          some (DetectStage.carryForward (line.inference.handed copies img) .default),
          line.judge w resolveConflicts channels
            (DetectStage.carryForward (line.inference.handed copies img) .default)⟩ := by
  constructor
  · constructor
    · intro hstop
      by_contra hfailed
      obtain ⟨-, hevaluated, -⟩ := hstop (Option.isSome_iff_ne_none.mpr hfailed)
      rw [line.inspect_eq w resolveConflicts channels copies latency h] at hevaluated
      exact absurd hevaluated (by simp)
    · intro hnone hsome
      rw [hnone] at hsome
      exact absurd hsome (by simp)
  · intro step hstep
    rw [line.inspect_eq w resolveConflicts channels copies latency h,
      line.detected_of_failedStep copies latency h hstep]

/-! ### A line without a device pool -/

/-- One rule: a score above one half is a defect. -/
def scoreRule : Rule ℚ where
  name := "scratched"
  ruleSet := "visual"
  condition := some (.binary .gt (.fieldRef "detection.image_level_score")
    (.literal (.ofDouble (1 / 2))) "detection.image_level_score gt 0.500000")
  action := ⟨"scratch", 1, ""⟩

/-- Matched rules make the verdict. -/
def ruleReasoner : Reasoner ℚ := fun _ rules =>
  .ok { ReasoningResult.default with
    verdict := if rules.any (·.matched) then "NG" else "OK" }

/-- An embedder that finds an anomaly in every image, with a pool or without one. -/
def poolLine (pool : Option GpuPool) : InspectionLine ℚ ℚ where
  inference := ⟨false, some fun _ => .ok (.fromCpu [0, 1] ⟨2, 1, 1, 1⟩), none, pool⟩
  detect := ⟨AList.singleton ("", 0) (.pca ⟨⟨.reconstruction, 0, 4 / 5, 0, 1, 1, 1⟩,
    some ⟨[1, 0], 1, [0, 0], [1]⟩⟩), none, false, false, 50, 10000, ∅⟩
  ruleEval := ⟨false, some ⟨[("visual", [scoreRule])]⟩, none, none, false⟩
  reason := ⟨false, some ruleReasoner⟩
  exportStage := ⟨false, some fun _ _ => .ok ()⟩
  engine := flatL2

def blankImage : Image := ⟨⟨1, 1, 1, .mono8, "", 0⟩, [0]⟩

theorem poolLine_configured : (poolLine none).Configured ⟨true, true⟩ blankImage :=
  ⟨rfl, rfl, rfl, rfl, by decide +kernel⟩

theorem failed_frame_judged :
    ((poolLine none).inspect direct id ⟨none, none⟩ ⟨true, true⟩ 0 blankImage).evaluated.map
      (·.imageLevelScore) = some 0 := by
  rw [((failed_frame_stopped_iff (poolLine none) direct id ⟨none, none⟩ ⟨true, true⟩ 0
    poolLine_configured).2 .gpuPool rfl)]
  rfl

/-- With a pool the frame is reported as defective; without one as faultless. -/
theorem failed_frame_reported_ok :
    (((poolLine (some ⟨fun _ => .ok ()⟩)).inspect direct id ⟨none, none⟩ ⟨true, true⟩ 0
        blankImage).reported.map (·.verdict)) = some "NG" ∧
      (poolLine none).Configured ⟨true, true⟩ blankImage ∧
      (poolLine none).failedStep ⟨true, true⟩ 0 blankImage = some .gpuPool ∧
      (((poolLine none).inspect direct id ⟨none, none⟩ ⟨true, true⟩ 0 blankImage).reported.map
        (·.verdict)) = some "OK" ∧
      ¬((poolLine none).inspect direct id ⟨none, none⟩ ⟨true, true⟩ 0 blankImage).Stopped := by
  refine ⟨?_, poolLine_configured, ?_, ?_, ?_⟩
  · decide +kernel
  · decide +kernel
  · decide +kernel
  · rintro ⟨h, -⟩
    exact absurd h (by decide +kernel)

end InspectionLine

end SurfaceAi.Pipeline
