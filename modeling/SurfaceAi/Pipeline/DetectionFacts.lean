import SurfaceAi.Pipeline.RuleEvalStage
import Mathlib.Algebra.Order.Field.Basic
import Mathlib.Algebra.Order.Ring.Rat

/-! When the detection facts reach the rules. They do unless a batch of the frame's
surface is found, because the path then built for it names no property. -/

namespace SurfaceAi.Pipeline

open Detection Knowledge Rules

/-! ### The batch path -/

theorem not_mem_toString_int (n : ℤ) : '>' ∉ (toString n).toList := by
  have hnat : ∀ m : ℕ, '>' ∉ (toString m).toList := by
    intro m hmem
    have hdigit : ('>' : Char).isDigit :=
      Nat.isDigit_of_mem_toDigits (b := 10) (by omega) (by omega) (by simpa using hmem)
    exact absurd hdigit (by decide)
  cases n with
  | ofNat m => exact hnat m
  | negSucc m =>
    have hneg : toString (Int.negSucc m) = "-" ++ toString (m + 1) := rfl
    rw [hneg, String.toList_append, List.mem_append]
    rintro (h | h)
    · exact absurd h (by decide)
    · exact hnat _ h

theorem not_mem_batchPath (id : ℤ) : '>' ∉ (batchPath id).toList := by
  rw [batchPath, String.toList_append, String.toList_append, List.mem_append, List.mem_append]
  rintro ((h | h) | h)
  · exact absurd h (by decide)
  · exact not_mem_toString_int id h
  · exact absurd h (by decide)

theorem batchPath_ne_empty (id : ℤ) : batchPath id ≠ "" := by
  intro h
  have := congrArg String.toList h
  simp [batchPath] at this

theorem batchOn_iff {D : Type} (surfaceId : String) (batch : KnowledgeNode D) :
    batchOn surfaceId batch ↔ batch.properties.fields.lookup "surface" = some (.string surfaceId) := by
  unfold batchOn
  split
  · next s h => simp [h]
  · next h =>
    simp only [Bool.false_eq_true, false_iff]
    exact h surfaceId

namespace RuleEvalStage

variable {F D : Type} (stage : RuleEvalStage F D)

/-- The stage has a builder, and its graph has a batch for the frame's surface. -/
def MatchingBatch (det : DetectionResult F) : Prop :=
  stage.factBuilder.isSome ∧ surfaceKey det ≠ "default" ∧
    ∃ kg, stage.kg = some kg ∧ ∃ batches, kg.findNodesByType "Batch" = .ok batches ∧
      ∃ batch ∈ batches,
        batch.properties.fields.lookup "surface" = some (.string (surfaceKey det))

/-- There is at most one graph path, and one exactly when a batch matches. -/
theorem graphPaths_cases (det : DetectionResult F) (hbuilder : stage.factBuilder.isSome) :
    (stage.graphPaths (surfaceKey det) = [] ∧ ¬stage.MatchingBatch det) ∨
      (∃ id, stage.graphPaths (surfaceKey det) = [batchPath id]) ∧ stage.MatchingBatch det := by
  unfold graphPaths MatchingBatch
  cases hkg : stage.kg with
  | none => left; simp
  | some kg =>
    by_cases hdefault : surfaceKey det = "default"
    · left; simp [hdefault]
    simp only [if_neg hdefault, batchPaths]
    cases hfind : kg.findNodesByType "Batch" with
    | error e =>
      left
      refine ⟨rfl, ?_⟩
      rintro ⟨-, -, kg', hkg', batches, hb, -⟩
      obtain rfl := Option.some.inj hkg'
      simp [hfind] at hb
    | ok batches =>
      cases hbatch : batches.find? (batchOn (surfaceKey det)) with
      | none =>
        left
        refine ⟨by simp [hbatch], ?_⟩
        rintro ⟨-, -, kg', hkg', batches', hb, batch, hmem, hsurface⟩
        obtain rfl := Option.some.inj hkg'
        obtain rfl := Except.ok.inj (hfind.symm.trans hb)
        exact List.find?_eq_none.mp hbatch batch hmem ((batchOn_iff _ _).mpr hsurface)
      | some batch =>
        right
        exact ⟨⟨batch.id, by simp [hbatch]⟩, hbuilder, hdefault, kg, rfl, batches, hfind, batch,
          List.mem_of_find?_eq_some hbatch, (batchOn_iff _ _).mp (List.find?_some hbatch)⟩

variable [Zero F] [LT F] [DecidableLT F] [Doubles D] [FloatCasts F D]

omit [Doubles D] in
theorem hasDetectionFacts_bareFacts (det : DetectionResult F) :
    HasDetectionFacts (bareFacts det : FactBase D) det := by
  constructor <;> simp [bareFacts, FactBase.setDirect, FactBase.get_set]

/-- Retrieval leaves every detection fact as it is, present or absent. -/
theorem hasDetectionFacts_retrieve (builder : FactBuilder F D) (det : DetectionResult F)
    (fb : FactBase D) :
    HasDetectionFacts (retrieve builder det fb).1 det ↔ HasDetectionFacts fb det := by
  unfold retrieve HasDetectionFacts
  split_ifs with h
  · rfl
  · rw [builder.get_runVectorRetrieval _ _ (by decide), builder.get_runVectorRetrieval _ _ (by decide)]
    simp [FactBase.setDirect, FactBase.get_set]

/-- With an engine set, the rules are evaluated on the handed facts, and these hold the
detection facts of the frame if and only if no batch of its surface is found. -/
theorem detection_facts_reach_rules (w : Wrapper D)
    (resolveConflicts : List (ResolvedRule D) → List (ResolvedRule D)) {engine : RuleEngine D}
    (hengine : stage.activeEngine = some engine) (det : DetectionResult F) :
    (stage.process w resolveConflicts (.detectionResult det)).1 =
        (engine.evaluateAll w (stage.handedFacts det).1).map (fun rules =>
          .ok (stage.evaluated resolveConflicts det (stage.handedFacts det).1 rules)) ∧
      (HasDetectionFacts (stage.handedFacts det).1 det ↔ ¬stage.MatchingBatch det) := by
  refine ⟨by simp only [process, hengine], ?_⟩
  cases hb : stage.factBuilder with
  | none =>
    simp only [handedFacts, builtFacts, hb, MatchingBatch, Option.isSome_none, Bool.false_eq_true,
      false_and, not_false_eq_true, iff_true]
    exact hasDetectionFacts_bareFacts det
  | some builder =>
    have hhanded : (stage.handedFacts det).1 = (retrieve builder det (stage.builtFacts det)).1 := by
      simp only [handedFacts, hb]
    rw [hhanded, hasDetectionFacts_retrieve]
    simp only [builtFacts, hb]
    rcases stage.graphPaths_cases det (by simp [hb]) with ⟨hpaths, hno⟩ | ⟨⟨id, hpaths⟩, hyes⟩
    · obtain ⟨fb, hfb, hfacts⟩ := builder.build_nil (surfaceKey det) det
      simp only [hpaths, hfb]
      exact iff_of_true hfacts hno
    · obtain ⟨e, he⟩ := builder.build_of_not_mem (surfaceKey det) det (batchPath_ne_empty id)
        (not_mem_batchPath id)
      simp only [hpaths, he]
      refine iff_of_false (fun h => ?_) (not_not.mpr hyes)
      exact absurd h.1 (by simp)

/-! ### A seeded graph -/

/-- One batch, for the surface `SN-1`. -/
def seedGraph : KnowledgeGraph ℚ where
  nodes := [⟨7, "Batch", ⟨AList.singleton "surface" (.string "SN-1")⟩⟩]
  edges := []
  prepareError _ := none

/-- A stage with the graph, its builder and a rule on the image-level score. -/
def seedStage : RuleEvalStage ℚ ℚ where
  stub := false
  ruleEngine := some ⟨[("visual", [⟨"scratched", "visual",
    some (.binary .gt (.fieldRef "detection.image_level_score") (.literal (.ofDouble (1 / 2)))
      "detection.image_level_score gt 0.500000"), ⟨"scratch", 1, ""⟩⟩])]⟩
  kg := some seedGraph
  factBuilder := some ⟨some seedGraph, none, none, 1 / 100⟩
  recorderEnabled := false

/-- A frame with a clear defect. -/
def scratchedFrame (surfaceId : String) : DetectionResult ℚ where
  anomalyMap := ⟨[1 / 10, 9 / 10], 1, 2⟩
  regions := []
  imageLevelScore := 9 / 10
  inferenceLatency := 0
  globalFeatures := []
  surfaceId := surfaceId
  positionId := 0

theorem detection_facts_other_surface :
    HasDetectionFacts (seedStage.handedFacts (scratchedFrame "SN-2")).1 (scratchedFrame "SN-2") := by
  refine (detection_facts_reach_rules seedStage direct id rfl (scratchedFrame "SN-2")).2.mpr ?_
  rintro ⟨-, -, kg, hkg, batches, hb, batch, hmem, hsurface⟩
  obtain rfl := Option.some.inj hkg
  obtain rfl := Except.ok.inj hb
  obtain rfl := List.mem_singleton.mp hmem
  exact absurd ((batchOn_iff _ _).mpr hsurface) (by decide)

/-- The frame of the batch's own surface: its facts are gone. -/
theorem detection_facts_lost :
    ((seedStage.handedFacts (scratchedFrame "SN-1")).1.get "detection.image_level_score").isNone ∧
      ¬HasDetectionFacts (seedStage.handedFacts (scratchedFrame "SN-1")).1
        (scratchedFrame "SN-1") := by
  have hnone : ((seedStage.handedFacts (scratchedFrame "SN-1")).1.get
      "detection.image_level_score").isNone := by decide +kernel
  refine ⟨hnone, fun h => ?_⟩
  rw [h.1] at hnone
  exact absurd hnone (by simp)

end RuleEvalStage

end SurfaceAi.Pipeline
