import Mathlib.Data.List.Dedup
import Mathlib.Data.List.Sort
import SurfaceAi.Library.Walk
import SurfaceAi.Pipeline.RingBuffer

/-! Validation of a pipeline configuration, and the queues and edges that the pipeline builds
from it. The checks ask for some entry and some exit; only stages with several consumers are
rejected as branching. -/

namespace SurfaceAi.Pipeline.PipelineBuilder

structure StageConfig where
  id : String
  type : StageType
  dependsOn : List String
  backpressure : BackpressurePolicy := .block
  queueCapacity : Option ℕ := none
  deriving DecidableEq, Repr

structure PipelineConfig where
  name : String
  version : String
  stages : List StageConfig
  deriving DecidableEq, Repr

def outputTypeIndex : StageType → ℕ
  | .capture => 0
  | .preprocess => 1
  | .inference => 2
  | .detect => 3
  | .ruleEval => 4
  | .reason => 6
  | .exportStage => 6
  | .custom => 0

def inputTypeIndex : StageType → ℕ
  | .capture => 0
  | .preprocess => 0
  | .inference => 1
  | .detect => 2
  | .ruleEval => 3
  | .reason => 4
  | .exportStage => 6
  | .custom => 0

def checkTypeCompatibility (upstream downstream : StageConfig) : Bool :=
  outputTypeIndex upstream.type = inputTypeIndex downstream.type

variable (stages : List StageConfig)

def ids : List String := stages.map StageConfig.id

/-- The ids of the stages that depend on `dep`, in the order in which they are pushed. -/
def consumers (dep : String) : List String :=
  stages.flatMap fun s => (s.dependsOn.filter (· = dep)).map fun _ => s.id

/-- What the stages of this id depend on. -/
def dependencies (id : String) : List String :=
  (stages.filter (·.id = id)).flatMap StageConfig.dependsOn

def dependedOn : List String := stages.flatMap StageConfig.dependsOn

/-- The order in which a map with string keys is visited. -/
def sortedKeys (keys : List String) : List String := keys.dedup.insertionSort (· ≤ ·)

/-- Kahn's algorithm when its queue has been filled. -/
def kahnStart : Kahn.State String where
  queue := (sortedKeys (ids stages)).filter fun id => (dependencies stages id).length = 0
  degree := fun id => (dependencies stages id).length
  visited := []

def isAcyclic : Bool :=
  (Kahn.loop (consumers stages) stages.length (kahnStart stages)).visited.length = stages.length

/-- `^\d+\.\d+$`. -/
def matchesVersion (version : String) : Bool :=
  match version.toList.span Char.isDigit with
  | (major, '.' :: minor) => !major.isEmpty && !minor.isEmpty && minor.all Char.isDigit
  | _ => false

/-- Ids are non-empty and unique; `seen` are those before. -/
def checkIds : List StageConfig → List String → Result Unit
  | [], _ => .ok ()
  | s :: rest, seen => do
    failIf s.id.isEmpty .pipelineInvalidConfig "stage id must be non-empty"
    failIf (seen.contains s.id) .pipelineInvalidConfig ("duplicate stage id: " ++ s.id)
    checkIds rest (s.id :: seen)

def isEntry (s : StageConfig) : Bool := s.dependsOn.isEmpty

def isExit (s : StageConfig) : Bool := !(dependedOn stages).contains s.id

def checkReferences (s : StageConfig) : Result Unit :=
  checkAll (fun dep => failIf (!(ids stages).contains dep) .pipelineInvalidConfig
    ("stage '" ++ s.id ++ "' depends_on '" ++ dep ++ "' which does not exist")) s.dependsOn

/-- `id` has at most one downstream consumer. -/
def checkFanOut (id : String) : Result Unit :=
  failIf (1 < (dependedOn stages).count id) .pipelineInvalidConfig
    ("v1 does not support fan-out topologies: stage '" ++ id ++ "' has " ++
      toString ((dependedOn stages).count id) ++ " downstream consumers")

def checkEdgeTypes (downstream : StageConfig) : Result Unit :=
  checkAll (fun dep =>
    match stages.find? (·.id = dep) with
    | some upstream => failIf (!checkTypeCompatibility upstream downstream)
        .pipelineStageTypeMismatch ("type mismatch: " ++ upstream.id ++ " → " ++ downstream.id)
    | none => .ok ()) downstream.dependsOn

def validate (config : PipelineConfig) : Result Unit := do
  failIf config.name.isEmpty .pipelineInvalidConfig "pipeline.name is required"
  failIf (!matchesVersion config.version) .pipelineInvalidConfig
    ("pipeline.version must match \\d+.\\d+ pattern, got: " ++ config.version)
  failIf config.stages.isEmpty .pipelineInvalidConfig "pipeline must have at least one stage"
  checkIds config.stages []
  checkAll (checkReferences config.stages) config.stages
  failIf (!isAcyclic config.stages) .pipelineInvalidConfig "pipeline has a cyclic dependency"
  failIf (!config.stages.any isEntry) .pipelineInvalidConfig
    "no entry stage (empty depends_on) found"
  failIf (!config.stages.any (isExit config.stages)) .pipelineInvalidConfig "no exit stage found"
  failIf (!config.stages.any fun s => isEntry s && s.type = .capture) .pipelineInvalidConfig
    "entry stage (empty depends_on) must be of type Capture"
  failIf (!config.stages.any fun s => isExit config.stages s && s.type = .exportStage)
    .pipelineInvalidConfig "exit stage must be of type Export"
  checkAll (checkFanOut config.stages) (sortedKeys (dependedOn config.stages))
  checkAll (checkEdgeTypes config.stages) config.stages

/-! ### Wiring -/

/-- The input queues by stage, the stages each stage delivers to, and the stage that `Submit`
delivers to. -/
structure Wiring (α : Type) where
  inputQueues : List (String × RingBuffer α)
  downstreams : String → List String
  entryStageId : String

def defaultQueueCapacity : ℕ := 8

variable {α : Type}

def createQueues : List StageConfig → Result (List (String × RingBuffer α))
  | [] => .ok []
  | s :: rest => do
    let queue ← RingBuffer.createQueue (s.queueCapacity.getD defaultQueueCapacity) s.backpressure
    let queues ← createQueues rest
    return (s.id, queue) :: queues

def buildQueueWiring (config : PipelineConfig) : Result (Wiring α) := do
  let queues ← createQueues config.stages
  return {
    inputQueues := queues
    downstreams := consumers config.stages
    entryStageId := ((config.stages.find? isEntry).map StageConfig.id).getD "" }

/-! ### The graph of the stages -/

section Graph

variable {stages} {x d : String}

theorem mem_consumers :
    x ∈ consumers stages d ↔ ∃ s ∈ stages, s.id = x ∧ d ∈ s.dependsOn := by
  simp only [consumers, List.mem_flatMap, List.mem_map, List.mem_filter, decide_eq_true_eq]
  constructor
  · rintro ⟨s, hs, _, ⟨hdep, rfl⟩, hid⟩
    exact ⟨s, hs, hid, hdep⟩
  · rintro ⟨s, hs, hid, hdep⟩
    exact ⟨s, hs, d, ⟨hdep, rfl⟩, hid⟩

theorem mem_dependencies :
    d ∈ dependencies stages x ↔ ∃ s ∈ stages, s.id = x ∧ d ∈ s.dependsOn := by
  simp [dependencies, and_assoc]

theorem mem_dependedOn : d ∈ dependedOn stages ↔ ∃ s ∈ stages, d ∈ s.dependsOn := by
  simp [dependedOn]

theorem mem_ids : x ∈ ids stages ↔ ∃ s ∈ stages, s.id = x := List.mem_map

theorem mem_sortedKeys {keys : List String} : x ∈ sortedKeys keys ↔ x ∈ keys := by
  simp [sortedKeys]

/-- A stage stands in the list of consumers once for each time it names the stage. -/
theorem length_consumers : (consumers stages d).length = (dependedOn stages).count d := by
  induction stages with
  | nil => rfl
  | cons s stages ih =>
    have hhead : (s.dependsOn.filter (· = d)).length = s.dependsOn.count d := by
      rw [List.count, List.countP_eq_length_filter]
      rfl
    simp only [consumers, dependedOn, List.flatMap_cons, List.length_append, List.length_map,
      List.count_append, hhead] at ih ⊢
    rw [ih]

theorem count_consumers : (consumers stages d).count x = (dependencies stages x).count d := by
  induction stages with
  | nil => rfl
  | cons s stages ih =>
    have hhead : (s.dependsOn.filter (· = d)).length = s.dependsOn.count d := by
      rw [List.count, List.countP_eq_length_filter]
      rfl
    simp only [consumers, dependencies, List.flatMap_cons, List.count_append] at ih ⊢
    rw [ih, List.map_const', List.count_replicate, hhead]
    by_cases hid : s.id = x <;> simp [hid]

/-- With unique ids the dependencies of an id are those of its stage. -/
theorem eq_of_id_eq (hnodup : (ids stages).Nodup) {s t : StageConfig} (hs : s ∈ stages)
    (ht : t ∈ stages) (hid : s.id = t.id) : s = t :=
  List.inj_on_of_nodup_map hnodup hs ht hid

theorem kahnStart_inv : Kahn.Inv (ids stages) (dependencies stages) (kahnStart stages) where
  degree := by simp [kahnStart]
  nodup := by
    have hsorted : (sortedKeys (ids stages)).Nodup := by
      rw [sortedKeys, (List.perm_insertionSort _ _).nodup_iff]
      exact List.nodup_dedup _
    exact hsorted.filter _
  mem := by
    intro x hx
    simp only [kahnStart, List.nil_append, List.mem_filter, mem_sortedKeys] at hx
    exact hx.1
  ready := by
    intro x hx
    simp only [kahnStart, List.nil_append, List.mem_filter, decide_eq_true_eq] at hx
    simp [kahnStart, hx.2]

theorem count_consumers_eq (v : String) :
    ∀ x ∈ ids stages, (consumers stages v).count x = (dependencies stages x).count v :=
  fun _ _ => count_consumers

theorem consumers_subset (v : String) : ∀ x ∈ consumers stages v, x ∈ ids stages := by
  intro x hx
  obtain ⟨s, hs, hid, -⟩ := mem_consumers.mp hx
  exact mem_ids.mpr ⟨s, hs, hid⟩

/-- The loop of the acyclicity check ends with its queue empty. -/
theorem isAcyclic_queue_eq_nil :
    (Kahn.loop (consumers stages) stages.length (kahnStart stages)).queue = [] := by
  apply Kahn.queue_eq_nil kahnStart_inv count_consumers_eq consumers_subset
  simp [ids, kahnStart]

theorem eq_empty_of_isAcyclic (h : isAcyclic stages = true) (S : Set String)
    (hS : Kahn.SelfDependent (ids stages) (dependencies stages) S) : S = ∅ := by
  have hall := of_decide_eq_true h
  have hlen : (ids stages).length = stages.length := List.length_map _
  rw [← hlen] at hall
  exact Kahn.eq_empty_of_selfDependent kahnStart_inv count_consumers_eq consumers_subset rfl hall hS

end Graph

end SurfaceAi.Pipeline.PipelineBuilder
