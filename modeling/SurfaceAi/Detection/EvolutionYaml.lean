import SurfaceAi.Detection.CoresetEvolution
import Mathlib.Data.Int.Notation

/-! Reading the evolution's configuration and a saved profile. Every scalar has a fallback, and
no value is checked: whatever the documents hold is taken over. -/

namespace SurfaceAi.Detection

/-- A part of a document whose scalars are looked up by key: not there, of a kind that a lookup
throws on, or a map. -/
inductive YamlPart (α : Type*) where
  | undefined
  | throwing (what : String)
  | map (content : α)

/-! ### The configuration -/

/-- What the evolution is configured with beyond what its banks depend on. -/
structure EvolutionSettings (F : Type*) extends EvolutionConfig F where
  minUpdateInterval : ℤ := 5
  backupOldBank : Bool := true
  maxBackups : ℕ := 3
  maxIncrementalUpdates : ℕ := 100

/-- A scalar that is missing or does not convert is absent. -/
structure NormalityNode (F : Type*) where
  kSelfQuery : Option ℕ := none
  tailRatioMax : Option F := none

structure NoveltyNode (F : Type*) where
  coverageThreshold : Option F := none

structure BufferNode where
  maxFrames : Option ℕ := none
  maxPatches : Option ℕ := none
  triggerFrames : Option ℕ := none
  triggerPatches : Option ℕ := none

structure UpdateNode where
  targetSize : Option ℕ := none
  minIntervalSec : Option ℤ := none
  greedyPrefilter : Option ℕ := none

structure PersistenceNode where
  saveOnStop : Option Bool := none
  backupOldBank : Option Bool := none
  maxBackups : Option ℕ := none

structure MaintenanceNode (F : Type*) where
  coverageSaturationThreshold : Option F := none
  saturationWindow : Option ℕ := none
  maxIncrementalUpdates : Option ℕ := none
  driftAutoRebuild : Option Bool := none
  selfValidation : Option Bool := none
  validationDegradationThreshold : Option F := none
  validationSampleCount : Option ℕ := none

structure SelfEvolutionNode (F : Type*) where
  enabled : Option Bool := none
  normality : YamlPart (NormalityNode F) := .undefined
  novelty : YamlPart (NoveltyNode F) := .undefined
  buffer : YamlPart BufferNode := .undefined
  update : YamlPart UpdateNode := .undefined
  persistence : YamlPart PersistenceNode := .undefined
  maintenance : YamlPart (MaintenanceNode F) := .undefined

namespace EvolutionSettings

variable {F : Type*} [NatCast F] [Div F]

/-- A value-initialised configuration. -/
def default : EvolutionSettings F where
  enabled := false
  tailRatioMax := ratio 10 100
  coverageThreshold := ratio 60 100
  coverageSaturationThreshold := ratio 95 100
  validationDegradationThreshold := ratio 80 100

variable (cfg : EvolutionSettings F)

def withNormality (n : NormalityNode F) : EvolutionSettings F :=
  { cfg with
    normalityK := n.kSelfQuery.getD 5
    tailRatioMax := n.tailRatioMax.getD (ratio 10 100) }

def withNovelty (n : NoveltyNode F) : EvolutionSettings F :=
  { cfg with coverageThreshold := n.coverageThreshold.getD (ratio 60 100) }

def withBuffer (b : BufferNode) : EvolutionSettings F :=
  { cfg with buffer :=
      { maxFrames := b.maxFrames.getD 50
        maxPatches := b.maxPatches.getD 50000
        triggerFrames := b.triggerFrames.getD 20
        triggerPatches := b.triggerPatches.getD 20000 } }

def withUpdate (u : UpdateNode) : EvolutionSettings F :=
  { cfg with
    targetSize := u.targetSize.getD 10000
    minUpdateInterval := u.minIntervalSec.getD 5
    greedyPrefilter := u.greedyPrefilter.getD 5000 }

def withPersistence (p : PersistenceNode) : EvolutionSettings F :=
  { cfg with
    saveOnStop := p.saveOnStop.getD true
    backupOldBank := p.backupOldBank.getD true
    maxBackups := p.maxBackups.getD 3 }

def withMaintenance (m : MaintenanceNode F) : EvolutionSettings F :=
  { cfg with
    coverageSaturationThreshold := m.coverageSaturationThreshold.getD (ratio 95 100)
    saturationWindow := m.saturationWindow.getD 10
    maxIncrementalUpdates := m.maxIncrementalUpdates.getD 100
    driftAutoRebuild := m.driftAutoRebuild.getD false
    evolutionSelfValidation := m.selfValidation.getD true
    validationDegradationThreshold := m.validationDegradationThreshold.getD (ratio 80 100)
    validationSampleCount := m.validationSampleCount.getD 100 }

/-- Read a part that may be missing; a lookup that throws ends the reading. -/
def readPart {α : Type*} (part : YamlPart α)
    (read : EvolutionSettings F → α → EvolutionSettings F) (cfg : EvolutionSettings F) :
    Result (EvolutionSettings F) :=
  match part with
  | .undefined => .ok cfg
  | .throwing what => fail .pipelineInvalidConfig ("self_evolution config parse error: " ++ what)
  | .map content => .ok (read cfg content)

/-- `EvolutionConfig::FromYaml`. Outside the map of a document the lookup of `self_evolution`
itself throws. -/
def fromYaml (document : YamlPart (YamlPart (SelfEvolutionNode F))) :
    Result (EvolutionSettings F) :=
  match document with
  | .undefined => .ok default
  | .throwing what | .map (.throwing what) =>
    fail .pipelineInvalidConfig ("self_evolution config parse error: " ++ what)
  | .map .undefined => .ok default
  | .map (.map se) => do
    let cfg : EvolutionSettings F := { default with enabled := se.enabled.getD false }
    let cfg ← readPart se.normality withNormality cfg
    let cfg ← readPart se.novelty withNovelty cfg
    let cfg ← readPart se.buffer withBuffer cfg
    let cfg ← readPart se.update withUpdate cfg
    let cfg ← readPart se.persistence withPersistence cfg
    readPart se.maintenance withMaintenance cfg

end EvolutionSettings

/-! ### The profile -/

structure StatisticsNode (F : Type*) where
  p50 : Option F := none
  p95 : Option F := none
  p99 : Option F := none
  mean : Option F := none
  stddev : Option F := none
  selfNormalcy : Option F := none

structure ProfileNode (F : Type*) where
  kNearest : Option ℕ := none
  dim : Option ℕ := none
  numSamples : Option ℕ := none
  statistics : YamlPart (StatisticsNode F) := .undefined

namespace NormalityProfile

variable {F : Type*} [Zero F]

def ofNodes (p : ProfileNode F) (s : StatisticsNode F) : NormalityProfile F where
  kNearest := p.kNearest.getD 5
  dim := p.dim.getD 0
  numSamples := p.numSamples.getD 0
  p50 := s.p50.getD 0
  p95 := s.p95.getD 0
  p99 := s.p99.getD 0
  mean := s.mean.getD 0
  stddev := s.stddev.getD 0
  selfNormalcy := s.selfNormalcy.getD 0

/-- `NormalityProfile::LoadFromYaml`, from the root of the file; a file that cannot be read
throws. Missing statistics are looked up like an empty map. -/
def loadFromYaml (path : String) (file : YamlPart (YamlPart (ProfileNode F))) :
    Result (NormalityProfile F) :=
  match file with
  | .undefined | .map .undefined => fail .detectionCoresetEvolutionProfileLoadFailed
      ("missing 'profile' key in: " ++ path)
  | .throwing what | .map (.throwing what) =>
    fail .detectionCoresetEvolutionProfileLoadFailed ("YAML parse error: " ++ what)
  | .map (.map p) =>
    match p.statistics with
    | .undefined => .ok (ofNodes p {})
    | .throwing what =>
      fail .detectionCoresetEvolutionProfileLoadFailed ("YAML parse error: " ++ what)
    | .map s => .ok (ofNodes p s)

end NormalityProfile

end SurfaceAi.Detection
