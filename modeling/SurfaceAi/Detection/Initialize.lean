import SurfaceAi.Detection.NormalityProfile
import SurfaceAi.Detection.PatchCore

/-! How a detector is initialised: its bank is injected or read from a file, whitened, and
queried with its own vectors for a threshold, and a PCA model may be read. What the files
hold and how a PCA is fitted are parameters. -/

namespace SurfaceAi.Detection

open Embeddings

/-- The configuration that only `Initialize` reads. -/
structure InitializeConfig (F : Type*) where
  anomalyThreshold : F
  enableWhitening : Bool := false
  enableAdaptiveThreshold : Bool := false
  targetFpr : F

/-- The floats of the bank's file and the model of the PCA's file, where a path is set, and
`FitPca`. -/
structure InitializeInputs (F : Type*) where
  bankFile : Option (Result (List F)) := none
  pcaFile : Option (Result (PcaParams F)) := none
  fitPca : List (List F) → ℕ → Result (PcaParams F)

/-- `LoadFromFile`, from the floats that are read; a zero dimension divides by zero. -/
def FeatureBank.loadFromFile {F : Type*} (dim : ℕ) :
    Result (List F) → Option (Result (FeatureBank F))
  | .error e => some (.error e)
  | .ok floats =>
    if dim = 0 then none
    else if floats.length % dim ≠ 0 then
      some (fail .detectionFeatureBankLoadFailed ("file size " ++ toString (4 * floats.length) ++
        " is not a multiple of dim " ++ toString dim))
    else some (.ok (.rebuild floats (floats.length / dim) dim (Nat.div_mul_le_self _ _)))

theorem FeatureBank.dim_loadFromFile {F : Type*} {dim : ℕ} {file : Result (List F)}
    {bank : FeatureBank F} (h : loadFromFile dim file = some (.ok bank)) : bank.dim = dim := by
  unfold loadFromFile at h
  split at h
  · cases Option.some.inj h
  · split_ifs at h
    · cases Option.some.inj h
    · obtain rfl := Except.ok.inj (Option.some.inj h)
      rfl

namespace PatchCore

variable {F : Type*} [Zero F] [One F] [Add F] [Sub F] [Mul F] [Div F] [Neg F] [NatCast F]
  [LT F] [DecidableLT F] [FloatMath F]

/-- A detector as constructed, with a bank if one has been injected. -/
def create (cfg : PatchCoreConfig F) (bank : Option (FeatureBank F)) : PatchCore F where
  cfg := cfg
  featureBank := bank
  lastCtx := ⟨[], 0, [], 0, 0, 0, .default, 0, 0, 0⟩
  whiteningParams := none
  effectiveThreshold := (8 : ℕ) / (10 : ℕ)
  refDist := 1
  pcaParams := none

variable (icfg : InitializeConfig F) (inputs : InitializeInputs F) (engine : NearestSearch F)
  (core : PatchCore F)

/-- An injected bank is not loaded again. -/
def loadBank : Option (Result Unit × PatchCore F) :=
  match core.featureBank, inputs.bankFile with
  | none, some file =>
    (FeatureBank.loadFromFile core.cfg.embedDim file).map fun loaded =>
      match loaded with
      | .error e => (.error e, core)
      | .ok bank => (.ok (), { core with featureBank := some bank })
  | _, _ => some (.ok (), core)

/-- The components from `drop_k` on, each over the root of its eigenvalue. -/
def whiteningOf (pca : PcaParams F) : WhiteningParams F where
  targetDim := core.cfg.embedDim
  transform := (List.range core.cfg.embedDim).flatMap fun t =>
    let scale := 1 / FloatMath.sqrt (pca.eigvals.getD (core.cfg.dropK + t) 0 + 1 / (1000000 : ℕ))
    (List.range core.cfg.embedDim).map fun j =>
      pca.components.getD ((core.cfg.dropK + t) * core.cfg.embedDim + j) 0 * scale

/-- A bank of the whitened rows. -/
def whitenedBank (wp : WhiteningParams F) (rows : List (List F)) : FeatureBank F where
  dim := wp.targetDim
  vectors := rows.map (whiten wp core.cfg.embedDim)
  length_vectors v hv := by
    obtain ⟨row, -, rfl⟩ := List.mem_map.mp hv
    rw [whiten, List.length_map, List.length_range]

/-- Whiten the bank by a PCA of its own vectors; rows longer than its vectors read past their
end. -/
def whitenBank : Option (Result Unit × PatchCore F) :=
  match core.featureBank with
  | none => some (.ok (), core)
  | some bank =>
    if ¬icfg.enableWhitening then some (.ok (), core)
    else if bank.numSamples * bank.dim < bank.numSamples * core.cfg.embedDim then none
    else
      let samples := Rows.rows core.cfg.embedDim bank.numSamples bank.extractAllVectors
      match inputs.fitPca samples (core.cfg.embedDim + core.cfg.dropK) with
      | .error e => some (.error e, core)
      | .ok pca =>
        let wp := core.whiteningOf pca
        some (.ok (), { core with
          featureBank := some (core.whitenedBank wp samples)
          whiteningParams := some wp })

/-- `ComputeAdaptiveThreshold`: a quantile of the distances of the bank's vectors among
themselves, and the largest of them. -/
def computeAdaptiveThreshold (bank : FeatureBank F) (targetFpr : F) (k : ℕ) (refDist : F) :
    F × F :=
  let n := bank.numSamples
  if n = 0 then (0, refDist)
  else
    let distances := (List.range n).map (NormalityProfile.selfDistance engine bank k)
    let index := FloatMath.toSize ((1 - targetFpr) * ((n - 1 : ℕ) : F))
    ((stdSort distances).getD (min index (n - 1)) 0, distances.foldl stdMax 0)

/-- The threshold in units of the reference distance; without a bank there is nothing to
query. -/
def setThreshold : Option (Result Unit × PatchCore F) :=
  if icfg.enableAdaptiveThreshold then
    core.featureBank.map fun bank =>
      let (raw, refDist) :=
        computeAdaptiveThreshold engine bank icfg.targetFpr core.cfg.kNearest core.refDist
      (.ok (), { core with
        refDist := refDist
        effectiveThreshold := if 0 < refDist then raw / refDist else 1 })
  else some (.ok (), { core with effectiveThreshold := icfg.anomalyThreshold, refDist := 1 })

def loadPca : Option (Result Unit × PatchCore F) :=
  match inputs.pcaFile with
  | none => some (.ok (), core)
  | some (.error e) => some (.error e, core)
  | some (.ok pca) => some (.ok (), { core with pcaParams := some pca })

/-- `and_then`: the next part runs when this one has succeeded. -/
def andThen (part : Option (Result Unit × PatchCore F))
    (next : PatchCore F → Option (Result Unit × PatchCore F)) :
    Option (Result Unit × PatchCore F) :=
  match part with
  | some (.ok (), core) => next core
  | other => other

/-- `PatchCore::Initialize`. -/
def initializeDetector : Option (Result Unit × PatchCore F) :=
  andThen (andThen (andThen (core.loadBank inputs) (whitenBank icfg inputs))
    (setThreshold icfg engine)) (loadPca inputs)

variable {icfg inputs engine core} {core' : PatchCore F}

omit [Zero F] [One F] [Add F] [Sub F] [Mul F] [Div F] [Neg F] [NatCast F] [LT F] [DecidableLT F]
  [FloatMath F] in
theorem andThen_eq_ok {part : Option (Result Unit × PatchCore F)}
    {next : PatchCore F → Option (Result Unit × PatchCore F)}
    (h : andThen part next = some (.ok (), core')) :
    ∃ core, part = some (.ok (), core) ∧ next core = some (.ok (), core') := by
  unfold andThen at h
  split at h
  · exact ⟨_, rfl, h⟩
  · next hother => exact absurd h (hother core')

/-- What a part of the initialisation keeps: the configuration, the context, and that a bank
has the dimension of the detector. -/
structure Keeps (core core' : PatchCore F) : Prop where
  cfg : core'.cfg = core.cfg
  lastCtx : core'.lastCtx = core.lastCtx
  bankDim : (∀ bank ∈ core.featureBank, bank.dim = core.cfg.embedDim) →
    ∀ bank ∈ core'.featureBank, bank.dim = core.cfg.embedDim

omit [Zero F] [One F] [Add F] [Sub F] [Mul F] [Div F] [Neg F] [NatCast F] [LT F] [DecidableLT F]
  [FloatMath F] in
theorem Keeps.trans {core'' : PatchCore F} (h : Keeps core core') (h' : Keeps core' core'') :
    Keeps core core'' where
  cfg := h'.cfg.trans h.cfg
  lastCtx := h'.lastCtx.trans h.lastCtx
  bankDim hdim bank hbank := by
    have hmiddle := h.bankDim hdim
    rw [← h.cfg] at hmiddle ⊢
    exact h'.bankDim hmiddle bank hbank

omit [Zero F] [One F] [Add F] [Sub F] [Mul F] [Div F] [Neg F] [NatCast F] [LT F] [DecidableLT F]
  [FloatMath F] in
theorem keeps_loadBank (h : core.loadBank inputs = some (.ok (), core')) : Keeps core core' := by
  unfold loadBank at h
  split at h
  next file hbank hfile =>
    obtain ⟨loaded, hloaded, h⟩ := Option.map_eq_some_iff.mp h
    cases loaded with
    | error e => cases (Prod.mk.inj h).1
    | ok bank =>
      obtain ⟨-, rfl⟩ := Prod.mk.inj h
      refine ⟨rfl, rfl, fun _ bank' hbank' => ?_⟩
      obtain rfl := Option.some.inj hbank'
      exact FeatureBank.dim_loadFromFile hloaded
  next =>
    obtain ⟨-, rfl⟩ := Prod.mk.inj (Option.some.inj h)
    exact ⟨rfl, rfl, id⟩

omit [Sub F] [Neg F] [LT F] [DecidableLT F] in
theorem keeps_whitenBank (h : core.whitenBank icfg inputs = some (.ok (), core')) :
    Keeps core core' := by
  unfold whitenBank at h
  split at h
  · obtain ⟨-, rfl⟩ := Prod.mk.inj (Option.some.inj h)
    exact ⟨rfl, rfl, id⟩
  · split_ifs at h with henabled
    · dsimp only at h
      split at h
      · cases (Prod.mk.inj (Option.some.inj h)).1
      · obtain ⟨-, rfl⟩ := Prod.mk.inj (Option.some.inj h)
        refine ⟨rfl, rfl, fun _ bank' hbank' => ?_⟩
        obtain rfl := Option.some.inj hbank'
        rfl
    · obtain ⟨-, rfl⟩ := Prod.mk.inj (Option.some.inj h)
      exact ⟨rfl, rfl, id⟩

omit [Add F] [Neg F] in
theorem keeps_setThreshold (h : core.setThreshold icfg engine = some (.ok (), core')) :
    Keeps core core' := by
  unfold setThreshold at h
  split_ifs at h
  · obtain ⟨bank, -, h⟩ := Option.map_eq_some_iff.mp h
    obtain ⟨-, rfl⟩ := Prod.mk.inj h
    exact ⟨rfl, rfl, id⟩
  · obtain ⟨-, rfl⟩ := Prod.mk.inj (Option.some.inj h)
    exact ⟨rfl, rfl, id⟩

omit [Zero F] [One F] [Add F] [Sub F] [Mul F] [Div F] [Neg F] [NatCast F] [LT F] [DecidableLT F]
  [FloatMath F] in
theorem keeps_loadPca (h : core.loadPca inputs = some (.ok (), core')) : Keeps core core' := by
  unfold loadPca at h
  split at h
  · obtain ⟨-, rfl⟩ := Prod.mk.inj (Option.some.inj h)
    exact ⟨rfl, rfl, id⟩
  · cases (Prod.mk.inj (Option.some.inj h)).1
  · obtain ⟨-, rfl⟩ := Prod.mk.inj (Option.some.inj h)
    exact ⟨rfl, rfl, id⟩

omit [Neg F] in
theorem keeps_initializeDetector
    (h : core.initializeDetector icfg inputs engine = some (.ok (), core')) : Keeps core core' := by
  obtain ⟨core₃, h, hpca⟩ := andThen_eq_ok h
  obtain ⟨core₂, h, hthreshold⟩ := andThen_eq_ok h
  obtain ⟨core₁, hload, hwhiten⟩ := andThen_eq_ok h
  exact (((keeps_loadBank hload).trans (keeps_whitenBank hwhiten)).trans
    (keeps_setThreshold hthreshold)).trans (keeps_loadPca hpca)

end PatchCore

end SurfaceAi.Detection
