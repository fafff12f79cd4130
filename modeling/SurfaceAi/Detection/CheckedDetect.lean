import SurfaceAi.Detection.Initialize
import SurfaceAi.Detection.PatchCore
import SurfaceAi.Embedding.CheckedScore
import SurfaceAi.Embedding.PcaFile
import Mathlib.Algebra.Group.Nat.Defs

/-! Detection with every read of the embedding, the whitening transform and the PCA model checked.
The detectors compare the embedding's grid with their configuration and never its dimension, which
four loops take from four other places. -/

namespace SurfaceAi.Detection

open Embeddings

/-! ### Checked detection -/

namespace PatchCore

section Definitions

variable {F : Type*} [Zero F] [One F] [Add F] [Sub F] [Mul F] [Div F] [Neg F] [NatCast F]
  [LT F] [DecidableLT F] [FloatMath F]

/-- `ApplyWhitening`, with checked reads. -/
def whitenChecked (wp : WhiteningParams F) (inputDim count : ℕ) (vectors : List F) :
    Option (List F) := do
  let rows ← (List.range count).mapM fun n =>
    (List.range wp.targetDim).mapM fun t =>
      readSum 0 (List.range inputDim) fun j => do
        return (← wp.transform[t * inputDim + j]?) * (← vectors[n * inputDim + j]?)
  return rows.flatten

variable (core : PatchCore F)

/-- What the bank is searched with, before it is cut into rows. -/
def queryData (data : List F) (queryCount : ℕ) : Option (List F) :=
  match core.whiteningParams with
  | some wp => whitenChecked wp core.cfg.embedDim queryCount data
  | none => some data

/-- `Search`, which cuts rows of the bank's dimension. -/
def searchChecked (engine : NearestSearch F) (bank : FeatureBank F) (query : List F)
    (queryCount : ℕ) : Option (List F) :=
  if queryCount = 0 ∨ core.cfg.kNearest = 0 then some []
  else do
    let rows ← (List.range queryCount).mapM fun i => Checked.slice query (i * bank.dim) bank.dim
    return bank.search engine rows core.cfg.kNearest

def patchScoresChecked (distances data : List F) (queryCount : ℕ) : Option (List F) :=
  let scores := core.distanceScores distances queryCount
  match core.pcaParams with
  | none => some scores
  | some pca => do
    let pcaScores ← pca.scoreChecked data queryCount core.cfg.pcaScoreMethod core.cfg.dropK
    return List.zipWith (fun s p => core.cfg.hybridAlpha * s + (1 - core.cfg.hybridAlpha) * p)
      scores (normaliseByLargest pcaScores)

/-- `PatchCore::Detect`, with checked reads. -/
def detectChecked (engine : NearestSearch F) (latency : ℕ) (embedding : Embedding F) :
    Option (Result (DetectionResult F) × PatchCore F) :=
  match core.featureBank with
  | none => some (fail .detectionFeatureBankLoadFailed
      "PatchCore not initialized — FeatureBank not loaded", core)
  | some bank =>
    let gridH := embedding.embeddingMeta.gridH
    let gridW := embedding.embeddingMeta.gridW
    match validatePatchGrid gridH gridW core.cfg.imageHeight core.cfg.imageWidth
        core.cfg.patchSize with
    | .error e => some (.error e, core)
    | .ok () => do
      let queryCount := gridH * gridW
      let query ← core.queryData embedding.data queryCount
      let distances ← core.searchChecked engine bank query queryCount
      if distances = [] then
        return (fail .detectionFeatureBankLoadFailed "k-NN search returned empty distances", core)
      else
        let scores ← core.patchScoresChecked distances embedding.data queryCount
        let copied ← Checked.slice embedding.data 0 (queryCount * core.cfg.embedDim)
        let result := buildDetectionResult scores gridH gridW core.cfg.imageHeight
          core.cfg.imageWidth core.cfg.gaussianSigma core.effectiveThreshold latency
        return (.ok result, { core with lastCtx :=
          { core.contextOf distances embedding.data gridH gridW result with
            embeddingData := copied } })

end Definitions

end PatchCore

namespace PcaDetector

variable {F : Type*} [Zero F] [One F] [Add F] [Sub F] [Mul F] [Div F] [Neg F] [NatCast F]
  [LT F] [DecidableLT F] [FloatMath F] (detector : PcaDetector F)

/-- `PcaDetector::Initialize`, from the configured dimension and what the model's file holds. -/
def initializeDetector (embedDim : ℕ) (loaded : Result (PcaParams F)) :
    Result Unit × PcaDetector F :=
  match loaded with
  | .error e => (.error e, detector)
  | .ok params =>
    if params.mean.length ≠ embedDim then
      (fail .detectionFeatureBankLoadFailed ("PcaDetector: PCA model dim (" ++
        toString params.mean.length ++ ") != config embed_dim (" ++ toString embedDim ++ ")"),
        detector)
    else (.ok (), { detector with pcaParams := some params })

/-- `PcaDetector::Detect`, with checked reads. -/
def detectChecked (latency : ℕ) (embedding : Embedding F) :
    Option (Result (DetectionResult F)) :=
  match detector.pcaParams with
  | none => some (fail .detectionFeatureBankLoadFailed
      "PcaDetector not initialized — PCA model not loaded")
  | some pca =>
    let gridH := embedding.embeddingMeta.gridH
    let gridW := embedding.embeddingMeta.gridW
    match validatePatchGrid gridH gridW detector.cfg.imageHeight detector.cfg.imageWidth
        detector.cfg.patchSize with
    | .error e => some (.error e)
    | .ok () => do
      let scores ← pca.scoreChecked embedding.data (gridH * gridW) detector.cfg.scoreMethod
        detector.cfg.dropK
      if scores = [] then
        return fail .detectionFeatureBankLoadFailed "PCA scoring returned empty scores"
      else
        return .ok (buildDetectionResult (normaliseByLargest scores) gridH gridW
          detector.cfg.imageHeight detector.cfg.imageWidth detector.cfg.gaussianSigma
          detector.cfg.anomalyThreshold latency)

end PcaDetector

/-! ### What an initialised detector has -/

namespace PatchCore

section Prepared

variable {F : Type*} [Zero F] [One F] [Add F] [Sub F] [Mul F] [Div F] [Neg F] [NatCast F]
  [LT F] [DecidableLT F] [FloatMath F] {icfg : InitializeConfig F} {inputs : InitializeInputs F}
  {engine : NearestSearch F} {core core' : PatchCore F}

/-- A transform is square, of the configured dimension, and the bank has that dimension too; a
PCA model is the one of the file. -/
structure Prepared (inputs : InitializeInputs F) (core : PatchCore F) : Prop where
  whitened : ∀ wp, core.whiteningParams = some wp →
    wp.targetDim = core.cfg.embedDim ∧
      wp.transform.length = core.cfg.embedDim * core.cfg.embedDim ∧
      ∀ bank, core.featureBank = some bank → bank.dim = core.cfg.embedDim
  loaded : ∀ pca, core.pcaParams = some pca → inputs.pcaFile = some (.ok pca)

omit [Zero F] [One F] [Add F] [Sub F] [Mul F] [Div F] [Neg F] [NatCast F] [LT F] [DecidableLT F]
  [FloatMath F] in
theorem loadBank_whitening (h : core.loadBank inputs = some (.ok (), core')) :
    core'.whiteningParams = core.whiteningParams ∧ core'.pcaParams = core.pcaParams := by
  unfold loadBank at h
  split at h
  next file hbank hfile =>
    obtain ⟨loaded, -, h⟩ := Option.map_eq_some_iff.mp h
    cases loaded with
    | error e => cases (Prod.mk.inj h).1
    | ok bank =>
      obtain ⟨-, rfl⟩ := Prod.mk.inj h
      exact ⟨rfl, rfl⟩
  next =>
    obtain ⟨-, rfl⟩ := Prod.mk.inj (Option.some.inj h)
    exact ⟨rfl, rfl⟩

omit [Sub F] [Neg F] [LT F] [DecidableLT F] in
theorem Prepared.whitenBank (hcore : core.Prepared inputs)
    (h : core.whitenBank icfg inputs = some (.ok (), core')) : core'.Prepared inputs := by
  unfold PatchCore.whitenBank at h
  split at h
  · obtain ⟨-, rfl⟩ := Prod.mk.inj (Option.some.inj h)
    exact hcore
  · split_ifs at h
    · dsimp only at h
      split at h
      · cases (Prod.mk.inj (Option.some.inj h)).1
      · obtain ⟨-, rfl⟩ := Prod.mk.inj (Option.some.inj h)
        refine ⟨fun wp hwp => ?_, hcore.loaded⟩
        obtain rfl := Option.some.inj hwp
        refine ⟨rfl, FlatMatrix.length_tabulate .., fun bank hbank => ?_⟩
        obtain rfl := Option.some.inj hbank
        rfl
    · obtain ⟨-, rfl⟩ := Prod.mk.inj (Option.some.inj h)
      exact hcore

omit [Add F] [Neg F] in
theorem Prepared.setThreshold (hcore : core.Prepared inputs)
    (h : core.setThreshold icfg engine = some (.ok (), core')) : core'.Prepared inputs := by
  unfold PatchCore.setThreshold at h
  split_ifs at h
  · obtain ⟨bank, -, h⟩ := Option.map_eq_some_iff.mp h
    obtain ⟨-, rfl⟩ := Prod.mk.inj h
    exact ⟨hcore.whitened, hcore.loaded⟩
  · obtain ⟨-, rfl⟩ := Prod.mk.inj (Option.some.inj h)
    exact ⟨hcore.whitened, hcore.loaded⟩

omit [Zero F] [One F] [Add F] [Sub F] [Mul F] [Div F] [Neg F] [NatCast F] [LT F] [DecidableLT F]
  [FloatMath F] in
theorem Prepared.loadPca (hcore : core.Prepared inputs)
    (h : core.loadPca inputs = some (.ok (), core')) : core'.Prepared inputs := by
  unfold PatchCore.loadPca at h
  split at h
  next =>
    obtain ⟨-, rfl⟩ := Prod.mk.inj (Option.some.inj h)
    exact hcore
  next => cases (Prod.mk.inj (Option.some.inj h)).1
  next params hfile =>
    obtain ⟨-, rfl⟩ := Prod.mk.inj (Option.some.inj h)
    refine ⟨hcore.whitened, fun pca hpca => ?_⟩
    obtain rfl := Option.some.inj hpca
    exact hfile

omit [Neg F] in
theorem prepared_of_initialized {cfg : PatchCoreConfig F} {injected : Option (FeatureBank F)}
    (h : (create cfg injected).initializeDetector icfg inputs engine = some (.ok (), core)) :
    core.Prepared inputs := by
  obtain ⟨core₃, h, hpca⟩ := andThen_eq_ok h
  obtain ⟨core₂, h, hthreshold⟩ := andThen_eq_ok h
  obtain ⟨core₁, hload, hwhiten⟩ := andThen_eq_ok h
  obtain ⟨hwp, hparams⟩ := loadBank_whitening hload
  have hcore₁ : core₁.Prepared inputs := by
    constructor
    · intro wp h
      rw [hwp] at h
      cases h
    · intro pca h
      rw [hparams] at h
      cases h
  exact ((hcore₁.whitenBank hwhiten).setThreshold hthreshold).loadPca hpca

end Prepared

end PatchCore

/-! ### Reads that are inside -/

section Loaded

variable {F : Type*}

/-- The lengths that `LoadPcaParams` leaves: the number of floats is a 64-bit product. -/
structure LoadedModel (pca : PcaParams F) : Prop where
  eigvals : pca.eigvals.length = pca.targetDim
  components : pca.components.length = pca.targetDim * pca.inputDim % 2 ^ 64

open DimensionReducer in
theorem loadedModel_of_load {allocates : ℕ → ℕ → ℕ → Bool} {path : String}
    {file : Option BinaryFile} {params : PcaParams UInt32}
    (h : loadPcaParams allocates path file = some (.ok params)) (decode : UInt32 → F) :
    LoadedModel (⟨params.components.map decode, params.targetDim, params.mean.map decode,
      params.eigvals.map decode⟩ : PcaParams F) := by
  cases file with
  | none => cases Option.some.inj h
  | some file =>
    simp only [loadPcaParams] at h
    split_ifs at h
    · cases Option.some.inj h
    · cases Option.some.inj h
    · obtain rfl := Except.ok.inj (Option.some.inj h)
      refine ⟨?_, ?_⟩
      · simp [InputStream.readFloats, ByteWords.length_words]
      · simp [InputStream.readFloats, ByteWords.length_words, PcaParams.inputDim]

/-- Of a loaded model, what scoring reads is there if its rows are no longer than the embedding's
and the number of its components has not wrapped. -/
theorem LoadedModel.inside_iff {pca : PcaParams F} (h : LoadedModel pca) {data : List F}
    {count dim : ℕ} (hcount : 0 < count) (hdata : data.length = count * dim)
    (method : PcaScoreMethod) :
    pca.Inside data count method ↔
      pca.inputDim ≤ dim ∧ pca.targetDim * pca.inputDim < 2 ^ 64 := by
  have hmod : pca.targetDim * pca.inputDim ≤ pca.components.length ↔
      pca.targetDim * pca.inputDim < 2 ^ 64 := by
    rw [h.components]
    constructor
    · intro hle
      exact lt_of_le_of_lt hle (Nat.mod_lt _ (by decide))
    · intro hlt
      rw [Nat.mod_eq_of_lt hlt]
  constructor
  · intro hinside
    have hrows := hinside.rows
    rw [hdata] at hrows
    exact ⟨Nat.le_of_mul_le_mul_left hrows hcount, hmod.mp hinside.components⟩
  · rintro ⟨hdim, hproduct⟩
    exact ⟨hdata ▸ Nat.mul_le_mul_left count hdim, hmod.mpr hproduct, fun _ => h.eigvals.ge⟩

end Loaded

namespace PatchCore

section Reads

variable {F : Type*} [Zero F] [One F] [Add F] [Sub F] [Mul F] [Div F] [Neg F] [NatCast F]
  [LT F] [DecidableLT F] [FloatMath F] {core : PatchCore F} {engine : NearestSearch F}
  {latency : ℕ} {embedding : Embedding F} {bank : FeatureBank F} {data query : List F}
  {count : ℕ}

omit [One F] [Sub F] [Div F] [Neg F] [NatCast F] [LT F] [DecidableLT F] [FloatMath F] in
theorem whitenChecked_eq {wp : WhiteningParams F} {inputDim : ℕ}
    (htransform : wp.transform.length = wp.targetDim * inputDim)
    (hdata : count * inputDim ≤ data.length) :
    whitenChecked wp inputDim count data =
      some ((Rows.rows inputDim count data).map (whiten wp inputDim)).flatten := by
  have hrows : ((List.range count).mapM fun n => (List.range wp.targetDim).mapM fun t =>
      readSum 0 (List.range inputDim) fun j => do
        return (← wp.transform[t * inputDim + j]?) * (← data[n * inputDim + j]?)) =
      some ((List.range count).map fun n => whiten wp inputDim (Rows.row inputDim n data)) := by
    refine Returns.mapM_eq_map fun n hn => Returns.mapM_eq_map fun t ht => ?_
    have hrow : (n + 1) * inputDim ≤ data.length :=
      le_trans (Nat.mul_le_mul_right _ (List.mem_range.mp hn)) hdata
    have hcomponent : (t + 1) * inputDim ≤ wp.transform.length :=
      htransform ▸ Nat.mul_le_mul_right _ (List.mem_range.mp ht)
    rw [dot_rows hcomponent hrow]
    refine readSum_eq fun j hj => ?_
    have hj := List.mem_range.mp hj
    rw [Checked.getElem?_eq_getD
        (lt_of_lt_of_le (Checked.flat_lt (Nat.lt_succ_self t) hj) hcomponent) 0,
      Checked.getElem?_eq_getD (lt_of_lt_of_le (Checked.flat_lt (Nat.lt_succ_self n) hj) hrow) 0]
    rfl
  rw [whitenChecked, hrows, Rows.rows, List.map_map]
  rfl

omit [Zero F] [One F] [Add F] [Sub F] [Mul F] [Div F] [Neg F] [NatCast F] [LT F] [DecidableLT F]
  [FloatMath F] in
theorem searchChecked_eq (h : count * bank.dim ≤ query.length) :
    core.searchChecked engine bank query count =
      some (bank.search engine (Rows.rows bank.dim count query) core.cfg.kNearest) := by
  unfold searchChecked
  split_ifs with hempty
  · rw [FeatureBank.search, if_pos]
    rcases hempty with rfl | hk
    · exact .inl rfl
    · exact .inr hk
  · have hrows : ((List.range count).mapM fun i =>
        Checked.slice query (i * bank.dim) bank.dim) = some (Rows.rows bank.dim count query) :=
      Returns.mapM_eq_map fun i hi => Checked.slice_block (List.mem_range.mp hi) h
    rw [hrows]
    rfl

omit [Zero F] [One F] [Add F] [Sub F] [Mul F] [Div F] [Neg F] [NatCast F] [LT F] [DecidableLT F]
  [FloatMath F] in
theorem le_of_isSome_searchChecked (hcount : 0 < count) (hk : 0 < core.cfg.kNearest)
    (h : (core.searchChecked engine bank query count).isSome) :
    count * bank.dim ≤ query.length := by
  rw [searchChecked, if_neg (by omega)] at h
  have hlast := (Returns.isSome_mapM _).mp (Option.isSome_of_isSome_bind h) (count - 1)
    (List.mem_range.mpr (by omega))
  have hslice : (count - 1) * bank.dim + bank.dim ≤ query.length := by
    by_contra hout
    rw [Checked.slice, if_neg hout] at hlast
    cases hlast
  rwa [← Nat.succ_mul, Nat.succ_eq_add_one, Nat.sub_add_cancel hcount] at hslice

theorem patchScoresChecked_eq (distances : List F)
    (h : ∀ pca, core.pcaParams = some pca → pca.targetDim ≤ core.cfg.dropK ∨
      pca.Inside data count core.cfg.pcaScoreMethod) :
    core.patchScoresChecked distances data count = some (core.patchScores distances data count) := by
  unfold patchScoresChecked patchScores
  cases hpca : core.pcaParams with
  | none => rfl
  | some pca =>
    dsimp only
    rw [PcaParams.scoreChecked_eq (h pca hpca)]
    rfl

omit [One F] [Sub F] [Div F] [Neg F] [NatCast F] [LT F] [DecidableLT F] [FloatMath F] in
/-- The rows that the bank is searched with are there. -/
theorem search_eq (engine : NearestSearch F) {inputs : InitializeInputs F}
    (hprepared : core.Prepared inputs)
    (hbank : core.featureBank = some bank) (hcontext : count * core.cfg.embedDim ≤ data.length)
    (hrows : core.whiteningParams = none → count * bank.dim ≤ data.length) :
    ∃ query, core.queryData data count = some query ∧
      core.searchChecked engine bank query count =
        some (bank.search engine (core.queryRows bank data count) core.cfg.kNearest) := by
  unfold queryData queryRows
  cases hwp : core.whiteningParams with
  | none => exact ⟨data, rfl, searchChecked_eq (hrows hwp)⟩
  | some wp =>
    obtain ⟨htarget, htransform, hdim⟩ := hprepared.whitened wp hwp
    have hblocks : ∀ b ∈ (Rows.rows core.cfg.embedDim count data).map (whiten wp core.cfg.embedDim),
        b.length = bank.dim := by
      intro b hb
      obtain ⟨row, -, rfl⟩ := List.mem_map.mp hb
      rw [whiten, List.length_map, List.length_range, htarget, hdim bank hbank]
    have hcut := Rows.rows_flatten hblocks
    rw [List.length_map, Rows.length_rows] at hcut
    refine ⟨_, whitenChecked_eq (by rw [htransform, htarget]) hcontext, ?_⟩
    rw [searchChecked_eq, hcut]
    have hlength : ((Rows.rows core.cfg.embedDim count data).map
        (whiten wp core.cfg.embedDim)).flatten.length = count * bank.dim := by
      have hmap := List.map_eq_replicate_iff.mpr hblocks
      rw [List.length_flatten, hmap, List.sum_replicate_nat, List.length_map, Rows.length_rows]
    exact hlength.ge

variable (core) in
/-- `Detect` refuses before it has read a score. -/
def Refuses (m : EmbeddingMeta) : Prop :=
  core.featureBank = none ∨
  (∃ e, validatePatchGrid m.gridH m.gridW core.cfg.imageHeight core.cfg.imageWidth
    core.cfg.patchSize = .error e) ∨
  m.gridH * m.gridW = 0 ∨ core.cfg.kNearest = 0

variable (core) in
/-- The dimensions that the loops go by are no larger than the embedding's, and the number of the
model's components has not wrapped. -/
structure Fits (m : EmbeddingMeta) : Prop where
  context : core.cfg.embedDim ≤ m.dim
  bank : core.whiteningParams = none → ∀ bank, core.featureBank = some bank → bank.dim ≤ m.dim
  pca : ∀ pca, core.pcaParams = some pca → pca.targetDim ≤ core.cfg.dropK ∨
    pca.inputDim ≤ m.dim ∧ pca.targetDim * pca.inputDim < 2 ^ 64

variable (core engine latency embedding) in
/-- `Detect` returns an error, or every read is inside its array. -/
def ReadsInside : Prop :=
  (∃ e, (core.detect engine latency embedding).1 = .error e) ∨
    (core.detectChecked engine latency embedding).isSome

omit [One F] [Sub F] [Div F] [Neg F] [NatCast F] [LT F] [DecidableLT F] [FloatMath F] in
theorem search_eq_nil_iff :
    bank.search engine (core.queryRows bank data count) core.cfg.kNearest = [] ↔
      count = 0 ∨ core.cfg.kNearest = 0 := by
  have hlength : (core.queryRows bank data count).length = count := by
    unfold queryRows
    split
    · rw [List.length_map, Rows.length_rows]
    · exact Rows.length_rows ..
  rw [← List.length_eq_zero_iff, FeatureBank.length_search, hlength, Nat.mul_eq_zero]

theorem detect_eq_error_iff :
    (∃ e, (core.detect engine latency embedding).1 = .error e) ↔
      core.Refuses embedding.embeddingMeta := by
  unfold detect Refuses
  cases hbank : core.featureBank with
  | none => exact ⟨fun _ => .inl rfl, fun _ => ⟨_, rfl⟩⟩
  | some bank =>
    dsimp only
    cases hgrid : validatePatchGrid embedding.embeddingMeta.gridH embedding.embeddingMeta.gridW
        core.cfg.imageHeight core.cfg.imageWidth core.cfg.patchSize with
    | error e => exact ⟨fun _ => .inr (.inl ⟨e, rfl⟩), fun _ => ⟨e, rfl⟩⟩
    | ok u =>
      dsimp only
      split_ifs with hnone
      · exact ⟨fun _ => .inr (.inr (search_eq_nil_iff.mp hnone)), fun _ => ⟨_, rfl⟩⟩
      · constructor
        · rintro ⟨e, he⟩
          cases he
        · rintro (hbank | ⟨e, he⟩ | hempty)
          · cases hbank
          · cases he
          · exact absurd (search_eq_nil_iff.mpr hempty) hnone

/-- A detection whose reads are inside is what the unchecked one is. -/
theorem detectChecked_eq {inputs : InitializeInputs F} (hprepared : core.Prepared inputs)
    (hloaded : ∀ pca, core.pcaParams = some pca → LoadedModel pca)
    (hdata : embedding.data.length =
      embedding.embeddingMeta.gridH * embedding.embeddingMeta.gridW * embedding.embeddingMeta.dim)
    (hcount : 0 < embedding.embeddingMeta.gridH * embedding.embeddingMeta.gridW)
    (h : core.Fits embedding.embeddingMeta) :
    core.detectChecked engine latency embedding = some (core.detect engine latency embedding) := by
  unfold detectChecked detect
  cases hbank : core.featureBank with
  | none => rfl
  | some bank =>
    dsimp only
    cases hgrid : validatePatchGrid embedding.embeddingMeta.gridH embedding.embeddingMeta.gridW
        core.cfg.imageHeight core.cfg.imageWidth core.cfg.patchSize with
    | error e => rfl
    | ok u =>
      have hcontext : embedding.embeddingMeta.gridH * embedding.embeddingMeta.gridW *
          core.cfg.embedDim ≤ embedding.data.length :=
        hdata ▸ Nat.mul_le_mul_left _ h.context
      obtain ⟨query, hquery, hsearch⟩ := search_eq engine hprepared hbank hcontext
        fun hwp => hdata ▸ Nat.mul_le_mul_left _ (h.bank hwp bank hbank)
      have hscores : ∀ distances, core.patchScoresChecked distances embedding.data _ = some _ :=
        fun distances => patchScoresChecked_eq distances fun pca hpca => (h.pca pca hpca).imp_right
          ((hloaded pca hpca).inside_iff hcount hdata core.cfg.pcaScoreMethod).mpr
      have hcopied : Checked.slice embedding.data 0 (embedding.embeddingMeta.gridH *
          embedding.embeddingMeta.gridW * core.cfg.embedDim) = some _ :=
        if_pos (by rwa [Nat.zero_add])
      simp only [hquery, hsearch, Option.bind_eq_bind, Option.bind_some]
      split_ifs
      · rfl
      · simp only [hscores, hcopied, Option.bind_some]
        rfl

/-- In a detection that does not refuse, the embedding is as large as every loop assumes. -/
theorem fits_of_isSome
    (hloaded : ∀ pca, core.pcaParams = some pca → LoadedModel pca)
    (hdata : embedding.data.length =
      embedding.embeddingMeta.gridH * embedding.embeddingMeta.gridW * embedding.embeddingMeta.dim)
    (hrefuses : ¬core.Refuses embedding.embeddingMeta)
    (h : (core.detectChecked engine latency embedding).isSome) :
    core.Fits embedding.embeddingMeta := by
  unfold Refuses at hrefuses
  unfold detectChecked at h
  cases hbank : core.featureBank with
  | none => exact absurd (.inl hbank) hrefuses
  | some bank =>
    rw [hbank] at h
    dsimp only at h
    cases hgrid : validatePatchGrid embedding.embeddingMeta.gridH embedding.embeddingMeta.gridW
        core.cfg.imageHeight core.cfg.imageWidth core.cfg.patchSize with
    | error e => exact absurd (.inr (.inl ⟨e, hgrid⟩)) hrefuses
    | ok u =>
      rw [hgrid] at h
      dsimp only at h
      have hcount : 0 < embedding.embeddingMeta.gridH * embedding.embeddingMeta.gridW := by
        by_contra hzero
        exact hrefuses (.inr (.inr (.inl (by omega))))
      have hk : 0 < core.cfg.kNearest := by
        by_contra hzero
        exact hrefuses (.inr (.inr (.inr (by omega))))
      obtain ⟨query, hquery⟩ := Option.isSome_iff_exists.mp (Option.isSome_of_isSome_bind h)
      rw [hquery] at h
      simp only [Option.bind_eq_bind, Option.bind_some] at h
      have hrows := le_of_isSome_searchChecked hcount hk (Option.isSome_of_isSome_bind h)
      have hsome : bank.search engine (Rows.rows bank.dim (embedding.embeddingMeta.gridH *
          embedding.embeddingMeta.gridW) query) core.cfg.kNearest ≠ [] := by
        rw [← List.length_pos_iff, FeatureBank.length_search, Rows.length_rows]
        exact Nat.mul_pos hcount hk
      rw [searchChecked_eq hrows] at h
      simp only [Option.bind_some, if_neg hsome] at h
      have hscores := Option.isSome_of_isSome_bind h
      have hcopied := Option.isSome_of_isSome_bind (Option.isSome_apply_of_isSome_bind h)
      have hle : ∀ {dim : ℕ}, embedding.embeddingMeta.gridH * embedding.embeddingMeta.gridW *
          dim ≤ embedding.data.length → dim ≤ embedding.embeddingMeta.dim :=
        fun hdim => Nat.le_of_mul_le_mul_left (hdata ▸ hdim) hcount
      refine ⟨hle ?_, fun hwp bank' hbank' => hle ?_, fun pca hpca => ?_⟩
      · by_contra hout
        rw [Checked.slice, if_neg (by rwa [Nat.zero_add])] at hcopied
        cases hcopied
      · obtain rfl := Option.some.inj (hbank.symm.trans hbank')
        unfold queryData at hquery
        rw [hwp] at hquery
        obtain rfl := Option.some.inj hquery
        exact hrows
      · unfold patchScoresChecked at hscores
        rw [hpca] at hscores
        have hscore := PcaParams.isSome_scoreChecked_iff.mp (Option.isSome_of_isSome_bind hscores)
        exact (hscore.resolve_left hcount.ne').imp_right
          ((hloaded pca hpca).inside_iff hcount hdata core.cfg.pcaScoreMethod).mp

/-- A prepared detector reads inside an embedding exactly if it refuses it or its dimensions
fit. -/
theorem readsInside_iff {inputs : InitializeInputs F} (hprepared : core.Prepared inputs)
    (hloaded : ∀ pca, core.pcaParams = some pca → LoadedModel pca)
    (hdata : embedding.data.length =
      embedding.embeddingMeta.gridH * embedding.embeddingMeta.gridW * embedding.embeddingMeta.dim) :
    core.ReadsInside engine latency embedding ↔
      core.Refuses embedding.embeddingMeta ∨ core.Fits embedding.embeddingMeta := by
  rw [ReadsInside, detect_eq_error_iff]
  by_cases hrefuses : core.Refuses embedding.embeddingMeta
  · exact ⟨fun _ => .inl hrefuses, fun _ => .inl hrefuses⟩
  · constructor
    · rintro (h | h)
      · exact .inl h
      · exact .inr (fits_of_isSome hloaded hdata hrefuses h)
    · rintro (h | h)
      · exact .inl h
      · have hcount : 0 < embedding.embeddingMeta.gridH * embedding.embeddingMeta.gridW := by
          by_contra hzero
          exact hrefuses (.inr (.inr (.inl (by omega))))
        right
        rw [detectChecked_eq hprepared hloaded hdata hcount h]
        rfl

end Reads

end PatchCore

/-! ### The PCA detector -/

namespace PcaDetector

variable {F : Type*} [Zero F] [One F] [Add F] [Sub F] [Mul F] [Div F] [Neg F] [NatCast F]
  [LT F] [DecidableLT F] [FloatMath F] {detector : PcaDetector F} {latency : ℕ}
  {embedding : Embedding F} {pca : PcaParams F}

variable (detector) in
/-- `Detect` refuses before it has scores. -/
def Refuses (m : EmbeddingMeta) : Prop :=
  (∃ e, validatePatchGrid m.gridH m.gridW detector.cfg.imageHeight detector.cfg.imageWidth
    detector.cfg.patchSize = .error e) ∨ m.gridH * m.gridW = 0

variable (detector latency embedding) in
/-- `Detect` returns an error, or every read is inside its array. -/
def ReadsInside : Prop :=
  (∃ e, detector.detect latency embedding = .error e) ∨
    (detector.detectChecked latency embedding).isSome

omit [Zero F] [One F] [Add F] [Sub F] [Mul F] [Div F] [Neg F] [NatCast F] [LT F] [DecidableLT F]
  [FloatMath F] in
theorem initializeDetector_eq_ok {embedDim : ℕ} {loaded : Result (PcaParams F)}
    {initial : PcaDetector F}
    (h : initial.initializeDetector embedDim loaded = (.ok (), detector)) :
    ∃ pca, loaded = .ok pca ∧ detector.pcaParams = some pca ∧ pca.inputDim = embedDim := by
  unfold initializeDetector at h
  cases loaded with
  | error e => cases (Prod.mk.inj h).1
  | ok pca =>
    dsimp only at h
    split_ifs at h with hdim
    · cases (Prod.mk.inj h).1
    · obtain ⟨-, rfl⟩ := Prod.mk.inj h
      exact ⟨pca, rfl, rfl, not_not.mp hdim⟩

theorem readsInside_iff (hpca : detector.pcaParams = some pca) (hloaded : LoadedModel pca)
    (hdata : embedding.data.length =
      embedding.embeddingMeta.gridH * embedding.embeddingMeta.gridW * embedding.embeddingMeta.dim) :
    detector.ReadsInside latency embedding ↔
      detector.Refuses embedding.embeddingMeta ∨ pca.targetDim ≤ detector.cfg.dropK ∨
        pca.inputDim ≤ embedding.embeddingMeta.dim ∧ pca.targetDim * pca.inputDim < 2 ^ 64 := by
  unfold ReadsInside Refuses detect detectChecked
  rw [hpca]
  dsimp only
  cases hgrid : validatePatchGrid embedding.embeddingMeta.gridH embedding.embeddingMeta.gridW
      detector.cfg.imageHeight detector.cfg.imageWidth detector.cfg.patchSize with
  | error e => exact ⟨fun _ => .inl (.inl ⟨e, rfl⟩), fun _ => .inl ⟨e, rfl⟩⟩
  | ok u =>
    have hlength : (detector.rawScores pca embedding).length =
        embedding.embeddingMeta.gridH * embedding.embeddingMeta.gridW := by
      rw [rawScores, PcaParams.score, List.length_map, Rows.length_rows]
    rcases Nat.eq_zero_or_pos (embedding.embeddingMeta.gridH * embedding.embeddingMeta.gridW) with
      hzero | hcount
    · have hnone : detector.rawScores pca embedding = [] := by
        rw [← List.length_eq_zero_iff, hlength, hzero]
      refine ⟨fun _ => .inl (.inr hzero), fun _ => .inl ?_⟩
      dsimp only
      rw [if_pos hnone]
      exact ⟨_, rfl⟩
    · have hsome : detector.rawScores pca embedding ≠ [] := by
        rw [← List.length_pos_iff, hlength]
        exact hcount
      have hchecked : (pca.scoreChecked embedding.data
          (embedding.embeddingMeta.gridH * embedding.embeddingMeta.gridW) detector.cfg.scoreMethod
          detector.cfg.dropK).isSome ↔ _ := PcaParams.isSome_scoreChecked_iff
      rw [hloaded.inside_iff hcount hdata] at hchecked
      dsimp only
      rw [if_neg hsome]
      constructor
      · rintro (⟨e, he⟩ | h)
        · cases he
        · exact .inr ((hchecked.mp (Option.isSome_of_isSome_bind h)).resolve_left hcount.ne')
      · rintro ((⟨e, he⟩ | hzero) | h)
        · cases he
        · exact absurd hzero hcount.ne'
        · obtain ⟨scores, hscores⟩ := Option.isSome_iff_exists.mp (hchecked.mpr (.inr h))
          right
          rw [hscores]
          simp only [Option.bind_eq_bind, Option.bind_some]
          split_ifs <;> rfl

end PcaDetector

/-! ### Both detectors -/

/-- On the CPU, with a row of floats for each cell of the grid. -/
structure WellShaped {F : Type*} (embedding : Embedding F) : Prop where
  cpu : embedding.onGpu = false
  count : embedding.embeddingMeta.count =
    embedding.embeddingMeta.gridH * embedding.embeddingMeta.gridW
  data : embedding.data.length = embedding.embeddingMeta.count * embedding.embeddingMeta.dim

section Both

variable {F : Type*} [Zero F] [One F] [Add F] [Sub F] [Mul F] [Div F] [Neg F] [NatCast F]
  [LT F] [DecidableLT F] [FloatMath F]

/-- Detectors read inside a well-shaped embedding exactly if they refuse it or it is as wide as
the dimension that each of their loops goes by; a model file leaves the lengths assumed of it. -/
theorem detectors_read_inside_iff :
    (∀ {cfg : PatchCoreConfig F} {injected : Option (FeatureBank F)} {icfg : InitializeConfig F}
        {inputs : InitializeInputs F} {engine : NearestSearch F} {core : PatchCore F},
      (∀ pca, inputs.pcaFile = some (.ok pca) → LoadedModel pca) →
      (PatchCore.create cfg injected).initializeDetector icfg inputs engine =
        some (.ok (), core) →
      ∀ (search : NearestSearch F) (latency : ℕ) (embedding : Embedding F), WellShaped embedding →
        (core.ReadsInside search latency embedding ↔
          core.Refuses embedding.embeddingMeta ∨ core.Fits embedding.embeddingMeta)) ∧
    (∀ {initial detector : PcaDetector F} {embedDim : ℕ} {pca : PcaParams F}, LoadedModel pca →
      initial.initializeDetector embedDim (.ok pca) = (.ok (), detector) →
      ∀ (latency : ℕ) (embedding : Embedding F), WellShaped embedding →
        (detector.ReadsInside latency embedding ↔
          detector.Refuses embedding.embeddingMeta ∨ pca.targetDim ≤ detector.cfg.dropK ∨
            embedDim ≤ embedding.embeddingMeta.dim ∧ pca.targetDim * embedDim < 2 ^ 64)) ∧
    ∀ (allocates : ℕ → ℕ → ℕ → Bool) (path : String) (file : Option DimensionReducer.BinaryFile)
      (params : PcaParams UInt32) (decode : UInt32 → F),
      DimensionReducer.loadPcaParams allocates path file = some (.ok params) →
      LoadedModel (⟨params.components.map decode, params.targetDim, params.mean.map decode,
        params.eigvals.map decode⟩ : PcaParams F) := by
  refine ⟨?_, ?_, fun allocates path file params decode h => loadedModel_of_load h decode⟩
  · intro cfg injected icfg inputs engine core hfile hinit search latency embedding hshape
    have hprepared := PatchCore.prepared_of_initialized hinit
    exact PatchCore.readsInside_iff hprepared
      (fun pca hpca => hfile pca (hprepared.loaded pca hpca)) (hshape.count ▸ hshape.data)
  · intro initial detector embedDim pca hloaded hinit latency embedding hshape
    obtain ⟨pca', hpca', hparams, rfl⟩ := PcaDetector.initializeDetector_eq_ok hinit
    obtain rfl := Except.ok.inj hpca'
    exact PcaDetector.readsInside_iff hparams hloaded (hshape.count ▸ hshape.data)

end Both

/-! ### Narrow frames -/

/-- Two-dimensional patches, one to a frame. -/
def wideConfig : PatchCoreConfig ℚ := ⟨1, 0, 1, 1, 1, 2, 0, 1 / 2, .reconstruction⟩

def wideBank : FeatureBank ℚ := ⟨2, [[0, 0]], by decide⟩

def wideModel : PcaParams ℚ := ⟨[1, 0], 1, [0, 0], [1]⟩

def wideInputs : InitializeInputs ℚ where
  pcaFile := some (.ok wideModel)
  fitPca _ _ := .ok wideModel

def wideCore : PatchCore ℚ :=
  { PatchCore.create wideConfig (some wideBank) with
    effectiveThreshold := 1
    pcaParams := some wideModel }

def wideDetector : PcaDetector ℚ := ⟨⟨.reconstruction, 0, 1, 0, 1, 1, 1⟩, none⟩

def wideLoaded : PcaDetector ℚ := { wideDetector with pcaParams := some wideModel }

theorem wideModel_loaded : LoadedModel wideModel := ⟨rfl, by decide⟩

theorem wideCore_initialized : (PatchCore.create wideConfig (some wideBank)).initializeDetector
    ⟨1, false, false, 0⟩ wideInputs flatL2 = some (.ok (), wideCore) := rfl

def wideFrame : Embedding ℚ := .fromCpu [1, 2] ⟨2, 1, 1, 1⟩

def narrowFrame : Embedding ℚ := .fromCpu [1] ⟨1, 1, 1, 1⟩

theorem detectors_read_inside_iff_wide :
    (wideCore.ReadsInside flatL2 0 wideFrame ↔
      wideCore.Refuses wideFrame.embeddingMeta ∨ wideCore.Fits wideFrame.embeddingMeta) ∧
    (wideLoaded.ReadsInside 0 wideFrame ↔
      wideLoaded.Refuses wideFrame.embeddingMeta ∨ 1 ≤ 0 ∨ 2 ≤ 2 ∧ 1 * 2 < 2 ^ 64) :=
  ⟨detectors_read_inside_iff.1
      (fun pca hpca => by
        obtain rfl := Except.ok.inj (Option.some.inj hpca)
        exact wideModel_loaded)
      wideCore_initialized flatL2 0 wideFrame ⟨rfl, rfl, rfl⟩,
    detectors_read_inside_iff.2.1 wideModel_loaded (show wideDetector.initializeDetector 2
      (.ok wideModel) = (.ok (), wideLoaded) from rfl) 0 wideFrame ⟨rfl, rfl, rfl⟩⟩

/-- A frame of one-dimensional patches for detectors of two dimensions: neither refuses it, and
both read past its end. -/
theorem narrow_frame_overread :
    WellShaped narrowFrame ∧
      (PatchCore.create wideConfig (some wideBank)).initializeDetector ⟨1, false, false, 0⟩
        wideInputs flatL2 = some (.ok (), wideCore) ∧
      ¬wideCore.ReadsInside flatL2 0 narrowFrame ∧
      wideDetector.initializeDetector 2 (.ok wideModel) = (.ok (), wideLoaded) ∧
      ¬wideLoaded.ReadsInside 0 narrowFrame := by
  have hanswers : (wideCore.detect flatL2 0 narrowFrame).1.isOk = true ∧
      (wideLoaded.detect 0 narrowFrame).isOk = true := by decide +kernel
  have hoverread : (wideCore.detectChecked flatL2 0 narrowFrame).isSome = false ∧
      (wideLoaded.detectChecked 0 narrowFrame).isSome = false := by decide +kernel
  refine ⟨⟨rfl, rfl, rfl⟩, rfl, ?_, rfl, ?_⟩
  · rintro (⟨e, he⟩ | h)
    · rw [he] at hanswers
      cases hanswers.1
    · rw [hoverread.1] at h
      cases h
  · rintro (⟨e, he⟩ | h)
    · rw [he] at hanswers
      cases hanswers.2
    · rw [hoverread.2] at h
      cases h

end SurfaceAi.Detection
