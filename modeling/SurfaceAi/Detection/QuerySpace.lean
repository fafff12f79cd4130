import SurfaceAi.Detection.BankOrigin
import SurfaceAi.Detection.Initialize
import SurfaceAi.Detection.VectorRetention

/-! In which space the vectors of the bank live. A detector whitens the bank it starts with
and every query, but leaves the frame's own patches in the context that the coreset evolution
buffers and merges. -/

namespace SurfaceAi.Detection

open Embeddings

variable {F : Type*}

/-! ### The detector with its evolution -/

namespace PatchCore

variable [Zero F] [One F] [Add F] [Sub F] [Mul F] [Div F] [Neg F] [NatCast F] [LT F]
  [DecidableLT F] [FloatMath F] (core : PatchCore F)

/-- The transform that `Detect` applies to a patch of its query. -/
def queryOf (patch : List F) : List F :=
  match core.whiteningParams with
  | some wp => whiten wp core.cfg.embedDim patch
  | none => patch

variable {core}

omit [One F] [Sub F] [Div F] [Neg F] [NatCast F] [LT F] [DecidableLT F] [FloatMath F] in
/-- The rows the bank is searched with are the transformed patches. -/
theorem queryRows_eq {bank : FeatureBank F} (hdim : bank.dim = core.cfg.embedDim) (data : List F)
    (n : ℕ) : core.queryRows bank data n = (Rows.rows core.cfg.embedDim n data).map core.queryOf := by
  unfold queryRows
  cases hwp : core.whiteningParams with
  | none =>
    have hid : core.queryOf = id := by
      funext patch
      simp only [queryOf, hwp, id]
    rw [hid, List.map_id, hdim]
  | some wp =>
    refine List.map_congr_left fun patch _ => ?_
    simp only [queryOf, hwp]

/-- What a detection leaves behind: its context, if it has succeeded. -/
theorem detect_effect {engine : NearestSearch F} {latency : ℕ} {embedding : Embedding F}
    {r : Result (DetectionResult F)} {core' : PatchCore F}
    (h : core.detect engine latency embedding = (r, core')) :
    (∃ e, r = .error e) ∧ core' = core ∨
      ∃ result distances, r = .ok result ∧ core' = { core with
        lastCtx := core.contextOf distances embedding.data embedding.embeddingMeta.gridH
          embedding.embeddingMeta.gridW result } := by
  unfold detect at h
  split at h
  · obtain ⟨rfl, rfl⟩ := Prod.mk.inj h
    exact .inl ⟨⟨_, rfl⟩, rfl⟩
  · dsimp only at h
    split at h
    · obtain ⟨rfl, rfl⟩ := Prod.mk.inj h
      exact .inl ⟨⟨_, rfl⟩, rfl⟩
    · split_ifs at h
      · obtain ⟨rfl, rfl⟩ := Prod.mk.inj h
        exact .inl ⟨⟨_, rfl⟩, rfl⟩
      · obtain ⟨rfl, rfl⟩ := Prod.mk.inj h
        exact .inr ⟨_, _, rfl, rfl⟩

end PatchCore

/-- A detector that has been initialised, and the evolution constructed over it, which holds its
bank. `initial` are the vectors the bank had then, `detected` the patches of all frames detected
since. -/
structure EvolvingDetector (F : Type*) where
  core : PatchCore F
  evolution : CoresetEvolution F
  initial : List (List F)
  detected : List (List F)

/-- The operations; a frame is given by its embedding and its grid is checked. -/
inductive DetectorOp (F : Type*) where
  | detect (latency : ℕ) (embedding : Embedding F)
  | offer (matchedRulesCount : ℕ) (reasonerVerdict : String)
  | update
  | fullRebuild (savePath : String) (io : RebuildIo)

/-- The arguments that `OfferToEvolution` takes from a context. -/
def offerOf (ctx : DetectionContext F) (matchedRulesCount : ℕ) (reasonerVerdict : String) :
    Offer F where
  distances := ctx.knnDistances
  queryCount := ctx.knnDistances.length / ctx.kNearest
  embeddingData := some ctx.embeddingData
  gridH := ctx.gridH
  gridW := ctx.gridW
  dim := ctx.dim
  detResult := ctx.detectionResult
  matchedRulesCount := matchedRulesCount
  reasonerVerdict := reasonerVerdict
  effectiveThreshold := ctx.effectiveThreshold
  pcaImageScore := ctx.pcaImageScore
  pcaSelfQueryP95 := ctx.pcaSelfQueryP95

namespace EvolvingDetector

def start (core : PatchCore F) (cfg : EvolutionConfig F) (profile : NormalityProfile F) :
    EvolvingDetector F where
  core := core
  evolution := .create cfg core.featureBank profile
  initial := core.featureBank.elim [] FeatureBank.vectors
  detected := []

variable (s : EvolvingDetector F)

/-- The detector with the bank that is in use. -/
def detector : PatchCore F := { s.core with featureBank := s.evolution.detectorBank }

variable [Zero F] [One F] [Add F] [Sub F] [Neg F] [Mul F] [Div F] [NatCast F] [LT F]
  [DecidableLT F] [LE F] [DecidableLE F] [DecidableEq F] [FloatMath F]

/-- A vector of the space the queries are in: the bank had it from the start, or it is the
transformed patch of a detected frame. -/
def InQuerySpace (v : List F) : Prop :=
  v ∈ s.initial ∨ ∃ patch ∈ s.detected, v = s.core.queryOf patch

/-- Detection of a frame, whose data is in memory; one that has less of it than its grid is read
past its end. -/
def detectFrame (engine : NearestSearch F) (latency : ℕ) (embedding : Embedding F) :
    Option (EvolvingDetector F) :=
  let patchCount := embedding.embeddingMeta.gridH * embedding.embeddingMeta.gridW
  if patchCount * s.core.cfg.embedDim ≤ embedding.data.length ∧
      embedding.data.length < 2 ^ 64 then
    match s.detector.detect engine latency embedding with
    | (.ok _, core) => some { s with
        core := core
        detected := s.detected ++ Rows.rows s.core.cfg.embedDim patchCount embedding.data }
    | (.error _, core) => some { s with core := core }
  else none

/-- `OfferToEvolution` with the last context; there is none before the first detection. -/
def offerLast (matchedRulesCount : ℕ) (reasonerVerdict : String) : Option (EvolvingDetector F) :=
  if s.core.lastCtx.knnDistances = [] then some s
  else if s.core.lastCtx.kNearest = 0 then none
  else (s.evolution.assessAndOffer
    (offerOf s.core.lastCtx matchedRulesCount reasonerVerdict)).map fun evolution =>
      { s with evolution := evolution }

def step (engine : NearestSearch F) (s : EvolvingDetector F) :
    DetectorOp F → Option (EvolvingDetector F)
  | .detect latency embedding => s.detectFrame engine latency embedding
  | .offer matchedRulesCount reasonerVerdict => s.offerLast matchedRulesCount reasonerVerdict
  | .update => (s.evolution.update engine).map fun (_, evolution) => { s with evolution := evolution }
  | .fullRebuild savePath io => (s.evolution.fullRebuild engine savePath io).map
      fun (_, _, evolution) => { s with evolution := evolution }

/-- What is merged into the bank are queries: no whitening is in force, or no frame is
buffered. -/
def MergesQueries (s : EvolvingDetector F) : DetectorOp F → Prop
  | .update | .fullRebuild _ _ =>
    s.core.whiteningParams = none ∨ s.evolution.buffer.candidates = []
  | _ => True

/-- The banks are in the query space; what is buffered, or would be, are patches of detected
frames. -/
structure Spaced (s : EvolvingDetector F) : Prop where
  banks : s.evolution.BanksIn s.core.cfg.embedDim s.InQuerySpace
  buffered : ∀ c ∈ s.evolution.buffer.candidates,
    CoresetEvolution.CandidateIn s.core.cfg.embedDim (· ∈ s.detected) c
  context : s.core.lastCtx.knnDistances = [] ∨ ∀ score, CoresetEvolution.CandidateIn
    s.core.cfg.embedDim (· ∈ s.detected) ⟨s.core.lastCtx.embeddingData, s.core.lastCtx.gridH,
      s.core.lastCtx.gridW, s.core.lastCtx.dim, score⟩

variable {s} {engine : NearestSearch F}

omit [LE F] [DecidableLE F] [DecidableEq F] in
theorem Spaced.detectFrame {s' : EvolvingDetector F} {latency : ℕ} {embedding : Embedding F}
    (h : s.Spaced) (hs : s.detectFrame engine latency embedding = some s') : s'.Spaced := by
  unfold EvolvingDetector.detectFrame at hs
  dsimp only at hs
  split_ifs at hs with hdata
  obtain ⟨hcovers, haddressable⟩ := hdata
  generalize hdetect : s.detector.detect engine latency embedding = outcome at hs
  obtain ⟨r, core⟩ := outcome
  rcases PatchCore.detect_effect hdetect with ⟨⟨e, rfl⟩, rfl⟩ | ⟨result, distances, rfl, rfl⟩
  · obtain rfl := Option.some.inj hs
    exact ⟨h.banks, h.buffered, h.context⟩
  · obtain rfl := Option.some.inj hs
    refine ⟨h.banks.mono ?_, ?_, .inr fun score => CoresetEvolution.candidateIn_take hcovers
      haddressable (fun v hv => List.mem_append_right _ hv) score⟩
    · rintro v (hv | ⟨patch, hpatch, rfl⟩)
      · exact .inl hv
      · exact .inr ⟨patch, List.mem_append_left _ hpatch, rfl⟩
    · exact fun c hc => ⟨(h.buffered c hc).1,
        fun v hv => List.mem_append_left _ ((h.buffered c hc).2 v hv)⟩

omit [Neg F] [DecidableEq F] [FloatMath F] in
theorem Spaced.offerLast {s' : EvolvingDetector F} {matchedRulesCount : ℕ}
    {reasonerVerdict : String} (h : s.Spaced)
    (hs : s.offerLast matchedRulesCount reasonerVerdict = some s') : s'.Spaced := by
  unfold EvolvingDetector.offerLast at hs
  split_ifs at hs with hnone
  · exact Option.some.inj hs ▸ h
  · obtain ⟨evolution, hevolution, rfl⟩ := Option.map_eq_some_iff.mp hs
    have hsame := CoresetEvolution.sameBanks_of_offer hevolution
    refine ⟨⟨?_, ?_, ?_⟩, ?_, h.context⟩
    · rw [hsame.activeProfile]
      exact h.banks.profileDim
    · rw [hsame.detectorBank]
      exact h.banks.detectorBank
    · rw [hsame.standbyBank]
      exact h.banks.standbyBank
    · intro c hc
      rcases CoresetEvolution.buffer_of_offer hevolution with heq | ⟨data, score, hdata, heq⟩
      · exact h.buffered c (heq ▸ hc)
      · rw [heq] at hc
        rcases List.mem_append.mp hc with hc | hc
        · exact h.buffered c hc
        · obtain rfl := List.mem_singleton.mp hc
          obtain rfl := Option.some.inj hdata
          exact (h.context.resolve_left hnone) score

omit [One F] [Sub F] [Neg F] [Div F] [NatCast F] [LT F] [DecidableLT F] [LE F] [DecidableLE F]
  [DecidableEq F] [FloatMath F] in
/-- The drained frames are in the query space when they are merged. -/
theorem Spaced.batch (h : s.Spaced)
    (hop : s.core.whiteningParams = none ∨ s.evolution.buffer.candidates = []) :
    ∀ c ∈ s.evolution.buffer.candidates,
      CoresetEvolution.CandidateIn s.core.cfg.embedDim s.InQuerySpace c := by
  intro c hc
  rcases hop with hwp | hnil
  · refine ⟨(h.buffered c hc).1, fun v hv => .inr ⟨v, (h.buffered c hc).2 v hv, ?_⟩⟩
    simp only [PatchCore.queryOf, hwp]
  · rw [hnil] at hc
    cases hc

theorem Spaced.step {s' : EvolvingDetector F} {op : DetectorOp F} (h : s.Spaced)
    (hop : s.MergesQueries op) (hs : step engine s op = some s') : s'.Spaced := by
  cases op with
  | detect latency embedding => exact h.detectFrame hs
  | offer matchedRulesCount reasonerVerdict => exact h.offerLast hs
  | update =>
    obtain ⟨⟨last, evolution⟩, hupdate, rfl⟩ := Option.map_eq_some_iff.mp hs
    obtain ⟨hbanks, hempty⟩ := h.banks.update (h.batch hop) hupdate
    exact ⟨hbanks, by simp [hempty], h.context⟩
  | fullRebuild savePath io =>
    obtain ⟨⟨result, last, evolution⟩, hrebuild, rfl⟩ := Option.map_eq_some_iff.mp hs
    obtain ⟨hbanks, hempty⟩ := h.banks.fullRebuild (h.batch hop) hrebuild
    exact ⟨hbanks, by simp [hempty], h.context⟩

omit [Zero F] [One F] [Add F] [Sub F] [Neg F] [Mul F] [Div F] [NatCast F] [LT F] [DecidableLT F]
  [LE F] [DecidableLE F] [DecidableEq F] [FloatMath F] in
/-- The evolution starts with a copy of the bank. -/
theorem initialStandby_in {d : ℕ} {P : List F → Prop} {bank : Option (FeatureBank F)}
    {profile : NormalityProfile F} (h : BankIn d P bank)
    (hprofile : profile.dim = d ∨ profile.dim = 0) : BankIn d P (initialStandby profile bank) := by
  intro standby hstandby
  unfold initialStandby at hstandby
  split_ifs at hstandby with hzero
  · cases hstandby
  obtain ⟨active, hactive, hstandby⟩ := Option.bind_eq_some_iff.mp hstandby
  obtain ⟨hdim, hvectors⟩ := h active hactive
  have hpos : 0 < active.dim := by
    rw [hdim, ← hprofile.resolve_right hzero]
    exact Nat.pos_of_ne_zero hzero
  have hcount : active.extractAllVectors.length / active.dim = active.numSamples := by
    rw [active.length_extractAllVectors, Nat.mul_div_cancel _ hpos]
  dsimp only at hstandby
  split_ifs at hstandby
  have hcopy : FeatureBank.buildFromEmbeddings
      [.ofVectors active.extractAllVectors active.dim active.numSamples 1] active.dim
      active.numSamples = .ok standby := by
    unfold PatchEmbedding.ofVectors
    simp only [hcount]
    generalize FeatureBank.buildFromEmbeddings _ _ _ = built at hstandby ⊢
    cases built with
    | error e => cases hstandby
    | ok copy => exact congrArg Except.ok (Option.some.inj hstandby)
  have hstandby := FeatureBank.buildFromEmbeddings_mem hcopy
  rw [hcount, active.rows_extractAllVectors] at hstandby
  exact ⟨hstandby.1.trans hdim, fun v hv => hvectors v (hstandby.2 v hv)⟩

omit [One F] [Sub F] [Neg F] [Div F] [NatCast F] [LT F] [DecidableLT F] [LE F] [DecidableLE F]
  [DecidableEq F] [FloatMath F] in
theorem spaced_start {core : PatchCore F} (cfg : EvolutionConfig F) {profile : NormalityProfile F}
    (hctx : core.lastCtx.knnDistances = [])
    (hdim : ∀ bank ∈ core.featureBank, bank.dim = core.cfg.embedDim)
    (hprofile : profile.dim = core.cfg.embedDim ∨ profile.dim = 0) :
    (start core cfg profile).Spaced := by
  have hbank : BankIn core.cfg.embedDim (start core cfg profile).InQuerySpace core.featureBank := by
    intro bank hbank
    refine ⟨hdim bank hbank, fun v hv => .inl ?_⟩
    show v ∈ core.featureBank.elim [] FeatureBank.vectors
    rw [Option.mem_def.mp hbank]
    exact hv
  exact ⟨⟨hprofile, hbank, initialStandby_in hbank hprofile⟩, by simp [start, CoresetEvolution.create],
    .inl hctx⟩

/-- In a run from an initialised detector in which only queries are merged, every vector of its
bank is one of those it had at the start or the transformed patch of a detected frame. -/
theorem bank_in_query_space {cfg : PatchCoreConfig F} {injected : Option (FeatureBank F)}
    {icfg : InitializeConfig F} {inputs : InitializeInputs F} {core : PatchCore F}
    {ecfg : EvolutionConfig F} {profile : NormalityProfile F} {s : EvolvingDetector F}
    (hdim : ∀ bank ∈ injected, bank.dim = cfg.embedDim)
    (hinit : (PatchCore.create cfg injected).initializeDetector icfg inputs engine =
      some (.ok (), core))
    (hprofile : profile.dim = cfg.embedDim ∨ profile.dim = 0)
    (hs : Transition.Reachable (step engine) MergesQueries (start core ecfg profile) s) :
    ∀ bank ∈ s.evolution.detectorBank, ∀ v ∈ bank.vectors, s.InQuerySpace v := by
  have hkeeps := PatchCore.keeps_initializeDetector hinit
  have hcfg : core.cfg = cfg := hkeeps.cfg
  have hstart : (start core ecfg profile).Spaced := by
    refine spaced_start ecfg ?_ ?_ (hcfg ▸ hprofile)
    · rw [hkeeps.lastCtx]
      rfl
    · rw [hcfg]
      exact hkeeps.bankDim hdim
  have hspaced := hs.invariant hstart fun _ _ _ h hop hstep => h.step hop hstep
  exact fun bank hbank => (hspaced.banks.detectorBank bank hbank).2

/-! ### Frames of one pixel -/

section Pixel

/-- One-dimensional patches, one to a frame. -/
def pixelConfig : PatchCoreConfig ℚ where
  kNearest := 1
  gaussianSigma := 0
  imageWidth := 1
  imageHeight := 1
  patchSize := 1
  embedDim := 1
  dropK := 0
  hybridAlpha := 1 / 2
  pcaScoreMethod := .reconstruction

/-- `FitPca` of one-dimensional samples: the component is the unit vector, its eigenvalue the
variance. -/
def fitLine (samples : List (List ℚ)) (targetDim : ℕ) : Result (PcaParams ℚ) :=
  if 1 < targetDim then
    fail .embeddingDimensionMismatch ("DimensionReducer::FitPca: target_dim (" ++
      toString targetDim ++ ") > input_dim (1)")
  else
    let count : ℚ := samples.length
    let mean := samples.flatten.sum / count
    let variance := (samples.flatten.map fun x => (x - mean) * (x - mean)).sum / count
    .ok ⟨[1], targetDim, [mean], [variance]⟩

def pixelInitialize (bank : FeatureBank ℚ) (enableWhitening : Bool) :
    Option (Result Unit × PatchCore ℚ) :=
  (PatchCore.create pixelConfig (some bank)).initializeDetector ⟨10, enableWhitening, false, 0⟩
    { fitPca := fitLine } flatL2

def pixelFrame (x : ℚ) : Embedding ℚ := .fromCpu [x] ⟨1, 1, 1, 1⟩

theorem initialized {r : Option (Result Unit × PatchCore ℚ)} (h : r.isSome)
    (hok : (r.get h).1.isOk = true) : r = some (.ok (), (r.get h).2) := by
  obtain ⟨⟨result, core⟩, rfl⟩ := Option.isSome_iff_exists.mp h
  cases result with
  | error e => cases hok
  | ok u => rfl

def plainCore : PatchCore ℚ := ((pixelInitialize lineBank false).get (by decide +kernel)).2

def plainDetected : EvolvingDetector ℚ :=
  (step flatL2 (start plainCore lineConfig lineProfile) (.detect 0 (pixelFrame (-2)))).get
    (by decide +kernel)

def plainOffered : EvolvingDetector ℚ :=
  (step flatL2 plainDetected (.offer 0 "OK")).get (by decide +kernel)

def plainUpdated : EvolvingDetector ℚ :=
  (step flatL2 plainOffered .update).get (by decide +kernel)

theorem bank_in_query_space_plain :
    plainUpdated.evolution.detectorBank.map FeatureBank.vectors = some [[0], [2], [-2]] ∧
      ∀ bank ∈ plainUpdated.evolution.detectorBank, ∀ v ∈ bank.vectors,
        plainUpdated.InQuerySpace v := by
  have hdim : ∀ bank ∈ some lineBank, bank.dim = pixelConfig.embedDim := by
    intro bank hbank
    obtain rfl := Option.some.inj hbank
    rfl
  have hinit : (PatchCore.create pixelConfig (some lineBank)).initializeDetector
      ⟨10, false, false, 0⟩ { fitPca := fitLine } flatL2 = some (.ok (), plainCore) :=
    initialized (by decide +kernel) (by decide +kernel)
  have hwhitening : plainOffered.core.whiteningParams.isNone = true := by decide +kernel
  have hreach : Transition.Reachable (step flatL2) MergesQueries
      (start plainCore lineConfig lineProfile) plainUpdated := by
    refine .next (.next (.next .start (a := .detect 0 (pixelFrame (-2))) trivial
      (Option.some_get _).symm) (a := .offer 0 "OK") trivial (Option.some_get _).symm)
      (a := .update) (.inl ?_) (Option.some_get _).symm
    exact Option.isNone_iff_eq_none.mp hwhitening
  exact ⟨by decide +kernel, bank_in_query_space hdim hinit (.inl rfl) hreach⟩

/-- Two vectors whose variance is a quarter, so that they are whitened to `lineBank`. -/
def unitBank : FeatureBank ℚ := ⟨1, [[0], [1]], by decide⟩

def whitenedCore : PatchCore ℚ := ((pixelInitialize unitBank true).get (by decide +kernel)).2

def whitenedDetected : EvolvingDetector ℚ :=
  (step flatL2 (start whitenedCore lineConfig lineProfile) (.detect 0 (pixelFrame (-1)))).get
    (by decide +kernel)

def whitenedOffered : EvolvingDetector ℚ :=
  (step flatL2 whitenedDetected (.offer 0 "OK")).get (by decide +kernel)

def whitenedUpdated : EvolvingDetector ℚ :=
  (step flatL2 whitenedOffered .update).get (by decide +kernel)

/-- The patch that is merged is the frame's own one; it was searched for twice as far out. -/
theorem merged_patch_not_whitened :
    pixelInitialize unitBank true = some (.ok (), whitenedCore) ∧
      Transition.run (step flatL2) (start whitenedCore lineConfig lineProfile)
        [.detect 0 (pixelFrame (-1)), .offer 0 "OK", .update] = some whitenedUpdated ∧
      ∃ bank ∈ whitenedUpdated.evolution.detectorBank, ∃ v ∈ bank.vectors,
        ¬whitenedUpdated.InQuerySpace v := by
  refine ⟨initialized (by decide +kernel) (by decide +kernel), ?_, ?_⟩
  · have hdetect : step flatL2 (start whitenedCore lineConfig lineProfile)
        (.detect 0 (pixelFrame (-1))) = some whitenedDetected := (Option.some_get _).symm
    have hoffer : step flatL2 whitenedDetected (.offer 0 "OK") = some whitenedOffered :=
      (Option.some_get _).symm
    have hupdate : step flatL2 whitenedOffered .update = some whitenedUpdated :=
      (Option.some_get _).symm
    simp only [Transition.run_cons, Transition.run_nil, hdetect, hoffer, hupdate,
      Option.bind_some]
  · have hvectors : whitenedUpdated.evolution.detectorBank.map FeatureBank.vectors =
        some [[0], [2], [-1]] := by decide +kernel
    have hinitial : whitenedUpdated.initial = [[0], [2]] := by decide +kernel
    have hdetected : whitenedUpdated.detected = [[-1]] := by decide +kernel
    have hquery : whitenedUpdated.core.queryOf [-1] = [-2] := by decide +kernel
    obtain ⟨bank, hbank, hbankVectors⟩ := Option.map_eq_some_iff.mp hvectors
    refine ⟨bank, hbank, [-1], by rw [hbankVectors]; decide, ?_⟩
    rintro (hin | ⟨patch, hpatch, heq⟩)
    · rw [hinitial] at hin
      exact absurd hin (by decide)
    · rw [hdetected] at hpatch
      obtain rfl := List.mem_singleton.mp hpatch
      rw [hquery] at heq
      exact absurd heq (by decide)

end Pixel

end EvolvingDetector

end SurfaceAi.Detection
