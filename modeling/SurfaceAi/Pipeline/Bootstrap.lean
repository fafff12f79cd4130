import SurfaceAi.Pipeline.DetectStage
import Mathlib.Algebra.Field.Rat
import Mathlib.Algebra.Order.Field.Basic
import Mathlib.Algebra.Order.Ring.Rat

/-! The detector that bootstrapping registers. Its configuration takes the patch grid for
the size of the image and keeps the default patch size, so it expects a grid smaller than
the one it was made from, and no frame of that grid passes its check. -/

namespace SurfaceAi.Pipeline

open Detection Embeddings

section Frames

variable {F : Type}

/-- A frame of the given grid and dimension whose data is complete. -/
structure HasShape (gridH gridW dim : ℕ) (embedding : Embedding F) : Prop where
  gridH_eq : embedding.embeddingMeta.gridH = gridH
  gridW_eq : embedding.embeddingMeta.gridW = gridW
  dim_eq : embedding.embeddingMeta.dim = dim
  covers : gridH * gridW * dim ≤ embedding.data.length

variable {gridH gridW dim : ℕ} {embedding : Embedding F}

theorem bootstrapStride_eq_some {targetSize minFrames : ℕ} (hmin : 1 ≤ minFrames)
    (hle : minFrames ≤ targetSize) (patchCount : ℕ) :
    ∃ stride, bootstrapStride targetSize minFrames patchCount = some stride := by
  have hper : 0 < targetSize / minFrames := Nat.div_pos hle hmin
  unfold bootstrapStride
  rw [if_neg (by omega)]
  dsimp only
  split_ifs with hless hzero
  · omega
  · exact ⟨_, rfl⟩
  · exact ⟨_, rfl⟩

/-- The sample of a frame always has its first patch. -/
theorem sampledPatches_length (h : HasShape gridH gridW dim embedding)
    (hpatches : 0 < gridH * gridW) (stride : ℕ) :
    ∃ patches, sampledPatches embedding stride = some patches ∧ dim ≤ patches.length := by
  have hrow : ∀ i < gridH * gridW, i * dim + dim ≤ embedding.data.length := by
    intro i hi
    have hle : (i + 1) * dim ≤ gridH * gridW * dim := Nat.mul_le_mul_right dim hi
    rw [Nat.succ_mul] at hle
    exact Nat.le_trans hle h.covers
  unfold sampledPatches
  simp only [h.gridH_eq, h.gridW_eq, h.dim_eq]
  rw [if_pos ?_]
  · refine ⟨_, rfl, ?_⟩
    obtain ⟨k, hk⟩ := Nat.exists_eq_succ_of_ne_zero (Nat.ne_of_gt hpatches)
    have hfirst : (Rows.row dim 0 embedding.data).length = dim :=
      Rows.length_row (by simpa using hrow 0 hpatches)
    rw [hk, List.range_succ_eq_map, List.filter_cons_of_pos (by simp), List.flatMap_cons,
      List.length_append, hfirst]
    exact Nat.le_add_right _ _
  · rw [List.all_eq_true]
    intro i hi
    exact decide_eq_true (hrow i (List.mem_range.mp (List.mem_filter.mp hi).1))

theorem shaped_shape (h : HasShape gridH gridW dim embedding) {state : BootstrapState F}
    (hstate : state.dim = 0 ∨ state.gridH = gridH ∧ state.gridW = gridW) :
    (state.shaped embedding.embeddingMeta).gridH = gridH ∧
      (state.shaped embedding.embeddingMeta).gridW = gridW := by
  unfold BootstrapState.shaped
  split_ifs with hdim
  · exact ⟨h.gridH_eq, h.gridW_eq⟩
  · exact hstate.resolve_left hdim

theorem shaped_frameCount (state : BootstrapState F) (m : EmbeddingMeta) :
    (state.shaped m).frameCount = state.frameCount := by
  unfold BootstrapState.shaped
  split_ifs <;> rfl

/-- The state after the sample of one more frame. -/
def BootstrapState.collect (state : BootstrapState F) (m : EmbeddingMeta) (patches : List F) :
    BootstrapState F :=
  { state.shaped m with
    vectors := (state.shaped m).vectors ++ patches
    frameCount := (state.shaped m).frameCount + 1 }

theorem collect_frameCount (state : BootstrapState F) (m : EmbeddingMeta) (patches : List F) :
    (state.collect m patches).frameCount = state.frameCount + 1 :=
  congrArg (· + 1) (shaped_frameCount state m)

end Frames

namespace DetectStage

variable {F : Type} [Zero F] [One F] [Add F] [Sub F] [Mul F] [Div F] [Neg F] [NatCast F]
  [LT F] [DecidableLT F] [DecidableEq F] [FloatMath F] {stage : DetectStage F} {key : BankKey}
  {gridH gridW dim latency : ℕ} {engine : NearestSearch F} {embedding : Embedding F}

/-- A stage that is to bootstrap the key and has seen no frame of it. -/
structure AwaitsBootstrap (stage : DetectStage F) (key : BankKey) : Prop where
  enabled : stage.bootstrapEnabled = true
  someFrames : 1 ≤ stage.bootstrapMinFrames
  enoughSamples : stage.bootstrapMinFrames ≤ stage.bootstrapTargetSize
  noDetector : stage.detectors.lookup key = none
  noState : stage.bootstrapStates.lookup key = none

/-- The answer to a frame. -/
def answer (stage : DetectStage F) (engine : NearestSearch F) (latency : ℕ)
    (embedding : Embedding F) : Outcome (StageData F Unit) × DetectStage F :=
  stage.process engine latency (.embedding embedding)

/-- The stage after frames, each with the time its detection took. -/
def afterFrames (stage : DetectStage F) (engine : NearestSearch F) :
    List (ℕ × Embedding F) → DetectStage F
  | [] => stage
  | (latency, embedding) :: frames =>
    (stage.answer engine latency embedding).2.afterFrames engine frames

def framesOf (key : BankKey) (frames : List (ℕ × Embedding F)) : ℕ :=
  frames.countP fun frame => bankKey frame.2 = key

/-- A detector is registered for the frame, assumes its dimension, and its detection
succeeds and is the stage's answer. -/
def AnsweredByDetector (stage : DetectStage F) (engine : NearestSearch F) (latency : ℕ)
    (embedding : Embedding F) : Prop :=
  ∃ core result core', stage.detectors.lookup (bankKey embedding) = some (.patchCore core) ∧
    core.cfg.embedDim = embedding.embeddingMeta.dim ∧
    core.detect engine latency embedding = (.ok result, core') ∧
    (stage.answer engine latency embedding).1 =
      some (.ok (.detectionResult (carryForward embedding result)))

/-- A detector with the configuration that bootstrapping on the grid gives. -/
def Registered (stage : DetectStage F) (key : BankKey) (gridH gridW : ℕ) : Prop :=
  ∃ core state, stage.detectors.lookup key = some (.patchCore core) ∧
    core.cfg = bootstrapConfig state ∧ state.gridH = gridH ∧ state.gridW = gridW

/-- How far bootstrapping is after `n` frames of the key. -/
inductive Progress (stage : DetectStage F) (key : BankKey) (gridH gridW n : ℕ) : Prop where
  | collecting (state : BootstrapState F) : stage.detectors.lookup key = none →
      n < stage.bootstrapMinFrames → (stage.bootstrapStates.lookup key).getD {} = state →
      state.frameCount = n → (state.dim = 0 ∨ state.gridH = gridH ∧ state.gridW = gridW) →
        Progress stage key gridH gridW n
  | registered : Registered stage key gridH gridW → Progress stage key gridH gridW n

omit [DecidableEq F] in
/-- No grid is as large as its own share of patches. -/
theorem detect_bootstrapped (core : PatchCore F) {state : BootstrapState F}
    (hcfg : core.cfg = bootstrapConfig state) (hstate : state.gridH = gridH)
    (hgrid : embedding.embeddingMeta.gridH = gridH) (hpos : 1 ≤ gridH) :
    ∃ e, core.detect engine latency embedding = (.error e, core) := by
  have hrefused : ∃ e, validatePatchGrid embedding.embeddingMeta.gridH
      embedding.embeddingMeta.gridW core.cfg.imageHeight core.cfg.imageWidth
        core.cfg.patchSize = .error e := by
    have hne : gridH ≠ gridH / 14 := by omega
    refine ⟨_, if_pos (.inl ?_)⟩
    rw [hcfg, hgrid]
    show gridH ≠ state.gridH / 14
    rwa [hstate]
  obtain ⟨e, he⟩ := hrefused
  unfold PatchCore.detect
  cases core.featureBank with
  | none => exact ⟨_, rfl⟩
  | some bank =>
    simp only [he]
    exact ⟨e, rfl⟩

theorem answer_detects
    (h : ¬((stage.detectors.lookup (bankKey embedding)).isNone ∧ stage.bootstrapEnabled)) :
    stage.answer engine latency embedding =
      (some (.ok (.detectionResult (carryForward embedding
        (stage.runDetector engine latency embedding).1))),
      (stage.runDetector engine latency embedding).2) :=
  if_neg h

theorem answer_bootstraps
    (h : (stage.detectors.lookup (bankKey embedding)).isNone ∧ stage.bootstrapEnabled) :
    (stage.answer engine latency embedding).2 =
      (stage.bootstrap (bankKey embedding) embedding).getD stage := by
  unfold answer process
  simp only [if_pos h]
  cases stage.bootstrap (bankKey embedding) embedding <;> rfl

/-- The registered detector refuses a frame of its grid, and the stage hides that. -/
theorem Registered.answer (engine : NearestSearch F) (latency : ℕ)
    (h : Registered stage key gridH gridW) (hkey : bankKey embedding = key)
    (hgrid : embedding.embeddingMeta.gridH = gridH) (hpos : 1 ≤ gridH) :
    (stage.answer engine latency embedding).1 =
        some (.ok (.detectionResult (carryForward embedding .default))) ∧
      Registered (stage.answer engine latency embedding).2 key gridH gridW ∧
      ¬stage.AnsweredByDetector engine latency embedding := by
  obtain ⟨core, state, hlookup, hcfg, hstateH, hstateW⟩ := h
  subst hkey
  obtain ⟨e, he⟩ : ∃ e, core.detect engine latency embedding = (.error e, core) :=
    detect_bootstrapped core hcfg hstateH hgrid hpos
  have hnot : ¬stage.AnsweredByDetector engine latency embedding := by
    rintro ⟨core', result, core'', hlookup', -, hdetect, -⟩
    rw [hlookup] at hlookup'
    obtain rfl : core = core' := Detector.patchCore.inj (Option.some.inj hlookup')
    rw [he] at hdetect
    cases hdetect
  have hrun : stage.runDetector engine latency embedding = (.default, stage) ∨
      stage.runDetector engine latency embedding =
        (.default, { stage with
          detectors := stage.detectors.insert (bankKey embedding) (.patchCore core) }) := by
    unfold runDetector
    split_ifs
    · exact .inl rfl
    · refine .inr ?_
      rw [hlookup]
      simp only [Detector.detect, he]
      rfl
  rw [answer_detects (by rw [hlookup]; simp)]
  rcases hrun with hrun | hrun
  · rw [hrun]
    exact ⟨rfl, ⟨core, state, hlookup, hcfg, hstateH, hstateW⟩, hnot⟩
  · rw [hrun]
    exact ⟨rfl, ⟨core, state, AList.lookup_insert _, hcfg, hstateH, hstateW⟩, hnot⟩

/-- What answering a frame of one key leaves as it was: the configuration and the other
keys. -/
structure KeepsRest (key : BankKey) (stage stage' : DetectStage F) : Prop where
  enabled : stage'.bootstrapEnabled = stage.bootstrapEnabled
  minFrames : stage'.bootstrapMinFrames = stage.bootstrapMinFrames
  targetSize : stage'.bootstrapTargetSize = stage.bootstrapTargetSize
  detectors : ∀ other ≠ key, stage'.detectors.lookup other = stage.detectors.lookup other
  states : ∀ other ≠ key, stage'.bootstrapStates.lookup other = stage.bootstrapStates.lookup other

omit [Zero F] [One F] [Add F] [Sub F] [Mul F] [Div F] [Neg F] [NatCast F] [LT F] [DecidableLT F]
  [DecidableEq F] [FloatMath F] in
theorem KeepsRest.refl (key : BankKey) (stage : DetectStage F) : KeepsRest key stage stage :=
  ⟨rfl, rfl, rfl, fun _ _ => rfl, fun _ _ => rfl⟩

omit [DecidableEq F] in
theorem keepsRest_runDetector :
    KeepsRest (bankKey embedding) stage (stage.runDetector engine latency embedding).2 := by
  unfold runDetector
  split_ifs
  · exact .refl _ _
  · split
    · exact ⟨rfl, rfl, rfl, fun _ hother => AList.lookup_insert_ne hother, fun _ _ => rfl⟩
    · split <;> exact ⟨rfl, rfl, rfl, fun _ _ => rfl, fun _ _ => rfl⟩

omit [FloatMath F] in
theorem keepsRest_register {state : BootstrapState F} {stage' : DetectStage F}
    (h : stage.register key state dim = some stage') : KeepsRest key stage stage' := by
  unfold register at h
  split_ifs at h
  dsimp only at h
  split at h
  · obtain rfl := Option.some.inj h
    exact ⟨rfl, rfl, rfl, fun _ _ => rfl, fun _ hother => AList.lookup_erase_ne hother⟩
  · obtain rfl := Option.some.inj h
    exact ⟨rfl, rfl, rfl, fun _ hother => AList.lookup_insert_ne hother,
      fun _ hother => AList.lookup_erase_ne hother⟩

omit [FloatMath F] in
theorem keepsRest_bootstrap {stage' : DetectStage F}
    (h : stage.bootstrap key embedding = some stage') : KeepsRest key stage stage' := by
  unfold bootstrap at h
  obtain ⟨stride, -, h⟩ := Option.bind_eq_some_iff.mp h
  obtain ⟨patches, -, h⟩ := Option.bind_eq_some_iff.mp h
  dsimp only at h
  split_ifs at h
  · exact keepsRest_register h
  · obtain rfl := Option.some.inj h
    exact ⟨rfl, rfl, rfl, fun _ _ => rfl, fun _ hother => AList.lookup_insert_ne hother⟩

theorem keepsRest_answer :
    KeepsRest (bankKey embedding) stage (stage.answer engine latency embedding).2 := by
  by_cases h : (stage.detectors.lookup (bankKey embedding)).isNone ∧ stage.bootstrapEnabled
  · rw [answer_bootstraps h]
    cases hboot : stage.bootstrap (bankKey embedding) embedding with
    | none => exact .refl _ _
    | some stage' => exact keepsRest_bootstrap hboot
  · rw [answer_detects h]
    exact keepsRest_runDetector

omit [FloatMath F] in
/-- Registering what was collected succeeds as soon as that is a whole vector. -/
theorem registered_register {state : BootstrapState F} (hdim : 1 ≤ dim)
    (hvectors : dim ≤ state.vectors.length) (hH : state.gridH = gridH) (hW : state.gridW = gridW) :
    ∃ stage', stage.register key state dim = some stage' ∧
      Registered stage' key gridH gridW := by
  obtain ⟨g, hg, htotal, -⟩ := gather_ofVectors state.vectors dim 1 (state.vectors.length / dim)
    "BuildWithGreedyCoreset"
  have hpos : 0 < state.vectors.length / dim := Nat.div_pos hvectors hdim
  have hbuild : ∀ maxSamples, FeatureBank.buildWithGreedyCoreset
      [.ofVectors state.vectors dim 1 (state.vectors.length / dim)] dim maxSamples =
        .ok (FeatureBank.greedyCoreset g (min maxSamples g.total)) := by
    intro maxSamples
    simp only [FeatureBank.buildWithGreedyCoreset, hg]
    exact if_neg (by omega)
  unfold register
  rw [if_neg (by omega)]
  simp only [hbuild]
  exact ⟨_, rfl, _, state, AList.lookup_insert _, rfl, hH, hW⟩

omit [FloatMath F] in
theorem bootstrap_eq {state : BootstrapState F} {stride : ℕ} {patches : List F}
    (hstate : (stage.bootstrapStates.lookup key).getD {} = state)
    (hstride : bootstrapStride stage.bootstrapTargetSize stage.bootstrapMinFrames
      (embedding.embeddingMeta.gridH * embedding.embeddingMeta.gridW) = some stride)
    (hpatches : sampledPatches embedding stride = some patches) :
    stage.bootstrap key embedding =
      let state' := state.collect embedding.embeddingMeta patches
      if stage.bootstrapMinFrames ≤ state'.frameCount then
        stage.register key state' embedding.embeddingMeta.dim
      else some { stage with bootstrapStates := stage.bootstrapStates.insert key state' } := by
  unfold bootstrap
  rw [hstate]
  dsimp only
  rw [hstride, Option.bind_eq_bind, Option.bind_some, hpatches]
  rfl

/-- A frame of the key takes bootstrapping one step further. -/
theorem Progress.answer_key {n : ℕ} (h : Progress stage key gridH gridW n)
    (henabled : stage.bootstrapEnabled = true) (hmin : 1 ≤ stage.bootstrapMinFrames)
    (hle : stage.bootstrapMinFrames ≤ stage.bootstrapTargetSize)
    (hkey : bankKey embedding = key) (hshape : HasShape gridH gridW dim embedding)
    (hH : 1 ≤ gridH) (hW : 1 ≤ gridW) (hdim : 1 ≤ dim) :
    Progress (stage.answer engine latency embedding).2 key gridH gridW (n + 1) := by
  cases h with
  | registered hregistered =>
    exact .registered (hregistered.answer _ _ hkey hshape.gridH_eq hH).2.1
  | collecting state hnone hn hstate hcount hgrid =>
    subst hkey
    obtain ⟨stride, hstride⟩ := bootstrapStride_eq_some hmin hle
      (embedding.embeddingMeta.gridH * embedding.embeddingMeta.gridW)
    obtain ⟨patches, hpatches, hlength⟩ := sampledPatches_length hshape (Nat.mul_pos hH hW) stride
    obtain ⟨hshapedH, hshapedW⟩ := shaped_shape hshape hgrid
    have hcollected := collect_frameCount state embedding.embeddingMeta patches
    rw [answer_bootstraps ⟨by rw [hnone]; rfl, henabled⟩, bootstrap_eq hstate hstride hpatches]
    dsimp only
    split_ifs with henough
    · have hvectors : dim ≤ (state.collect embedding.embeddingMeta patches).vectors.length := by
        rw [BootstrapState.collect, List.length_append]
        omega
      obtain ⟨stage', hregister, hregistered⟩ : ∃ stage', stage.register (bankKey embedding)
          (state.collect embedding.embeddingMeta patches) dim = some stage' ∧
            Registered stage' (bankKey embedding) gridH gridW :=
        registered_register hdim hvectors hshapedH hshapedW
      rw [hshape.dim_eq, hregister]
      exact .registered hregistered
    · refine .collecting (state.collect embedding.embeddingMeta patches) hnone ?_ ?_ ?_ ?_
      · show n + 1 < stage.bootstrapMinFrames
        omega
      · simp only [Option.getD_some, AList.lookup_insert]
      · omega
      · exact .inr ⟨hshapedH, hshapedW⟩

/-- A frame of another key leaves it where it is. -/
theorem Progress.answer_other {n : ℕ} (h : Progress stage key gridH gridW n)
    (hkey : bankKey embedding ≠ key) :
    Progress (stage.answer engine latency embedding).2 key gridH gridW n := by
  have hrest : KeepsRest (bankKey embedding) stage (stage.answer engine latency embedding).2 :=
    keepsRest_answer
  have hdetectors := hrest.detectors key hkey.symm
  have hstates := hrest.states key hkey.symm
  cases h with
  | registered hregistered =>
    obtain ⟨core, state, hlookup, hregistered⟩ := hregistered
    exact .registered ⟨core, state, hdetectors.trans hlookup, hregistered⟩
  | collecting state hnone hn hstate hcount hgrid =>
    exact .collecting state (hdetectors.trans hnone) (hrest.minFrames ▸ hn) (hstates ▸ hstate)
      hcount hgrid

/-- After as many frames of the key as bootstrapping waits for, a detector is registered. -/
theorem Progress.afterFrames {n : ℕ} {frames : List (ℕ × Embedding F)}
    (h : Progress stage key gridH gridW n) (henabled : stage.bootstrapEnabled = true)
    (hmin : 1 ≤ stage.bootstrapMinFrames)
    (hle : stage.bootstrapMinFrames ≤ stage.bootstrapTargetSize)
    (hframes : ∀ frame ∈ frames, bankKey frame.2 = key → HasShape gridH gridW dim frame.2)
    (hH : 1 ≤ gridH) (hW : 1 ≤ gridW) (hdim : 1 ≤ dim)
    (hcount : stage.bootstrapMinFrames ≤ n + framesOf key frames) :
    Registered (stage.afterFrames engine frames) key gridH gridW := by
  induction frames generalizing stage n with
  | nil =>
    cases h with
    | registered hregistered => exact hregistered
    | collecting _ _ hn => exact absurd hcount (by simpa [framesOf] using hn)
  | cons frame frames ih =>
    obtain ⟨latency, embedding⟩ := frame
    have hrest : KeepsRest (bankKey embedding) stage (stage.answer engine latency embedding).2 :=
      keepsRest_answer
    have hframes' : ∀ frame ∈ frames, bankKey frame.2 = key → HasShape gridH gridW dim frame.2 :=
      fun frame hframe => hframes frame (List.mem_cons_of_mem _ hframe)
    unfold DetectStage.afterFrames
    by_cases hkey : bankKey embedding = key
    · have hshape := hframes _ (List.mem_cons_self ..) hkey
      refine ih (h.answer_key henabled hmin hle hkey hshape hH hW hdim)
        (hrest.enabled ▸ henabled) (hrest.minFrames ▸ hmin)
        (hrest.minFrames ▸ hrest.targetSize ▸ hle) hframes' ?_
      rw [hrest.minFrames]
      rw [framesOf, List.countP_cons_of_pos (by simpa using hkey)] at hcount
      rw [framesOf]
      omega
    · refine ih (h.answer_other hkey) (hrest.enabled ▸ henabled) (hrest.minFrames ▸ hmin)
        (hrest.minFrames ▸ hrest.targetSize ▸ hle) hframes' ?_
      rw [hrest.minFrames]
      rwa [framesOf, List.countP_cons_of_neg (by simpa using hkey)] at hcount

omit [Zero F] [Add F] [Sub F] [Mul F] [Neg F] [LT F] [DecidableLT F] [DecidableEq F]
  [FloatMath F] in
theorem AwaitsBootstrap.progress (h : AwaitsBootstrap stage key) :
    Progress stage key gridH gridW 0 :=
  .collecting {} h.noDetector h.someFrames (by rw [h.noState]; rfl) rfl (.inl rfl)

/-- Bootstrapping ends, and from then on every frame of the grid it was made from is answered
by the default result, never by the registered detector. -/
theorem bootstrap_never_usable (engine : NearestSearch F) (h : AwaitsBootstrap stage key)
    (hH : 1 ≤ gridH) (hW : 1 ≤ gridW) (hdim : 1 ≤ dim) {frames : List (ℕ × Embedding F)}
    (hframes : ∀ frame ∈ frames, bankKey frame.2 = key → HasShape gridH gridW dim frame.2)
    (hcount : stage.bootstrapMinFrames ≤ framesOf key frames) (latency : ℕ)
    (hkey : bankKey embedding = key) (hshape : HasShape gridH gridW dim embedding) :
    ((stage.afterFrames engine frames).detectors.lookup key).isSome ∧
      ((stage.afterFrames engine frames).answer engine latency embedding).1 =
        some (.ok (.detectionResult (carryForward embedding .default))) ∧
      ¬(stage.afterFrames engine frames).AnsweredByDetector engine latency embedding := by
  have hregistered : Registered (stage.afterFrames engine frames) key gridH gridW :=
    h.progress.afterFrames h.enabled h.someFrames h.enoughSamples hframes hH hW hdim
      (by rwa [Nat.zero_add])
  obtain ⟨hanswer, -, hnot⟩ := hregistered.answer engine latency hkey hshape.gridH_eq hH
  obtain ⟨core, state, hlookup, -⟩ := hregistered
  refine ⟨?_, hanswer, hnot⟩
  rw [hlookup]
  rfl

/-- A stage that bootstraps from two frames. -/
def coldStage : DetectStage ℚ := ⟨∅, none, true, true, 2, 4, ∅⟩

/-- A frame of two patches of one value each. -/
def seatFrame (x y : ℚ) : Embedding ℚ := ⟨[x, y], false, ⟨1, 2, 1, 2⟩, [], "seat", 0⟩

def seatFrames : List (ℕ × Embedding ℚ) := [(0, seatFrame 0 1), (0, seatFrame 1 2)]

theorem hasShape_seatFrame (x y : ℚ) : HasShape 1 2 1 (seatFrame x y) :=
  ⟨rfl, rfl, rfl, Nat.le_refl _⟩

theorem bootstrap_never_usable_seat :
    ((coldStage.afterFrames flatL2 seatFrames).detectors.lookup ("seat", 0)).isSome ∧
      ((coldStage.afterFrames flatL2 seatFrames).answer flatL2 0 (seatFrame 5 9)).1 =
        some (.ok (.detectionResult (carryForward (seatFrame 5 9) .default))) ∧
      ¬(coldStage.afterFrames flatL2 seatFrames).AnsweredByDetector flatL2 0 (seatFrame 5 9) :=
  bootstrap_never_usable flatL2 ⟨rfl, by decide, by decide, rfl, rfl⟩ (Nat.le_refl 1)
    (Nat.le_succ 1) (Nat.le_refl 1)
    (by
      intro frame hframe _
      rcases List.mem_cons.mp hframe with rfl | hframe
      · exact hasShape_seatFrame 0 1
      · rw [List.mem_singleton.mp hframe]
        exact hasShape_seatFrame 1 2)
    (by decide) 0 rfl (hasShape_seatFrame 5 9)

/-- Two frames of two patches register a detector, which the next such frame does not
pass. -/
theorem bootstrapped_not_usable :
    ((coldStage.afterFrames flatL2 seatFrames).detectors.lookup ("seat", 0)).isSome ∧
      ¬(coldStage.afterFrames flatL2 seatFrames).AnsweredByDetector flatL2 0 (seatFrame 5 9) := by
  refine ⟨by decide, ?_⟩
  rintro ⟨core, result, core', hlookup, -, hdetect, -⟩
  cases hlookup
  cases hdetect

end DetectStage

end SurfaceAi.Pipeline
