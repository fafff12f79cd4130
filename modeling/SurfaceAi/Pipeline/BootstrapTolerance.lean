import SurfaceAi.Detection.BankOrigin
import SurfaceAi.Library.Transition
import SurfaceAi.Pipeline.Bootstrap
import SurfaceAi.Pipeline.InferenceStage

/-! What bootstrapping does with the frames the inference stage can send, the empty ones of
failed frames among them. Three divisors come from the configuration and the frame, and the
patches of all frames are cut by the dimension of the last one. -/

namespace SurfaceAi.Pipeline

open Detection Embeddings Rows

/-! ### The frames -/

section Frames

variable {F D : Type}

def patchCount (e : Embedding F) : ℕ := e.embeddingMeta.gridH * e.embeddingMeta.gridW

/-- Whole vectors, one for each patch of the grid; a global embedding has no grid. -/
structure Complete (e : Embedding F) : Prop where
  data_length : e.data.length = e.embeddingMeta.count * e.embeddingMeta.dim
  grid : patchCount e = e.embeddingMeta.count ∨ patchCount e = 0

theorem complete_empty : Complete (.empty : Embedding F) := ⟨rfl, .inl rfl⟩

theorem Complete.download {e : Embedding F} (h : Complete e) (copies : DeviceCopies) :
    Complete (InferenceStage.download copies e) := by
  unfold InferenceStage.download
  split_ifs
  · refine ⟨?_, h.grid⟩
    simp only [Embedding.fromCpu, List.length_take]
    exact Nat.min_eq_left h.data_length.ge
  · exact complete_empty
  · exact h

/-- A frame that the inference stage sends, whatever fails, when its embedder returns whole
vectors. -/
def Emitted (e : Embedding F) : Prop :=
  ∃ (stage : InferenceStage F) (copies : DeviceCopies) (img : Image),
    (∀ extract ∈ stage.embedder, ∀ image extracted, extract image = .ok extracted →
      Complete extracted) ∧
    stage.process (D := Unit) copies (.surfaceImage img) = .ok (.embedding e)

theorem complete_patchEmbedding {stage : InferenceStage F} (copies : DeviceCopies) (img : Image)
    (h : ∀ extract ∈ stage.embedder, ∀ image extracted, extract image = .ok extracted →
      Complete extracted) : Complete (stage.patchEmbedding copies img) := by
  unfold InferenceStage.patchEmbedding
  split
  · exact complete_empty
  · next extract hactive =>
    have hextract : extract ∈ stage.embedder := by
      unfold InferenceStage.activeEmbedder at hactive
      split_ifs at hactive
      exact hactive
    split
    · exact complete_empty
    · split
      · exact complete_empty
      · split_ifs
        · split
          · exact complete_empty
          · next extracted hok => exact (h extract hextract _ _ hok).download copies
        · exact complete_empty

theorem Emitted.complete {e : Embedding F} (h : Emitted e) : Complete e := by
  obtain ⟨stage, copies, img, hembedder, hprocess⟩ := h
  have hpatches := complete_patchEmbedding copies img hembedder
  have hglobal : Complete (stage.globalFeatures img (stage.patchEmbedding copies img)) := by
    unfold InferenceStage.globalFeatures
    split
    · exact hpatches
    · split
      · exact hpatches
      · dsimp only
        split_ifs
        · exact ⟨hpatches.data_length, hpatches.grid⟩
        · exact hpatches
  obtain rfl := StageData.embedding.inj (Except.ok.inj hprocess)
  exact ⟨hglobal.data_length, hglobal.grid⟩

variable {e : Embedding F}

/-- Every patch of a frame is inside its data. -/
theorem Complete.patch_length (h : Complete e) {i : ℕ} (hi : i < patchCount e) :
    i * e.embeddingMeta.dim + e.embeddingMeta.dim ≤ e.data.length := by
  have hcount : patchCount e = e.embeddingMeta.count := h.grid.resolve_right (by omega)
  rw [h.data_length, ← hcount, ← Nat.succ_mul]
  exact Nat.mul_le_mul_right _ hi

/-- Sampling reads inside the data, and takes patches. -/
theorem Complete.sampledPatches (h : Complete e) (stride : ℕ) :
    ∃ indices : List ℕ, (∀ i ∈ indices, i < patchCount e) ∧
      Pipeline.sampledPatches e stride = some (indices.map e.patch).flatten := by
  refine ⟨(List.range (patchCount e)).filter fun i => i % stride = 0, ?_, ?_⟩
  · intro i hi
    exact List.mem_range.mp (List.mem_filter.mp hi).1
  · unfold Pipeline.sampledPatches
    rw [← List.flatMap_def]
    refine if_pos (List.all_eq_true.mpr fun i hi => decide_eq_true ?_)
    exact h.patch_length (List.mem_range.mp (List.mem_filter.mp hi).1)

/-- The stride divides by the number of frames, and by the share of a frame that has
patches. -/
theorem bootstrapStride_isSome_iff (targetSize minFrames patches : ℕ) :
    (bootstrapStride targetSize minFrames patches).isSome ↔
      minFrames ≠ 0 ∧ (patches = 0 ∨ minFrames ≤ targetSize) := by
  unfold bootstrapStride
  rcases Nat.eq_zero_or_pos minFrames with rfl | hmin
  · simp
  · have hshare : targetSize / minFrames = 0 ↔ targetSize < minFrames :=
      Nat.div_eq_zero_iff_lt hmin
    rw [if_neg hmin.ne']
    dsimp only
    split_ifs with hless hzero
    · simp only [Option.isSome_none, Bool.false_eq_true, false_iff]
      omega
    · simp only [Option.isSome_some, true_iff]
      omega
    · simp only [Option.isSome_some, true_iff]
      omega

end Frames

namespace DetectStage

variable {F : Type} [Zero F] [One F] [Add F] [Sub F] [Mul F] [Div F] [Neg F] [NatCast F]
  [LT F] [DecidableLT F] [DecidableEq F] [FloatMath F] {stage stage' : DetectStage F}
  {key : BankKey} {engine : NearestSearch F} {latency : ℕ} {e : Embedding F}
  {seen : List (Embedding F)}

/-- `SetBootstrapConfig`, which takes any numbers. -/
def setBootstrapConfig (stage : DetectStage F) (enabled : Bool) (minFrames targetSize : ℕ) :
    DetectStage F :=
  { stage with
    bootstrapEnabled := enabled
    bootstrapMinFrames := minFrames
    bootstrapTargetSize := targetSize }

/-- The frame goes into bootstrapping. -/
def Bootstraps (stage : DetectStage F) (e : Embedding F) : Prop :=
  (stage.detectors.lookup (bankKey e)).isNone ∧ stage.bootstrapEnabled

/-- What has been collected for a key. -/
def collected (stage : DetectStage F) (key : BankKey) : BootstrapState F :=
  (stage.bootstrapStates.lookup key).getD {}

/-- The frame is the last one that bootstrapping waits for. -/
def Completes (stage : DetectStage F) (e : Embedding F) : Prop :=
  stage.bootstrapMinFrames ≤ (stage.collected (bankKey e)).frameCount + 1

/-- None of the divisors that the frame leads to is zero. -/
def DivisorsNonzero (stage : DetectStage F) (e : Embedding F) : Prop :=
  stage.Bootstraps e → stage.bootstrapMinFrames ≠ 0 ∧
    (patchCount e = 0 ∨ stage.bootstrapMinFrames ≤ stage.bootstrapTargetSize) ∧
    (stage.Completes e → e.embeddingMeta.dim ≠ 0)

/-- The frame that completes bootstrapping has the dimension of all patches before. -/
def SameDim (stage : DetectStage F) (seen : List (Embedding F)) (e : Embedding F) : Prop :=
  stage.Bootstraps e → stage.Completes e → ∀ r ∈ seen,
    patchCount r = 0 ∨ r.embeddingMeta.dim = 0 ∨ r.embeddingMeta.dim = e.embeddingMeta.dim

/-- One frame; `none` is undefined behaviour. -/
def next (engine : NearestSearch F) (stage : DetectStage F) (frame : ℕ × Embedding F) :
    Option (DetectStage F) :=
  match stage.process (D := Unit) engine frame.1 (.embedding frame.2) with
  | (none, _) => none
  | (some _, stage') => some stage'

theorem next_of_bootstraps (h : stage.Bootstraps e) :
    stage.next engine (latency, e) = stage.bootstrap (bankKey e) e := by
  unfold Bootstraps at h
  unfold next process
  dsimp only
  rw [if_pos h]
  cases stage.bootstrap (bankKey e) e <;> rfl

theorem next_of_not_bootstraps (h : ¬stage.Bootstraps e) :
    stage.next engine (latency, e) = some (stage.runDetector engine latency e).2 := by
  unfold Bootstraps at h
  unfold next process
  dsimp only
  rw [if_neg h]

omit [FloatMath F] in
theorem register_isSome_iff (state : BootstrapState F) (dim : ℕ) :
    (stage.register key state dim).isSome ↔ dim ≠ 0 := by
  unfold register
  split_ifs with hdim
  · simp [hdim]
  · dsimp only
    split
    · simp [hdim]
    · simp [hdim]

/-- A complete frame divides by zero or it has a result. -/
theorem next_isSome_iff (h : Complete e) :
    (stage.next engine (latency, e)).isSome ↔ stage.DivisorsNonzero e := by
  by_cases hboot : stage.Bootstraps e
  · have hstride := bootstrapStride_isSome_iff stage.bootstrapTargetSize
      stage.bootstrapMinFrames (patchCount e)
    rw [next_of_bootstraps hboot, DivisorsNonzero]
    simp only [hboot, true_imp_iff]
    cases hs : bootstrapStride stage.bootstrapTargetSize stage.bootstrapMinFrames (patchCount e) with
    | none =>
      have hnone : stage.bootstrap (bankKey e) e = none := by
        unfold patchCount at hs
        unfold bootstrap
        dsimp only
        rw [hs]
        rfl
      rw [hs] at hstride
      rw [hnone, ← and_assoc, ← hstride]
      simp
    | some stride =>
      obtain ⟨indices, -, hpatches⟩ := h.sampledPatches stride
      rw [hs] at hstride
      rw [bootstrap_eq rfl hs hpatches, ← and_assoc, ← hstride]
      simp only [Option.isSome_some, true_and]
      rw [collect_frameCount]
      change _ ↔ (stage.Completes e → _)
      split_ifs with hdone
      · rw [register_isSome_iff]
        exact (true_imp_iff.symm.trans (imp_congr_left (iff_of_true trivial hdone)))
      · simp only [Option.isSome_some, true_iff]
        intro hcompletes
        exact absurd hcompletes hdone
  · rw [next_of_not_bootstraps hboot, DivisorsNonzero]
    simp [hboot]

/-! ### The coreset -/

/-- One patch vector of one of the frames. -/
def IsPatch (seen : List (Embedding F)) (v : List F) : Prop :=
  ∃ r ∈ seen, ∃ i < patchCount r, v = r.patch i

/-- A registered detector has a bank of patch vectors, all of the bank's dimension. -/
def RegisteredFrom (stage : DetectStage F) (key : BankKey) (seen : List (Embedding F)) : Prop :=
  ∀ detector ∈ stage.detectors.lookup key, ∃ core bank, detector = .patchCore core ∧
    core.featureBank = some bank ∧ ∀ v ∈ bank.vectors, v.length = bank.dim ∧ IsPatch seen v

/-- What is collected is whole patches of the frames seen. -/
structure Traced (stage : DetectStage F) (key : BankKey) (seen : List (Embedding F)) : Prop where
  complete : ∀ r ∈ seen, Complete r
  collected : ∃ blocks : List (List F), (stage.collected key).vectors = blocks.flatten ∧
    ∀ b ∈ blocks, IsPatch seen b
  registered : stage.RegisteredFrom key seen

omit [Zero F] [One F] [Add F] [Sub F] [Mul F] [Div F] [Neg F] [NatCast F] [LT F] [DecidableLT F]
  [DecidableEq F] [FloatMath F] in
theorem IsPatch.mono {seen' : List (Embedding F)} {v : List F} (h : IsPatch seen v)
    (hsub : seen ⊆ seen') : IsPatch seen' v := by
  obtain ⟨r, hr, hpatch⟩ := h
  exact ⟨r, hsub hr, hpatch⟩

omit [Zero F] [One F] [Add F] [Sub F] [Mul F] [Div F] [Neg F] [NatCast F] [LT F] [DecidableLT F]
  [DecidableEq F] [FloatMath F] in
theorem RegisteredFrom.mono {seen' : List (Embedding F)} (h : stage.RegisteredFrom key seen)
    (hsub : seen ⊆ seen') (hlookup : stage'.detectors.lookup key = stage.detectors.lookup key) :
    stage'.RegisteredFrom key seen' := by
  intro detector hdetector
  obtain ⟨core, bank, hcore, hbank, hvectors⟩ := h detector (hlookup ▸ hdetector)
  exact ⟨core, bank, hcore, hbank,
    fun v hv => ⟨(hvectors v hv).1, (hvectors v hv).2.mono hsub⟩⟩

omit [Zero F] [One F] [Add F] [Sub F] [Mul F] [Div F] [Neg F] [NatCast F] [LT F] [DecidableLT F]
  [DecidableEq F] [FloatMath F] in
/-- Patches of one dimension, and empty ones, are cut apart by this dimension. -/
theorem allRows_flatten {blocks : List (List F)} {d : ℕ} (hcomplete : ∀ r ∈ seen, Complete r)
    (hsame : ∀ r ∈ seen, patchCount r = 0 ∨ r.embeddingMeta.dim = 0 ∨ r.embeddingMeta.dim = d)
    (hblocks : ∀ b ∈ blocks, IsPatch seen b) : AllRows d (IsPatch seen) blocks.flatten := by
  induction blocks with
  | nil => exact AllRows.nil
  | cons b blocks ih =>
    rw [List.flatten_cons]
    have hrest := ih fun b' hb' => hblocks b' (List.mem_cons_of_mem b hb')
    have hb := hblocks b List.mem_cons_self
    have hpatch := hb
    obtain ⟨r, hr, i, hi, rfl⟩ := hpatch
    have hlength : (r.patch i).length = r.embeddingMeta.dim := by
      have hin := (hcomplete r hr).patch_length hi
      rw [← Nat.succ_mul] at hin
      exact Rows.length_row hin
    rcases hsame r hr with hnone | hzero | hdim
    · omega
    · rw [hzero, List.length_eq_zero_iff] at hlength
      rwa [hlength, List.nil_append]
    · refine AllRows.append ?_ hrest
      exact ⟨[r.patch i], List.flatten_singleton.symm,
        List.forall_mem_singleton.mpr ⟨hlength.trans hdim, hb⟩⟩

omit [DecidableEq F] in
/-- Detection leaves the bank as it is. -/
theorem detect_featureBank (core : PatchCore F) :
    (core.detect engine latency e).2.featureBank = core.featureBank := by
  unfold PatchCore.detect
  split
  · rfl
  · dsimp only
    split
    · rfl
    · split_ifs <;> rfl

omit [DecidableEq F] in
theorem runDetector_collected : (stage.runDetector engine latency e).2.collected key =
    stage.collected key := by
  unfold runDetector
  split_ifs
  · rfl
  · split
    · rfl
    · split <;> rfl

omit [DecidableEq F] in
theorem RegisteredFrom.runDetector (h : stage.RegisteredFrom (bankKey e) seen) :
    (stage.runDetector engine latency e).2.RegisteredFrom (bankKey e) seen := by
  unfold DetectStage.runDetector
  split_ifs
  · exact h
  · split
    · next detector hlookup =>
      obtain ⟨core, bank, rfl, hbank, hvectors⟩ := h detector hlookup
      intro detector' hdetector'
      simp only [Detector.detect, AList.lookup_insert, Option.mem_def, Option.some.injEq]
        at hdetector'
      exact ⟨_, bank, hdetector'.symm, (detect_featureBank core).trans hbank, hvectors⟩
    · split
      · exact h
      · exact h

omit [FloatMath F] in
/-- Registering forgets what was collected, and takes the bank from it. -/
theorem Traced.register {state : BootstrapState F} (hseen : ∀ r ∈ seen, Complete r)
    (hnone : stage.detectors.lookup key = none)
    (hrows : AllRows e.embeddingMeta.dim (IsPatch seen) state.vectors)
    (h : stage.register key state e.embeddingMeta.dim = some stage') : Traced stage' key seen := by
  unfold DetectStage.register at h
  split_ifs at h
  dsimp only at h
  split at h
  · obtain rfl := Option.some.inj h
    refine ⟨hseen, ⟨[], ?_, by simp⟩, ?_⟩
    · simp only [DetectStage.collected, AList.lookup_erase]
      rfl
    · intro detector hdetector
      rw [hnone] at hdetector
      cases hdetector
  · next bank hbank =>
    obtain rfl := Option.some.inj h
    obtain ⟨hdim, hbankDim, hmem⟩ := FeatureBank.buildWithGreedyCoreset_mem hbank
    refine ⟨hseen, ⟨[], ?_, by simp⟩, ?_⟩
    · simp only [DetectStage.collected, AList.lookup_erase]
      rfl
    · intro detector hdetector
      simp only [AList.lookup_insert, Option.mem_def, Option.some.injEq] at hdetector
      refine ⟨_, bank, hdetector.symm, rfl, fun v hv => ⟨bank.length_vectors v hv, ?_⟩⟩
      exact hrows.rows hdim (Nat.div_mul_le_self _ _) v (hmem v hv)

/-- A frame of the key, the last one under the condition on its dimension, is added to the
trace. -/
theorem Traced.next (h : Traced stage key seen) (hkey : bankKey e = key) (he : Complete e)
    (hsame : stage.SameDim seen e) (hnext : stage.next engine (latency, e) = some stage') :
    Traced stage' key (seen ++ [e]) := by
  have hsub : seen ⊆ seen ++ [e] := List.subset_append_left seen [e]
  have hseen : ∀ r ∈ seen ++ [e], Complete r := by
    intro r hr
    rcases List.mem_append.mp hr with hr | hr
    · exact h.complete r hr
    · exact List.mem_singleton.mp hr ▸ he
  obtain ⟨blocks, hvectors, hblocks⟩ := h.collected
  subst hkey
  by_cases hboot : stage.Bootstraps e
  · have hnone : stage.detectors.lookup (bankKey e) = none := Option.isNone_iff_eq_none.mp hboot.1
    rw [next_of_bootstraps hboot] at hnext
    obtain ⟨stride, hstride, -⟩ := Option.bind_eq_some_iff.mp hnext
    obtain ⟨indices, hindices, hpatches⟩ := he.sampledPatches stride
    have hblocks' : ∀ b ∈ blocks ++ indices.map e.patch, IsPatch (seen ++ [e]) b := by
      intro b hb
      rcases List.mem_append.mp hb with hb | hb
      · exact (hblocks b hb).mono hsub
      · obtain ⟨i, hi, rfl⟩ := List.mem_map.mp hb
        exact ⟨e, List.mem_append_right _ List.mem_cons_self, i, hindices i hi, rfl⟩
    have hvectors' : ((stage.collected (bankKey e)).collect e.embeddingMeta
        (indices.map e.patch).flatten).vectors = (blocks ++ indices.map e.patch).flatten := by
      rw [List.flatten_append, ← hvectors, BootstrapState.collect, BootstrapState.shaped]
      split_ifs <;> rfl
    rw [bootstrap_eq rfl hstride hpatches] at hnext
    dsimp only at hnext
    rw [collect_frameCount] at hnext
    split_ifs at hnext with hdone
    · refine Traced.register hseen hnone ?_ hnext
      refine hvectors'.symm ▸ allRows_flatten hseen ?_ hblocks'
      intro r hr
      rcases List.mem_append.mp hr with hr | hr
      · exact hsame hboot hdone r hr
      · rw [List.mem_singleton.mp hr]
        exact .inr (.inr rfl)
    · obtain rfl := Option.some.inj hnext
      refine ⟨hseen, ⟨_, ?_, hblocks'⟩, h.registered.mono hsub rfl⟩
      rw [← hvectors']
      simp only [DetectStage.collected, AList.lookup_insert, Option.getD_some]
  · rw [next_of_not_bootstraps hboot] at hnext
    obtain rfl := Option.some.inj hnext
    refine ⟨hseen, ⟨blocks, ?_, fun b hb => (hblocks b hb).mono hsub⟩, ?_⟩
    · rw [runDetector_collected]
      exact hvectors
    · exact h.registered.runDetector.mono hsub rfl

/-! ### Runs -/

/-- One frame, with the frames seen before. -/
def follow (engine : NearestSearch F) (s : DetectStage F × List (Embedding F))
    (frame : ℕ × Embedding F) : Option (DetectStage F × List (Embedding F)) :=
  (s.1.next engine frame).map fun stage' => (stage', s.2 ++ [frame.2])

theorem run_follow_seen {s s' : DetectStage F × List (Embedding F)}
    {frames : List (ℕ × Embedding F)} (h : Transition.run (follow engine) s frames = some s') :
    s'.2 = s.2 ++ frames.map Prod.snd := by
  refine Transition.run_induction (follow engine)
    (P := fun actions t => t.2 = s.2 ++ actions.map Prod.snd) (List.append_nil _).symm ?_ h
  intro actions t frame t' ht hstep
  obtain ⟨stage', -, rfl⟩ := Option.map_eq_some_iff.mp hstep
  rw [ht, List.map_append, List.append_assoc]
  rfl

/-- A run over frames of one key is defined exactly when none of its divisors is zero. If the
frames that complete bootstrapping also have the dimension of all patches before them, every
vector of a registered coreset has its dimension and is one patch of one of the frames. -/
theorem bootstrap_tolerates_iff (engine : NearestSearch F) (minFrames targetSize : ℕ)
    (hdetector : stage.detectors.lookup key = none)
    (hstate : stage.bootstrapStates.lookup key = none) {frames : List (ℕ × Embedding F)}
    (hframes : ∀ frame ∈ frames, bankKey frame.2 = key ∧ Emitted frame.2) :
    let start := (stage.setBootstrapConfig true minFrames targetSize, [])
    ((Transition.run (follow engine) start frames).isSome ↔
        Transition.Admits (follow engine) (fun s frame => s.1.DivisorsNonzero frame.2) start
          frames) ∧
      (Transition.Admits (follow engine) (fun s frame => s.1.SameDim s.2 frame.2) start frames →
        ∀ s ∈ Transition.run (follow engine) start frames,
          s.1.RegisteredFrom key (frames.map Prod.snd)) := by
  intro start
  refine ⟨Transition.run_isSome_iff fun s frame hframe => ?_, fun hsame s hs => ?_⟩
  · rw [follow, Option.isSome_map]
    exact next_isSome_iff (hframes frame hframe).2.complete
  · have hstart : Traced start.1 key start.2 := by
      refine ⟨by simp [start], ⟨[], ?_, by simp⟩, ?_⟩
      · change ((stage.bootstrapStates.lookup key).getD {}).vectors = _
        rw [hstate]
        rfl
      · intro detector hlookup
        change stage.detectors.lookup key = some detector at hlookup
        rw [hdetector] at hlookup
        cases hlookup
    have htraced : Traced s.1 key s.2 := by
      refine hsame.invariant (P := fun s => Traced s.1 key s.2) hs hstart ?_
      intro s frame hframe s' htraced hdim hstep
      obtain ⟨stage', hnext, rfl⟩ := Option.map_eq_some_iff.mp hstep
      obtain ⟨hkey, hemitted⟩ := hframes frame hframe
      exact htraced.next hkey hemitted.complete hdim hnext
    have hseen := run_follow_seen hs
    rw [List.nil_append] at hseen
    exact hseen ▸ htraced.registered

/-- An inference stage whose embedder answers with one embedding, and an image of the seat. -/
def seatInference (e : Embedding ℚ) : InferenceStage ℚ :=
  ⟨false, some fun _ => .ok e, none, some ⟨fun _ => .ok ()⟩⟩

def seatImage : Image := ⟨{ surfaceId := "seat" }, []⟩

theorem emitted_seat {e : Embedding ℚ} (h : Complete e)
    (hidentity : InferenceStage.carryIdentity seatImage.imageMeta
      (InferenceStage.download ⟨true, true⟩ e) = e) : Emitted e := by
  refine ⟨seatInference e, ⟨true, true⟩, seatImage, ?_, ?_⟩
  · intro extract hextract image extracted hok
    obtain rfl := Option.some.inj hextract
    exact Except.ok.inj hok ▸ h
  · exact congrArg (fun e => Except.ok (StageData.embedding e)) hidentity

theorem complete_seatFrame (x y : ℚ) : Complete (seatFrame x y) := ⟨rfl, .inl rfl⟩

theorem seatFrames_emitted :
    ∀ frame ∈ seatFrames, bankKey frame.2 = ("seat", 0) ∧ Emitted frame.2 :=
  List.forall_mem_cons.mpr ⟨⟨rfl, emitted_seat (complete_seatFrame 0 1) rfl⟩,
    List.forall_mem_singleton.mpr ⟨rfl, emitted_seat (complete_seatFrame 1 2) rfl⟩⟩

theorem bootstrap_tolerates_iff_seat :
    (Transition.run (follow flatL2) (coldStage.setBootstrapConfig true 2 4, []) seatFrames).isSome ∧
      ((Transition.run (follow flatL2) (coldStage.setBootstrapConfig true 2 4, [])
          seatFrames).isSome ↔
        Transition.Admits (follow flatL2) (fun s frame => s.1.DivisorsNonzero frame.2)
          (coldStage.setBootstrapConfig true 2 4, []) seatFrames) ∧
      (Transition.Admits (follow flatL2) (fun s frame => s.1.SameDim s.2 frame.2)
          (coldStage.setBootstrapConfig true 2 4, []) seatFrames →
        ∀ s ∈ Transition.run (follow flatL2) (coldStage.setBootstrapConfig true 2 4, [])
            seatFrames,
          s.1.RegisteredFrom ("seat", 0) (seatFrames.map Prod.snd)) :=
  ⟨by decide +kernel, bootstrap_tolerates_iff flatL2 2 4 rfl rfl seatFrames_emitted⟩

/-- A frame whose inference failed. -/
def failedFrame : Embedding ℚ := { Embedding.empty with surfaceId := "seat" }

/-- It is what a stage without an embedder sends. -/
theorem emitted_failedFrame : Emitted failedFrame :=
  ⟨⟨true, none, none, none⟩, ⟨true, true⟩, seatImage, by simp, rfl⟩

/-- A frame of one patch of two values. -/
def wideFrame : Embedding ℚ := ⟨[2, 3], false, ⟨2, 1, 1, 1⟩, [], "seat", 0⟩

/-- A failed frame at the end divides by zero; a frame of another dimension at the end makes
one vector of two patches. -/
theorem bootstrap_not_tolerant :
    ((bankKey failedFrame = ("seat", 0) ∧ Emitted failedFrame) ∧
      Transition.run (follow flatL2) (coldStage.setBootstrapConfig true 2 4, [])
        [(0, seatFrame 0 1), (0, failedFrame)] = none) ∧
    (bankKey wideFrame = ("seat", 0) ∧ Emitted wideFrame) ∧
      ∃ s core bank, Transition.run (follow flatL2) (coldStage.setBootstrapConfig true 2 4, [])
          [(0, seatFrame 0 1), (0, wideFrame)] = some s ∧
        s.1.detectors.lookup ("seat", 0) = some (.patchCore core) ∧
        core.featureBank = some bank ∧ [0, 1] ∈ bank.vectors ∧
        ¬IsPatch [seatFrame 0 1, wideFrame] [0, 1] := by
  refine ⟨⟨⟨rfl, emitted_failedFrame⟩, rfl⟩,
    ⟨rfl, emitted_seat ⟨rfl, .inl rfl⟩ rfl⟩, _, _, _, rfl, rfl, rfl, by decide +kernel, ?_⟩
  rintro ⟨r, hr, i, hi, hpatch⟩
  rcases List.mem_cons.mp hr with rfl | hr
  · have hlength := congrArg List.length hpatch
    have hle : ((seatFrame 0 1).patch i).length ≤ 1 := List.length_take_le _ _
    rw [← hlength] at hle
    exact absurd hle (by decide)
  · obtain rfl := List.mem_singleton.mp hr
    obtain rfl : i = 0 := Nat.lt_one_iff.mp hi
    exact absurd hpatch (by decide +kernel)

end DetectStage

end SurfaceAi.Pipeline
