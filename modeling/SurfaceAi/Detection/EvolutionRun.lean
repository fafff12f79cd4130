import SurfaceAi.Detection.CoresetEvolution
import SurfaceAi.Library.Transition

/-! Runs of the coreset evolution. A run is any order of offered frames, iterations of the
update loop and full rebuilds; its history records what was drained from the buffer and
how the last operation on the banks ended. -/

namespace SurfaceAi.Detection

inductive EvolutionOp (F : Type*) where
  | offer (offer : Offer F)
  | update
  | fullRebuild (savePath : String) (io : RebuildIo)

structure History (F : Type*) where
  state : CoresetEvolution F
  drained : List (List F)
  last : UpdateEnd

variable {F : Type*}

/-- Just constructed, over the detector's bank. -/
def History.start (cfg : EvolutionConfig F) (bank : Option (FeatureBank F))
    (profile : NormalityProfile F) : History F :=
  ⟨.create cfg bank profile, [], .idle⟩

section Steps

variable [Zero F] [One F] [Add F] [Sub F] [Neg F] [Mul F] [Div F] [NatCast F] [LT F]
  [DecidableLT F] [LE F] [DecidableLE F] [DecidableEq F] [FloatMath F] (engine : NearestSearch F)

/-- One operation; the update and the rebuild drain the buffer. -/
def History.step (h : History F) : EvolutionOp F → Option (History F)
  | .offer offer => (h.state.assessAndOffer offer).map fun s => { h with state := s }
  | .update => (h.state.update engine).map fun (last, s) =>
      ⟨s, h.drained ++ batchPatches h.state.buffer.candidates, last⟩
  | .fullRebuild savePath io => (h.state.fullRebuild engine savePath io).map fun (_, last, s) =>
      ⟨s, h.drained ++ batchPatches h.state.buffer.candidates, last⟩

namespace CoresetEvolution

variable {engine} {s s' : CoresetEvolution F}

/-- With the buffer drained. -/
def emptied (s : CoresetEvolution F) : CoresetEvolution F :=
  { s with buffer := s.buffer.drainAll.2 }

/-- What an iteration does with the batch it has drained. -/
def processBatch (engine : NearestSearch F) (s : CoresetEvolution F)
    (batch : List (EvolutionCandidate F)) : Option (UpdateEnd × CoresetEvolution F) :=
  if batch.isEmpty then some (.idle, s)
  else if meanNormalcy batch < s.activeProfile.evolutionGate then some (.discarded, s)
  else do
    match ← s.nextBank batch with
    | none => some (.discarded, s)
    | some newBank =>
      let installed ← s.installUpdate engine newBank
      (installed.selfValidationFails engine).map fun fails =>
        if fails then (.rejected, installed.restore.recordUpdate batch.length)
        else (.installed 100, installed.recordUpdate batch.length)

theorem update_eq_processBatch :
    s.update engine = s.emptied.processBatch engine s.buffer.candidates := rfl

/-! ### What a frame changes -/

/-- The parts of the state that an offered frame leaves alone. -/
structure SameBanks (s s' : CoresetEvolution F) : Prop where
  cfg : s'.cfg = s.cfg
  detectorBank : s'.detectorBank = s.detectorBank
  standbyBank : s'.standbyBank = s.standbyBank
  activeProfile : s'.activeProfile = s.activeProfile

omit [Zero F] [One F] [Add F] [Sub F] [Mul F] [Div F] [Neg F] [NatCast F] [LT F] [DecidableLT F]
  [FloatMath F] [DecidableEq F] in
theorem sameBanks_noteSaturation (novelty : NoveltyResult F) :
    SameBanks s (s.noteSaturation novelty).2 := by
  unfold noteSaturation
  dsimp only
  split_ifs
  · exact ⟨rfl, rfl, rfl, rfl⟩
  · exact ⟨rfl, rfl, rfl, rfl⟩
  · exact ⟨rfl, rfl, rfl, rfl⟩

section Offered

omit [Add F] [Neg F] [FloatMath F] [DecidableEq F]

def normalcyOf (s : CoresetEvolution F) (offer : Offer F) : NormalityAssessment F :=
  computeNormalcy (offer.distances.take offer.queryCount) s.activeProfile s.cfg.tailRatioMax

def noveltyOf (s : CoresetEvolution F) (offer : Offer F) : NoveltyResult F :=
  checkNovelty (offer.distances.take offer.queryCount) s.activeProfile s.cfg.coverageThreshold

/-- The frame as it would be buffered. -/
def candidateOf (s : CoresetEvolution F) (offer : Offer F) (data : List F) :
    EvolutionCandidate F :=
  ⟨data, offer.gridH, offer.gridW, offer.dim, (s.normalcyOf offer).normalcyScore⟩

/-- The frame is assessed, and passes the consensus check. -/
structure Admits (s : CoresetEvolution F) (offer : Offer F) (data : List F) : Prop where
  data_eq : offer.embeddingData = some data
  enabled : s.cfg.enabled = true
  queried : offer.queryCount ≠ 0
  nonempty : data ≠ []
  distances : offer.queryCount ≤ offer.distances.length
  consensus : multiSignalConsensusCheck (s.normalcyOf offer) offer
    s.activeProfile.consensusThreshold = true

/-- What an offered frame does. -/
inductive OfferEffect (s s' : CoresetEvolution F) (offer : Offer F) : Prop where
  | ignored (state : s' = s) : OfferEffect s s' offer
  | saturated {data : List F} (admits : s.Admits offer data)
      (novel : (s.noveltyOf offer).isNovel = true)
      (full : (s.noteSaturation (s.noveltyOf offer)).1 = true)
      (state : s' = (s.noteSaturation (s.noveltyOf offer)).2) : OfferEffect s s' offer
  | buffered {data : List F} (admits : s.Admits offer data)
      (novel : (s.noveltyOf offer).isNovel = true)
      (full : (s.noteSaturation (s.noveltyOf offer)).1 = false)
      (state : s' = { (s.noteSaturation (s.noveltyOf offer)).2 with
        buffer := ((s.noteSaturation (s.noveltyOf offer)).2.buffer.append
          (s.candidateOf offer data)).2 }) : OfferEffect s s' offer

/-- What follows the consensus check. -/
theorem assessAndOffer_of_admits {offer : Offer F} {data : List F} (h : s.Admits offer data) :
    s.assessAndOffer offer =
      if ¬(s.noveltyOf offer).isNovel then some s
      else if (s.noteSaturation (s.noveltyOf offer)).1 then
        some (s.noteSaturation (s.noveltyOf offer)).2
      else some { (s.noteSaturation (s.noveltyOf offer)).2 with
        buffer := ((s.noteSaturation (s.noveltyOf offer)).2.buffer.append
          (s.candidateOf offer data)).2 } := by
  have hconsensus := h.consensus
  rw [normalcyOf] at hconsensus
  unfold assessAndOffer
  rw [h.data_eq]
  dsimp only
  rw [if_neg (by simp [h.enabled, h.queried, h.nonempty]), if_neg (not_lt.mpr h.distances),
    if_neg (not_not.mpr hconsensus)]
  rfl

theorem offer_effect {offer : Offer F} (h : s.assessAndOffer offer = some s') :
    OfferEffect s s' offer := by
  by_cases hadmits : ∃ data, s.Admits offer data
  · obtain ⟨data, hadmits⟩ := hadmits
    rw [assessAndOffer_of_admits hadmits] at h
    split_ifs at h with hnovel hfull
    · exact .saturated hadmits hnovel hfull (Option.some.inj h).symm
    · exact .buffered hadmits hnovel (Bool.eq_false_iff.mpr hfull) (Option.some.inj h).symm
    · exact .ignored (Option.some.inj h).symm
  · -- one of the checks before turns the frame away
    refine .ignored ?_
    unfold assessAndOffer at h
    split at h
    · exact (Option.some.inj h).symm
    next data hdata =>
      dsimp only at h
      by_cases hskip : ¬s.cfg.enabled = true ∨ offer.queryCount = 0 ∨ data = []
      · rw [if_pos hskip] at h
        exact (Option.some.inj h).symm
      rw [if_neg hskip] at h
      by_cases hshort : offer.distances.length < offer.queryCount
      · rw [if_pos hshort] at h
        cases h
      rw [if_neg hshort] at h
      by_cases hconsensus : multiSignalConsensusCheck (s.normalcyOf offer) offer
          s.activeProfile.consensusThreshold = true
      · obtain ⟨henabled, hquery, hdata'⟩ : s.cfg.enabled = true ∧ offer.queryCount ≠ 0 ∧
            data ≠ [] := by simpa [not_or] using hskip
        exact absurd ⟨data, hdata, henabled, hquery, hdata', not_lt.mp hshort, hconsensus⟩ hadmits
      · have hturned : some s = some s' := by
          rw [← h]
          exact (if_pos hconsensus).symm
        exact (Option.some.inj hturned).symm

theorem sameBanks_of_offer {offer : Offer F} (h : s.assessAndOffer offer = some s') :
    SameBanks s s' := by
  have hnote := s.sameBanks_noteSaturation (s.noveltyOf offer)
  cases offer_effect h with
  | ignored state => exact state ▸ ⟨rfl, rfl, rfl, rfl⟩
  | saturated admits novel full state => exact state ▸ hnote
  | buffered admits novel full state =>
    exact state ▸ ⟨hnote.cfg, hnote.detectorBank, hnote.standbyBank, hnote.activeProfile⟩

end Offered

/-! ### What an update changes -/

section Drift

omit [One F] [Neg F] [LE F] [DecidableLE F] [DecidableEq F]

/-- The drift check can only reset the standby bank and the saturation. -/
structure SameButStandby (s s' : CoresetEvolution F) : Prop where
  cfg : s'.cfg = s.cfg
  detectorBank : s'.detectorBank = s.detectorBank
  activeProfile : s'.activeProfile = s.activeProfile
  incrementalUpdateCount : s'.incrementalUpdateCount = s.incrementalUpdateCount
  stats : s'.stats = s.stats

theorem sameButStandby_checkDrift (displacement : F) :
    SameButStandby s (s.checkDrift displacement) := by
  unfold checkDrift
  dsimp only
  split_ifs <;> exact ⟨rfl, rfl, rfl, rfl, rfl⟩

theorem recordUpdate_detectorBank (framesAdded : ℕ) :
    (s.recordUpdate framesAdded).detectorBank = s.detectorBank :=
  (sameButStandby_checkDrift 0).detectorBank

theorem recordUpdate_activeProfile (framesAdded : ℕ) :
    (s.recordUpdate framesAdded).activeProfile = s.activeProfile :=
  (sameButStandby_checkDrift 0).activeProfile

theorem recordUpdate_cfg (framesAdded : ℕ) : (s.recordUpdate framesAdded).cfg = s.cfg :=
  (sameButStandby_checkDrift 0).cfg

end Drift

omit [One F] [LE F] [DecidableLE F] [DecidableEq F] in
/-- A rebuilt bank is installed with its own profile. -/
theorem installRebuild_installed (newBank : FeatureBank F) (newProfile : NormalityProfile F)
    (savePath : String) :
    (s.installRebuild newBank newProfile savePath).detectorBank = some newBank ∧
      (s.installRebuild newBank newProfile savePath).activeProfile = newProfile ∧
      (s.installRebuild newBank newProfile savePath).cfg = s.cfg := by
  refine ⟨?_, ?_, ?_⟩
  · exact (sameButStandby_checkDrift _).detectorBank
  · exact (sameButStandby_checkDrift _).activeProfile
  · exact (sameButStandby_checkDrift _).cfg

/-- What an iteration of the update loop does. A judged batch has made a new bank, and the
profile was computed on the bank that was swapped out. -/
inductive UpdateEffect (engine : NearestSearch F) (s s' : CoresetEvolution F) : UpdateEnd → Prop where
  | idle (batch : s.buffer.candidates = []) (state : s' = s.emptied) :
      UpdateEffect engine s s' .idle
  | discarded (nonempty : s.buffer.candidates ≠ []) (state : s' = s.emptied)
      (reason : meanNormalcy s.buffer.candidates < s.activeProfile.evolutionGate ∨
        s.nextBank s.buffer.candidates = some none) : UpdateEffect engine s s' .discarded
  | rejected {newBank oldBank : FeatureBank F} {profile : NormalityProfile F}
      (nonempty : s.buffer.candidates ≠ [])
      (next : s.nextBank s.buffer.candidates = some (some newBank))
      (detector : s.detectorBank = some oldBank)
      (computed : NormalityProfile.computeFast engine oldBank s.cfg.normalityK 100
        s.cfg.tailRatioMax = some profile)
      (state : s' = { s.emptied with
        standbyBank := some newBank
        standbyProfile := s.activeProfile }.recordUpdate s.buffer.candidates.length) :
      UpdateEffect engine s s' .rejected
  | installed {newBank oldBank : FeatureBank F} {profile : NormalityProfile F}
      (nonempty : s.buffer.candidates ≠ [])
      (next : s.nextBank s.buffer.candidates = some (some newBank))
      (detector : s.detectorBank = some oldBank)
      (computed : NormalityProfile.computeFast engine oldBank s.cfg.normalityK 100
        s.cfg.tailRatioMax = some profile)
      (state : s' = { s.emptied with
        detectorBank := some newBank
        standbyBank := some oldBank
        standbyProfile := s.activeProfile
        activeProfile := profile }.recordUpdate s.buffer.candidates.length) :
      UpdateEffect engine s s' (.installed 100)

/-- The update with the drained state named. -/
private theorem update_eq : s.update engine =
    if s.buffer.candidates.isEmpty then some (.idle, s.emptied)
    else if meanNormalcy s.buffer.candidates < s.activeProfile.evolutionGate then
      some (.discarded, s.emptied)
    else (s.nextBank s.buffer.candidates).bind fun next =>
      match next with
      | none => some (.discarded, s.emptied)
      | some newBank => (s.emptied.installUpdate engine newBank).bind fun installed =>
        (installed.selfValidationFails engine).map fun fails =>
          if fails then
            (.rejected, installed.restore.recordUpdate s.buffer.candidates.length)
          else (.installed 100, installed.recordUpdate s.buffer.candidates.length) := rfl

theorem update_effect {last : UpdateEnd} (h : s.update engine = some (last, s')) :
    UpdateEffect engine s s' last := by
  rw [update_eq] at h
  split_ifs at h with hbatch hgate
  · obtain ⟨rfl, rfl⟩ := Prod.mk.inj (Option.some.inj h)
    exact .idle (List.isEmpty_iff.mp hbatch) rfl
  · obtain ⟨rfl, rfl⟩ := Prod.mk.inj (Option.some.inj h)
    exact .discarded (fun hnil => hbatch (List.isEmpty_iff.mpr hnil)) rfl (.inl hgate)
  · have hnonempty : s.buffer.candidates ≠ [] := fun hnil => hbatch (List.isEmpty_iff.mpr hnil)
    obtain ⟨next, hnext, h⟩ := Option.bind_eq_some_iff.mp h
    cases next with
    | none =>
      obtain ⟨rfl, rfl⟩ := Prod.mk.inj (Option.some.inj h)
      exact .discarded hnonempty rfl (.inr hnext)
    | some newBank =>
      obtain ⟨installed, hinstall, h⟩ := Option.bind_eq_some_iff.mp h
      obtain ⟨fails, -, h⟩ := Option.map_eq_some_iff.mp h
      simp only [installUpdate, swapFeatureBank, Option.bind_eq_bind, Option.bind_eq_some_iff,
        Option.some.injEq] at hinstall
      obtain ⟨oldBank, hdetector, profile, hprofile, rfl⟩ := hinstall
      cases fails with
      | true =>
        obtain ⟨rfl, rfl⟩ := Prod.mk.inj h
        have hrestored := congrArg (fun bank : Option (FeatureBank F) =>
          { s.emptied with
            detectorBank := bank
            standbyBank := some newBank
            standbyProfile := s.activeProfile }.recordUpdate s.buffer.candidates.length) hdetector
        exact .rejected hnonempty hnext hdetector hprofile hrestored.symm
      | false =>
        obtain ⟨rfl, rfl⟩ := Prod.mk.inj h
        exact .installed hnonempty hnext hdetector hprofile rfl

/-! ### What a rebuild changes -/

/-- What a rebuild does: it drains the buffer, and installs a bank only when all went
well. -/
inductive RebuildEffect (engine : NearestSearch F) (s s' : CoresetEvolution F)
    (savePath : String) (io : RebuildIo) : UpdateEnd → Prop where
  | discarded (state : s' = s.emptied)
      (reason : s.activeProfile.dim = 0 ∨ s.mergedVectors s.buffer.candidates = some [] ∨
        (∃ e merged, s.mergedVectors s.buffer.candidates = some merged ∧
          FeatureBank.buildWithGreedyCoreset [.ofVectors merged s.activeProfile.dim
            (merged.length / s.activeProfile.dim) 1] s.activeProfile.dim
            (min s.cfg.targetSize (merged.length / s.activeProfile.dim)) = .error e) ∨
        io.saveBank ≠ .ok () ∨ io.saveProfile ≠ .ok ()) :
      RebuildEffect engine s s' savePath io .discarded
  | installed {merged : List F} {newBank : FeatureBank F} {profile : NormalityProfile F}
      (merge : s.mergedVectors s.buffer.candidates = some merged)
      (build : FeatureBank.buildWithGreedyCoreset [.ofVectors merged s.activeProfile.dim
        (merged.length / s.activeProfile.dim) 1] s.activeProfile.dim
        (min s.cfg.targetSize (merged.length / s.activeProfile.dim)) = .ok newBank)
      (computed : NormalityProfile.computeFast engine newBank s.cfg.normalityK
        (rebuildSamples newBank) s.cfg.tailRatioMax = some profile)
      (state : s' = s.emptied.installRebuild newBank profile savePath) :
      RebuildEffect engine s s' savePath io (.installed (rebuildSamples newBank))

omit [LE F] [DecidableLE F] in
private theorem fullRebuild_eq {savePath : String} {io : RebuildIo} :
    s.fullRebuild engine savePath io =
    if s.activeProfile.dim = 0 then some (.ok (), .discarded, s.emptied)
    else (s.mergedVectors s.buffer.candidates).bind fun merged =>
      if merged.isEmpty then some (.ok (), .discarded, s.emptied)
      else
        match FeatureBank.buildWithGreedyCoreset [.ofVectors merged s.activeProfile.dim
          (merged.length / s.activeProfile.dim) 1] s.activeProfile.dim
          (min s.cfg.targetSize (merged.length / s.activeProfile.dim)) with
        | .error e => some (.error e, .discarded, s.emptied)
        | .ok newBank =>
          (NormalityProfile.computeFast engine newBank s.cfg.normalityK (rebuildSamples newBank)
            s.cfg.tailRatioMax).bind fun newProfile =>
          match io.saveBank, io.saveProfile with
          | .error e, _ => some (.error e, .discarded, s.emptied)
          | .ok (), .error e => some (.error e, .discarded, s.emptied)
          | .ok (), .ok () => some (.ok (), .installed (rebuildSamples newBank),
              s.emptied.installRebuild newBank newProfile savePath) := rfl

omit [LE F] [DecidableLE F] in
theorem fullRebuild_effect {savePath : String} {io : RebuildIo} {result : Result Unit}
    {last : UpdateEnd} (h : s.fullRebuild engine savePath io = some (result, last, s')) :
    RebuildEffect engine s s' savePath io last := by
  rw [fullRebuild_eq] at h
  split_ifs at h with hdim
  · simp only [Option.some.injEq, Prod.mk.injEq] at h
    obtain ⟨-, rfl, rfl⟩ := h
    exact .discarded rfl (.inl hdim)
  · obtain ⟨merged, hmerged, h⟩ := Option.bind_eq_some_iff.mp h
    split_ifs at h with hempty
    · simp only [Option.some.injEq, Prod.mk.injEq] at h
      obtain ⟨-, rfl, rfl⟩ := h
      rw [List.isEmpty_iff.mp hempty] at hmerged
      exact .discarded rfl (.inr (.inl hmerged))
    · split at h
      · next e hbuild =>
        simp only [Option.some.injEq, Prod.mk.injEq] at h
        obtain ⟨-, rfl, rfl⟩ := h
        exact .discarded rfl (.inr (.inr (.inl ⟨e, merged, hmerged, hbuild⟩)))
      · next newBank hbuild =>
        obtain ⟨profile, hprofile, h⟩ := Option.bind_eq_some_iff.mp h
        split at h
        · next e hsave =>
          simp only [Option.some.injEq, Prod.mk.injEq] at h
          obtain ⟨-, rfl, rfl⟩ := h
          exact .discarded rfl (.inr (.inr (.inr (.inl (by rw [hsave]; nofun)))))
        · next e _ hsave =>
          simp only [Option.some.injEq, Prod.mk.injEq] at h
          obtain ⟨-, rfl, rfl⟩ := h
          exact .discarded rfl (.inr (.inr (.inr (.inr (by rw [hsave]; nofun)))))
        · simp only [Option.some.injEq, Prod.mk.injEq] at h
          obtain ⟨-, rfl, rfl⟩ := h
          exact .installed hmerged hbuild hprofile rfl

end CoresetEvolution

end Steps

end SurfaceAi.Detection
