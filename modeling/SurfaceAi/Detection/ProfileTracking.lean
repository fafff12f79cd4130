import SurfaceAi.Detection.VectorRetention

/-! What an update leaves behind. A rejected update puts the old bank and profile back but
keeps the rejected bank as the standby bank and counts the update. An accepted update
computes the profile of the bank it replaces; a rebuild computes that of its new bank. -/

namespace SurfaceAi.Detection

variable {F : Type*} [Zero F] [One F] [Add F] [Sub F] [Neg F] [Mul F] [Div F] [NatCast F] [LT F]
  [DecidableLT F] [LE F] [DecidableLE F] [DecidableEq F] [FloatMath F] {engine : NearestSearch F}

namespace CoresetEvolution

variable {s s' : CoresetEvolution F}

/-- The evolution is as it was before. -/
structure Unchanged (s s' : CoresetEvolution F) : Prop where
  detectorBank : s'.detectorBank = s.detectorBank
  standbyBank : s'.standbyBank = s.standbyBank
  activeProfile : s'.activeProfile = s.activeProfile
  incrementalUpdateCount : s'.incrementalUpdateCount = s.incrementalUpdateCount
  updateCount : s'.stats.updateCount = s.stats.updateCount

/-- A rejected update never leaves the evolution as it was: the detector's bank and the
profile are restored, but the update is counted. -/
theorem rejected_update_changes (h : s.update engine = some (.rejected, s')) :
    ¬Unchanged s s' ∧ s'.detectorBank = s.detectorBank ∧ s'.activeProfile = s.activeProfile ∧
      s'.incrementalUpdateCount = s.incrementalUpdateCount + 1 ∧
      s'.stats.updateCount = s.stats.updateCount + 1 := by
  cases update_effect h with
  | rejected _ _ _ _ state =>
    have hcount : s'.incrementalUpdateCount = s.incrementalUpdateCount + 1 := by
      rw [state, recordUpdate, (sameButStandby_checkDrift 0).incrementalUpdateCount]
      rfl
    refine ⟨fun hun => ?_, ?_, ?_, hcount, ?_⟩
    · have heq := hun.incrementalUpdateCount
      omega
    · rw [state, recordUpdate_detectorBank]
      rfl
    · rw [state, recordUpdate_activeProfile]
      rfl
    · rw [state, recordUpdate, (sameButStandby_checkDrift 0).stats]
      rfl

end CoresetEvolution

section Rejected

/-- Two equal vectors: no distance is below the median of theirs. -/
def doubleBank : FeatureBank ℚ := ⟨1, [[0], [0]], by decide⟩

def doubleOffered : History ℚ :=
  ((History.start lineConfig (some doubleBank) lineProfile).step flatL2
    (.offer (lineOffer 1))).get (by decide +kernel)

def doubleRejected : UpdateEnd × CoresetEvolution ℚ :=
  (doubleOffered.state.update flatL2).get (by decide +kernel)

theorem doubleRejected_rejected :
    doubleOffered.state.update flatL2 = some (.rejected, doubleRejected.2) := by
  have hlast : doubleRejected.1 = .rejected := by decide +kernel
  rw [← hlast]
  exact (Option.some_get _).symm

theorem rejected_update_changes_double :
    doubleRejected.2.incrementalUpdateCount = doubleOffered.state.incrementalUpdateCount + 1 :=
  (CoresetEvolution.rejected_update_changes doubleRejected_rejected).2.2.2.1

/-- The rejected bank, with the vector of the batch, is the new standby bank. -/
theorem rejected_bank_kept :
    doubleOffered.state.update flatL2 = some (.rejected, doubleRejected.2) ∧
      ¬CoresetEvolution.Unchanged doubleOffered.state doubleRejected.2 ∧
      doubleOffered.state.standbyBank.map FeatureBank.vectors = some [[0], [0]] ∧
      doubleRejected.2.standbyBank.map FeatureBank.vectors = some [[0], [0], [1]] := by
  refine ⟨doubleRejected_rejected, fun h => ?_, by decide +kernel, by decide +kernel⟩
  exact absurd h.updateCount (by decide +kernel)

end Rejected

/-! ### The profile of the installed bank -/

/-- The profile is that of the detector's bank whenever the last operation installed one. -/
def InStep (engine : NearestSearch F) (h : History F) : Prop :=
  ∀ samples, h.last = .installed samples → ∃ bank ∈ h.state.detectorBank,
    NormalityProfile.computeFast engine bank h.state.cfg.normalityK samples
      h.state.cfg.tailRatioMax = some h.state.activeProfile

/-- An accepted update replaces the bank by one with the same profile. -/
def KeepsProfile (engine : NearestSearch F) (h : History F) : EvolutionOp F → Prop
  | .update => ∀ s', h.state.update engine = some (.installed 100, s') →
      ∀ oldBank ∈ h.state.detectorBank, ∀ newBank,
        h.state.nextBank h.state.buffer.candidates = some (some newBank) →
        NormalityProfile.computeFast engine newBank h.state.cfg.normalityK 100
            h.state.cfg.tailRatioMax =
          NormalityProfile.computeFast engine oldBank h.state.cfg.normalityK 100
            h.state.cfg.tailRatioMax
  | _ => True

/-- After an operation on the banks the profile is in step exactly when the operation was a
rebuild, installed nothing, or kept the profile. -/
theorem inStep_step_iff {h h' : History F} {op : EvolutionOp F} (hold : InStep engine h)
    (hstep : h.step engine op = some h') : InStep engine h' ↔ KeepsProfile engine h op := by
  cases op with
  | offer offer =>
    obtain ⟨s, hs, rfl⟩ := Option.map_eq_some_iff.mp hstep
    have hsame := CoresetEvolution.sameBanks_of_offer hs
    refine iff_of_true (fun samples hlast => ?_) trivial
    obtain ⟨bank, hbank, hcomputed⟩ := hold samples hlast
    refine ⟨bank, hsame.detectorBank.trans hbank, ?_⟩
    show NormalityProfile.computeFast engine bank s.cfg.normalityK samples s.cfg.tailRatioMax =
      some s.activeProfile
    rw [hsame.cfg, hsame.activeProfile]
    exact hcomputed
  | update =>
    obtain ⟨⟨last, s⟩, hs, rfl⟩ := Option.map_eq_some_iff.mp hstep
    -- an update that installs nothing asks nothing of the profile
    have hother : (∀ samples, last ≠ .installed samples) →
        (InStep engine ⟨s, h.drained ++ batchPatches h.state.buffer.candidates, last⟩ ↔
          KeepsProfile engine h .update) := by
      intro hlast
      refine iff_of_true (fun samples hsamples => absurd hsamples (hlast samples)) ?_
      intro s' hs'
      exact absurd (Prod.mk.inj (Option.some.inj (hs.symm.trans hs'))).1 (hlast 100)
    cases CoresetEvolution.update_effect hs with
    | idle => exact hother nofun
    | discarded => exact hother nofun
    | rejected => exact hother nofun
    | @installed newBank oldBank profile nonempty next detector computed state =>
      have hbank : s.detectorBank = some newBank := by
        rw [state, CoresetEvolution.recordUpdate_detectorBank]
      have hprofile : s.activeProfile = profile := by
        rw [state, CoresetEvolution.recordUpdate_activeProfile]
      have hcfg : s.cfg = h.state.cfg := by
        rw [state, CoresetEvolution.recordUpdate_cfg]
        rfl
      constructor
      · intro hin s' _ oldBank' hold' newBank' hnext
        obtain ⟨bank, hbank', hcomputed⟩ := hin 100 rfl
        obtain rfl := Option.some.inj (hbank.symm.trans hbank')
        obtain rfl := Option.some.inj (Option.some.inj (next.symm.trans hnext))
        obtain rfl := Option.some.inj (detector.symm.trans hold')
        rw [computed, ← hprofile, ← hcfg]
        exact hcomputed
      · intro hkeeps samples hsamples
        obtain rfl := UpdateEnd.installed.inj hsamples
        refine ⟨newBank, hbank, ?_⟩
        show NormalityProfile.computeFast engine newBank s.cfg.normalityK 100
          s.cfg.tailRatioMax = some s.activeProfile
        rw [hcfg, hprofile, hkeeps s hs oldBank detector newBank next]
        exact computed
  | fullRebuild savePath io =>
    obtain ⟨⟨result, last, s⟩, hs, rfl⟩ := Option.map_eq_some_iff.mp hstep
    refine iff_of_true (fun samples hlast => ?_) trivial
    cases CoresetEvolution.fullRebuild_effect hs with
    | discarded => cases hlast
    | @installed merged newBank profile merge build computed state =>
      obtain rfl := UpdateEnd.installed.inj hlast
      obtain ⟨hbank, hprofile, hcfg⟩ :=
        CoresetEvolution.installRebuild_installed (s := h.state.emptied) newBank profile savePath
      refine ⟨newBank, ?_, ?_⟩
      · show s.detectorBank = some newBank
        rw [state, hbank]
      · show NormalityProfile.computeFast engine newBank s.cfg.normalityK _ s.cfg.tailRatioMax =
          some s.activeProfile
        rw [state, hcfg, hprofile]
        exact computed

/-- The patch goes into a bank that may hold no more than two vectors. -/
def smallStart : History ℚ :=
  .start { lineConfig with targetSize := 2 } (some lineBank) lineProfile

def smallOffered : History ℚ :=
  (smallStart.step flatL2 (.offer (lineOffer 1))).get (by decide +kernel)

def smallUpdated : History ℚ := (smallOffered.step flatL2 .update).get (by decide +kernel)

end SurfaceAi.Detection
