import SurfaceAi.Detection.EvolutionRun
import SurfaceAi.Detection.EvolutionYaml
import Mathlib.Algebra.Field.Rat
import Mathlib.Algebra.Order.Ring.Rat

/-! The pause of a mature bank. The counter behind it looks at frames whose coverage is at least
the saturation threshold, but the novelty filter in front of it lets only frames through whose
coverage is below the coverage threshold. -/

namespace SurfaceAi.Detection

open Transition

variable {F : Type*}

section Pause

variable [Zero F] [One F] [Add F] [Sub F] [Neg F] [Mul F] [Div F] [NatCast F] [LinearOrder F]
  [FloatMath F] {engine : NearestSearch F}

namespace CoresetEvolution

variable {s s' : CoresetEvolution F}

/-- A frame that passes the consensus check and that the bank covers as far as a mature one. -/
def Saturates (s : CoresetEvolution F) (offer : Offer F) : Prop :=
  (∃ data, s.Admits offer data) ∧
    s.cfg.coverageSaturationThreshold ≤ (s.noveltyOf offer).coverageRatio

omit [Zero F] [Sub F] [Mul F] [Add F] [Neg F] [FloatMath F] in
/-- A frame that the bank covers up to the coverage threshold is turned away. -/
theorem not_isNovel {offer : Offer F}
    (h : s.cfg.coverageThreshold ≤ (s.noveltyOf offer).coverageRatio) :
    (s.noveltyOf offer).isNovel = false := by
  unfold noveltyOf checkNovelty at h ⊢
  split_ifs at h ⊢ with hempty
  · rfl
  · exact decide_eq_false (not_lt.mpr h)

omit [Add F] [Neg F] [FloatMath F] in
theorem offer_of_saturates (hcfg : s.cfg.coverageThreshold ≤ s.cfg.coverageSaturationThreshold)
    {offer : Offer F} (h : s.Saturates offer) : s.assessAndOffer offer = some s := by
  obtain ⟨⟨data, hadmits⟩, hcoverage⟩ := h
  rw [assessAndOffer_of_admits hadmits, if_pos]
  rw [not_isNovel (hcfg.trans hcoverage)]
  exact Bool.false_ne_true

omit [Zero F] [Sub F] [Mul F] [Add F] [Neg F] [FloatMath F] in
/-- What passes the novelty filter is below the saturation threshold. -/
theorem not_paused_of_novel (hcfg : s.cfg.coverageThreshold ≤ s.cfg.coverageSaturationThreshold)
    {offer : Offer F} (hnovel : (s.noveltyOf offer).isNovel = true) :
    (s.noteSaturation (s.noveltyOf offer)).2.evolutionPaused = false := by
  have hlow : ¬s.cfg.coverageSaturationThreshold ≤ (s.noveltyOf offer).coverageRatio := by
    intro hcoverage
    rw [not_isNovel (hcfg.trans hcoverage)] at hnovel
    cases hnovel
  rw [noteSaturation, if_neg hlow]

omit [One F] [Neg F] in
/-- The drift check can only end a pause. -/
theorem checkDrift_not_paused (h : s.evolutionPaused = false) (displacement : F) :
    (s.checkDrift displacement).evolutionPaused = false := by
  unfold checkDrift
  dsimp only
  split_ifs <;> first | exact h | rfl

omit [Add F] [Neg F] [FloatMath F] in
theorem offer_not_paused (hcfg : s.cfg.coverageThreshold ≤ s.cfg.coverageSaturationThreshold)
    {offer : Offer F} (hs : s.assessAndOffer offer = some s') (h : s.evolutionPaused = false) :
    s'.evolutionPaused = false := by
  cases offer_effect hs with
  | ignored state => exact state ▸ h
  | saturated admits novel full state => exact state ▸ not_paused_of_novel hcfg novel
  | buffered admits novel full state => exact state ▸ not_paused_of_novel hcfg novel

theorem update_not_paused {last : UpdateEnd} (hs : s.update engine = some (last, s'))
    (h : s.evolutionPaused = false) : s'.evolutionPaused = false := by
  cases update_effect hs with
  | idle batch state => exact state ▸ h
  | discarded nonempty state reason => exact state ▸ h
  | rejected nonempty next detector computed state =>
    rw [state]
    exact checkDrift_not_paused (by exact h) 0
  | installed nonempty next detector computed state =>
    rw [state]
    exact checkDrift_not_paused (by exact h) 0

theorem fullRebuild_not_paused {savePath : String} {io : RebuildIo} {result : Result Unit}
    {last : UpdateEnd} (hs : s.fullRebuild engine savePath io = some (result, last, s'))
    (h : s.evolutionPaused = false) : s'.evolutionPaused = false := by
  cases fullRebuild_effect hs with
  | discarded state reason => exact state ▸ h
  | installed merge build computed state => exact state ▸ rfl

/-- No operation changes the configuration. -/
theorem cfg_of_step {h h' : History F} {op : EvolutionOp F} (hstep : h.step engine op = some h') :
    h'.state.cfg = h.state.cfg := by
  cases op with
  | offer offer =>
    obtain ⟨s, hs, rfl⟩ := Option.map_eq_some_iff.mp hstep
    exact (sameBanks_of_offer hs).cfg
  | update =>
    obtain ⟨⟨last, s⟩, hs, rfl⟩ := Option.map_eq_some_iff.mp hstep
    show s.cfg = h.state.cfg
    cases update_effect hs with
    | idle batch state => exact (congrArg cfg state).trans rfl
    | discarded nonempty state reason => exact (congrArg cfg state).trans rfl
    | rejected nonempty next detector computed state =>
      exact (congrArg cfg state).trans (recordUpdate_cfg _)
    | installed nonempty next detector computed state =>
      exact (congrArg cfg state).trans (recordUpdate_cfg _)
  | fullRebuild savePath io =>
    obtain ⟨⟨result, last, s⟩, hs, rfl⟩ := Option.map_eq_some_iff.mp hstep
    show s.cfg = h.state.cfg
    cases fullRebuild_effect hs with
    | discarded state reason => exact (congrArg cfg state).trans rfl
    | installed merge build computed state =>
      exact (congrArg cfg state).trans (installRebuild_installed _ _ _).2.2

theorem step_not_paused {h h' : History F} {op : EvolutionOp F}
    (hcfg : h.state.cfg.coverageThreshold ≤ h.state.cfg.coverageSaturationThreshold)
    (hstep : h.step engine op = some h') (hpaused : h.state.evolutionPaused = false) :
    h'.state.evolutionPaused = false := by
  cases op with
  | offer offer =>
    obtain ⟨s, hs, rfl⟩ := Option.map_eq_some_iff.mp hstep
    exact offer_not_paused hcfg hs hpaused
  | update =>
    obtain ⟨⟨last, s⟩, hs, rfl⟩ := Option.map_eq_some_iff.mp hstep
    exact update_not_paused hs hpaused
  | fullRebuild savePath io =>
    obtain ⟨⟨result, last, s⟩, hs, rfl⟩ := Option.map_eq_some_iff.mp hstep
    exact fullRebuild_not_paused hs hpaused

end CoresetEvolution

/-! ### Runs that should pause -/

/-- A run that ends with as many saturated frames in a row as the window asks for. -/
structure MatureRun (engine : NearestSearch F) (cfg : EvolutionConfig F)
    (bank : Option (FeatureBank F)) (profile : NormalityProfile F) (ops : List (EvolutionOp F))
    (offers : List (Offer F)) (h h' : History F) : Prop where
  before : run (History.step engine) (.start cfg bank profile) ops = some h
  calls : run (History.step engine) h (offers.map .offer) = some h'
  window : offers.length = cfg.saturationWindow
  saturates : Along (History.step engine)
    (fun h op _ => ∃ offer, op = .offer offer ∧ h.state.Saturates offer) h (offers.map .offer)

variable {cfg : EvolutionConfig F} {bank : Option (FeatureBank F)} {profile : NormalityProfile F}
  {ops : List (EvolutionOp F)} {offers : List (Offer F)} {h h' : History F}

theorem not_paused_of_run (hcfg : cfg.coverageThreshold ≤ cfg.coverageSaturationThreshold)
    (hrun : run (History.step engine) (.start cfg bank profile) ops = some h) :
    h.state.cfg = cfg ∧ h.state.evolutionPaused = false := by
  refine run_induction (P := fun _ h => h.state.cfg = cfg ∧ h.state.evolutionPaused = false)
    _ ⟨rfl, rfl⟩ ?_ hrun
  intro _ h op h' ih hstep
  exact ⟨(CoresetEvolution.cfg_of_step hstep).trans ih.1,
    CoresetEvolution.step_not_paused (ih.1 ▸ hcfg) hstep ih.2⟩

/-- Saturated frames leave no trace. -/
theorem eq_of_saturated_run
    (hcfg : h.state.cfg.coverageThreshold ≤ h.state.cfg.coverageSaturationThreshold)
    (hcalls : run (History.step engine) h (offers.map .offer) = some h')
    (hsaturates : Along (History.step engine)
      (fun h op _ => ∃ offer, op = .offer offer ∧ h.state.Saturates offer) h
      (offers.map .offer)) : h' = h := by
  induction offers generalizing h with
  | nil => exact (Option.some.inj hcalls).symm
  | cons offer offers ih =>
    rw [List.map_cons, run_cons, Option.bind_eq_some_iff] at hcalls
    obtain ⟨h₁, hstep, hcalls⟩ := hcalls
    obtain ⟨⟨offer', heq, hsaturates'⟩, hrest⟩ := hsaturates h₁ hstep
    obtain rfl := EvolutionOp.offer.inj heq
    rw [History.step, CoresetEvolution.offer_of_saturates hcfg hsaturates'] at hstep
    obtain rfl := Option.some.inj hstep
    exact ih hcfg hcalls hrest

/-- Wherever one frame saturates, it can be offered as often as the window asks for. -/
theorem matureRun_replicate (hcfg : cfg.coverageThreshold ≤ cfg.coverageSaturationThreshold)
    (hrun : run (History.step engine) (.start cfg bank profile) ops = some h) {offer : Offer F}
    (hsaturates : h.state.Saturates offer) :
    MatureRun engine cfg bank profile ops (List.replicate cfg.saturationWindow offer) h h := by
  have hstep : h.step engine (.offer offer) = some h := by
    rw [History.step, CoresetEvolution.offer_of_saturates
      ((not_paused_of_run hcfg hrun).1 ▸ hcfg) hsaturates]
    rfl
  have hcalls : ∀ n, run (History.step engine) h ((List.replicate n offer).map .offer) = some h ∧
      Along (History.step engine)
        (fun h op _ => ∃ offer, op = .offer offer ∧ h.state.Saturates offer) h
        ((List.replicate n offer).map .offer) := by
    intro n
    induction n with
    | zero => exact ⟨rfl, trivial⟩
    | succ n ih =>
      rw [List.replicate_succ, List.map_cons, run_cons, hstep]
      refine ⟨ih.1, fun h' hh' => ?_⟩
      obtain rfl := Option.some.inj (hstep.symm.trans hh')
      exact ⟨⟨offer, rfl, hsaturates⟩, ih.2⟩
  exact ⟨hrun, (hcalls _).1, List.length_replicate, (hcalls _).2⟩

/-- With the coverage threshold at most the saturation threshold no run ever pauses: the frames
that should lead to a pause change nothing at all. -/
theorem mature_bank_never_pauses (hcfg : cfg.coverageThreshold ≤ cfg.coverageSaturationThreshold)
    (hmature : MatureRun engine cfg bank profile ops offers h h') :
    ¬h'.state.evolutionPaused = true ∧ h' = h := by
  obtain ⟨hcfg', hpaused⟩ := not_paused_of_run hcfg hmature.before
  have heq := eq_of_saturated_run (hcfg' ▸ hcfg) hmature.calls hmature.saturates
  rw [heq, hpaused]
  exact ⟨Bool.false_ne_true, rfl⟩

end Pause

/-! ### The default thresholds -/

/-- The configuration with its default values, switched on. -/
def enabledConfig : EvolutionConfig ℚ :=
  { (EvolutionSettings.default : EvolutionSettings ℚ).toEvolutionConfig with enabled := true }

/-- The profile of a bank whose vectors are one apart. -/
def unitProfile : NormalityProfile ℚ := ⟨5, 1, 100, 1, 1, 1, 1, 0, 1⟩

/-- A normal frame of one patch that the bank holds. -/
def coveredFrame : Offer ℚ :=
  ⟨[0], 1, some [0], 1, 1, 1, .default, 0, "OK", 1, 0, 0⟩

theorem saturates_coveredFrame :
    (History.start enabledConfig none unitProfile).state.Saturates coveredFrame :=
  ⟨⟨[0], rfl, rfl, by decide, by decide, by decide, by decide +kernel⟩, by decide +kernel⟩

/-- Ten covered frames in a row do not pause the evolution at the default thresholds. -/
theorem covered_frames_do_not_pause :
    MatureRun flatL2 enabledConfig none unitProfile [] (List.replicate 10 coveredFrame)
      (.start enabledConfig none unitProfile) (.start enabledConfig none unitProfile) ∧
    enabledConfig.coverageThreshold ≤ enabledConfig.coverageSaturationThreshold ∧
    (History.start enabledConfig none unitProfile).state.evolutionPaused = false :=
  ⟨matureRun_replicate (by decide +kernel) rfl saturates_coveredFrame, by decide +kernel, rfl⟩

theorem mature_bank_never_pauses_default :
    ¬(History.start enabledConfig none unitProfile).state.evolutionPaused = true := by
  have hrun : run (History.step flatL2) (.start enabledConfig none unitProfile) [] =
      some (.start enabledConfig none unitProfile) := rfl
  have hmature := matureRun_replicate (by decide +kernel) hrun saturates_coveredFrame
  exact (mature_bank_never_pauses (by decide +kernel) hmature).1

end SurfaceAi.Detection
