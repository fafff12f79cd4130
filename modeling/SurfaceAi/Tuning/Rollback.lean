import SurfaceAi.Tuning.TuningScheduler

/-! What a successful rollback restores. It writes the parameters that the scheduler held to be
current when it applied the new ones; the live configuration is what it was before only if those
parameters agree with it, and the new ones agree with it where they end. -/

namespace SurfaceAi.Tuning

section Applier

variable {F : Type*} {names : List String} {live live' : String → F} {params : List F}

/-- The names that a parameter vector has a value for. -/
def covered (names : List String) (params : List F) : List String :=
  (names.zip params).map Prod.fst

theorem covered_subset : covered names params ⊆ names := by
  intro name h
  obtain ⟨entry, hentry, rfl⟩ := List.mem_map.mp h
  exact (List.of_mem_zip hentry).1

theorem writeParams_of_mem {name : String} (h : name ∈ covered names params) :
    writeParams names live params name = writeParams names live' params name :=
  Writes.writes_of_mem h

theorem writeParams_of_notMem {name : String} (h : name ∉ covered names params) :
    writeParams names live params name = live name :=
  Writes.writes_of_notMem h

/-- Attempts that fail may have written the old parameters already. -/
theorem retryRollback_eq {outcomes : ℕ → ApplyOutcome} {attempts : ℕ}
    (h : (retryRollback names params outcomes attempts live).1 = true) :
    (retryRollback names params outcomes attempts live).2 = writeParams names live params := by
  induction attempts generalizing live with
  | zero => cases h
  | succ left ih =>
    cases houtcome : outcomes left with
    | applied => simp [retryRollback, applyParams, houtcome]
    | loadFailed =>
      simp only [retryRollback, applyParams, houtcome] at h ⊢
      exact ih h
    | reloadFailed =>
      simp only [retryRollback, applyParams, houtcome] at h ⊢
      rw [ih h]
      exact Writes.writes_writes

end Applier

/-- The new parameters and the old ones, between the call of the applier and the end of the
cycle. -/
def Phase.pending {F : Type*} : Phase F → Option (OptimizationPoint F × List F)
  | .monitoring best old => some (best, old)
  | .rollingBack best old _ => some (best, old)
  | _ => none

namespace SchedulerState

section Recorded

variable {F : Type*} {cfg : SchedulerConfig F} {s : SchedulerState F}

/-- While parameters are pending, the live configuration is the one before them, with the new
parameters written to it if the applier got that far. -/
def Recorded (s : SchedulerState F) : Prop :=
  ∀ best old, s.phase.pending = some (best, old) →
    s.live = if s.written then writeParams s.paramNames s.before best.params else s.before

theorem recorded_of_pending_none (h : s.phase.pending = none) : s.Recorded := by
  intro best old hpending
  rw [h] at hpending
  cases hpending

theorem recorded_afterApply (best : OptimizationPoint F) (outcome : ApplyOutcome) :
    (s.afterApply cfg best outcome).Recorded := by
  intro best' old hpending
  unfold afterApply at hpending ⊢
  split at hpending
  · next hset =>
    cases outcome <;> cases hpending <;> simp [hset, applyParams, paramNames]
  · next hset =>
    cases hpending
    simp [hset]

/-- Writing the old parameters to the configuration before the cycle changes nothing, and where
they have no value, the new ones, if they were written, change nothing either. -/
def Recoverable (s : SchedulerState F) (best : OptimizationPoint F) (old : List F) : Prop :=
  (∀ name ∈ covered s.paramNames old, writeParams s.paramNames s.before old name = s.before name) ∧
    (s.written = true → ∀ name ∈ s.paramNames, name ∉ covered s.paramNames old →
      writeParams s.paramNames s.before best.params name = s.before name)

end Recorded

variable {F : Type*} [Zero F] [One F] [Add F] [Sub F] [Neg F] [Mul F] [Div F] [NatCast F]
variable [LT F] [DecidableLT F] [LE F] [DecidableLE F] [TuningMath F]
variable {cfg : SchedulerConfig F} {s s' : SchedulerState F}

omit [One F] [Add F] [Sub F] [Neg F] [LT F] [DecidableLT F] [TuningMath F] in
theorem recorded_afterOptimize
    (out : Option (Result (OptimizationPoint F) × BayesianOptimizer.Search F)) :
    (s.afterOptimize out).Recorded := by
  apply recorded_of_pending_none
  unfold afterOptimize
  split
  · rfl
  · next result search =>
    cases result with
    | error => rfl
    | ok best =>
      show (if s.improves best then Phase.applying best else .waiting).pending = none
      split <;> rfl

theorem Recorded.step {a : Action F} (h : s.Recorded) (hs : step cfg s a = some s') :
    s'.Recorded := by
  cases stepTo_of_step hs with
  | evaluated => exact recorded_of_pending_none rfl
  | failed => exact h
  | optimized => exact recorded_afterOptimize _
  | applied => exact recorded_afterApply _ _
  | tripped hphase =>
    have hlive := h _ _ (by rw [hphase]; rfl)
    intro best' old' hpending
    cases hpending
    exact hlive
  | polled => exact h
  | committed => exact recorded_of_pending_none rfl
  | rolledBack => exact recorded_of_pending_none rfl
  | stopped => exact recorded_of_pending_none rfl

/-- A successful rollback restores the live parameters exactly if the parameters the scheduler
held to be current were the live ones. -/
theorem rollback_restores_iff {optimizer : BayesianOptimizer F} {live : String → F}
    (hs : Transition.Reachable (step cfg) (fun _ _ => True) (fresh optimizer live) s)
    {best : OptimizationPoint F} {old : List F} {applied : Bool} {outcomes : ℕ → ApplyOutcome}
    (hphase : s.phase = .rollingBack best old applied)
    (hstep : step cfg s (.rollback outcomes) = some s')
    (hok : s.rollbackSucceeds cfg old outcomes = true) :
    (∀ name ∈ s.paramNames, s'.live name = s.before name) ↔ s.Recoverable best old := by
  have hrecorded : s.Recorded := by
    refine hs.invariant (P := Recorded) (recorded_of_pending_none rfl) ?_
    intro s a s' h _ hs
    exact h.step hs
  have hlive := hrecorded best old (by rw [hphase]; rfl)
  obtain ⟨hset, hretry⟩ := Bool.and_eq_true_iff.mp hok
  have hafter : s'.live = writeParams s.paramNames s.live old := by
    simp only [step, hphase] at hstep
    cases hstep
    show (if cfg.applierSet then _ else _) = _
    rw [if_pos hset, retryRollback_eq hretry]
  have hcovered : ∀ name ∈ covered s.paramNames old,
      s'.live name = writeParams s.paramNames s.before old name := by
    intro name hname
    rw [hafter, writeParams_of_mem hname]
  have hrest : ∀ name ∉ covered s.paramNames old, s'.live name =
      if s.written then writeParams s.paramNames s.before best.params name else s.before name := by
    intro name hname
    rw [hafter, writeParams_of_notMem hname, hlive]
    split <;> rfl
  constructor
  · intro h
    refine ⟨fun name hname => ?_, fun hwritten name hname hnot => ?_⟩
    · rw [← hcovered name hname]
      exact h name (covered_subset hname)
    · have hvalue := hrest name hnot
      rw [if_pos hwritten] at hvalue
      rw [← hvalue]
      exact h name hname
  · rintro ⟨hold, hnew⟩ name hname
    by_cases hmem : name ∈ covered s.paramNames old
    · rw [hcovered name hmem]
      exact hold name hmem
    · rw [hrest name hmem]
      split
      · next hwritten => exact hnew hwritten name hname hmem
      · rfl

/-- In the second cycle the scheduler holds the live parameters, and the rollback restores
them. -/
theorem rollback_restores_second_cycle :
    ∃ s s', Transition.Reachable (step thresholdScheduler) (fun _ _ => True)
        (fresh thresholdOptimizer fun _ => 7 / 10) s ∧
      step thresholdScheduler s (.rollback fun _ => .applied) = some s' ∧
        ∀ name ∈ s.paramNames, s'.live name = s.before name := by
  have hrun : ((Transition.run (fun s a => if True then step thresholdScheduler s a else none)
      (fresh thresholdOptimizer fun _ => 7 / 10)
      (proposeThreshold ++ [.apply .applied, .windowOver] ++ proposeThreshold ++ applyAndTrip)).bind
      fun s => (step thresholdScheduler s (.rollback fun _ => .applied)).map fun _ =>
        (s.phase.pending, s.written, s.paramNames, s.before "verdict_mapping.ng_threshold")) =
      some (some (⟨[3 / 5], 1 / 2⟩, [3 / 5]), true, ["verdict_mapping.ng_threshold"], 3 / 5) := by
    decide +kernel
  obtain ⟨s, hs, hmap⟩ := Option.bind_eq_some_iff.mp hrun
  obtain ⟨s', hstep, hfacts⟩ := Option.map_eq_some_iff.mp hmap
  simp only [Prod.mk.injEq] at hfacts
  obtain ⟨hpending, hwritten, hnames, hbefore⟩ := hfacts
  have hreach := Transition.Reachable.of_run _ _ hs
  obtain ⟨best, old, applied, hphase⟩ := phase_of_rollback hstep
  rw [hphase] at hpending
  cases hpending
  refine ⟨s, s', hreach, hstep, (rollback_restores_iff hreach hphase hstep rfl).mpr ?_⟩
  constructor
  · intro name hname
    rw [hnames] at hname ⊢
    simp [covered] at hname
    rw [hname, hbefore]
    simp [writeParams, Writes.writes]
  · intro _ name hname hnot
    rw [hnames] at hname hnot
    simp [covered] at hname hnot
    exact absurd hname hnot

/-- In the first cycle the scheduler holds no parameters: the rollback succeeds, and the
parameters that tripped the circuit breaker stay in force. -/
theorem first_rollback_restores_nothing :
    ¬ ∀ (cfg : SchedulerConfig ℚ) (optimizer : BayesianOptimizer ℚ) (live : String → ℚ)
        (s s' : SchedulerState ℚ) (best : OptimizationPoint ℚ) (old : List ℚ) (applied : Bool)
        (outcomes : ℕ → ApplyOutcome),
      Transition.Reachable (step cfg) (fun _ _ => True) (fresh optimizer live) s →
        s.phase = .rollingBack best old applied → step cfg s (.rollback outcomes) = some s' →
          s.rollbackSucceeds cfg old outcomes = true →
            ∀ name ∈ s.paramNames, s'.live name = s.before name := by
  intro h
  have hrun : ((Transition.run (fun s a => if True then step thresholdScheduler s a else none)
      (fresh thresholdOptimizer fun _ => 7 / 10) (proposeThreshold ++ applyAndTrip)).bind
      fun s => (step thresholdScheduler s (.rollback fun _ => .applied)).map fun s' =>
        (s.paramNames, s.before "verdict_mapping.ng_threshold",
          s'.live "verdict_mapping.ng_threshold")) =
      some (["verdict_mapping.ng_threshold"], 7 / 10, 3 / 5) := by
    decide +kernel
  obtain ⟨s, hs, hmap⟩ := Option.bind_eq_some_iff.mp hrun
  obtain ⟨s', hstep, hfacts⟩ := Option.map_eq_some_iff.mp hmap
  simp only [Prod.mk.injEq] at hfacts
  obtain ⟨hnames, hbefore, hlive⟩ := hfacts
  obtain ⟨best, old, applied, hphase⟩ := phase_of_rollback hstep
  have hrestored := h thresholdScheduler thresholdOptimizer (fun _ => 7 / 10) s s' best old applied
    (fun _ => .applied) (Transition.Reachable.of_run _ _ hs) hphase hstep rfl
    "verdict_mapping.ng_threshold" (by simp [hnames])
  rw [hlive, hbefore] at hrestored
  exact absurd hrestored (by decide +kernel)

end SchedulerState

end SurfaceAi.Tuning
