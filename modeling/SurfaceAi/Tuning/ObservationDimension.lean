import SurfaceAi.Tuning.Proposals

/-! The lengths of the stored observations. A scheduler starts without parameters, and the first
evaluation that succeeds stores them as an observation; the optimiser then compares vectors of
two lengths. -/

namespace SurfaceAi.Tuning

namespace SchedulerState

variable {F : Type*} [Zero F] [One F] [Add F] [Sub F] [Neg F] [Mul F] [Div F] [NatCast F]
variable [LT F] [DecidableLT F] [LE F] [DecidableLE F] [TuningMath F]
variable {cfg : SchedulerConfig F} {s s' : SchedulerState F} {a : Action F}

/-- Observations are never removed. -/
theorem observations_prefix_of_step (hs : step cfg s a = some s') :
    s.optimizer.observations <+: s'.optimizer.observations := by
  cases stepTo_of_step hs with
  | evaluated => exact List.prefix_append _ _
  | optimized =>
    cases hout : s.optimizer.optimize _ _ with
    | none => exact List.prefix_rfl
    | some out => exact (BayesianOptimizer.optimize_grows hout).observations
  | @applied best outcome =>
    have hsame := congrArg BayesianOptimizer.observations (optimizer_afterApply cfg s best outcome)
    exact hsame.symm ▸ List.prefix_rfl
  | failed | tripped | polled | committed | rolledBack | stopped => exact List.prefix_rfl

/-- No evaluation has succeeded yet. -/
structure Idle (optimizer : BayesianOptimizer F) (s : SchedulerState F) : Prop where
  phase : s.phase = .waiting ∨ s.phase = .exited
  currentParams : s.currentParams = []
  optimizer : s.optimizer = optimizer

variable {optimizer : BayesianOptimizer F} {live : String → F}

/-- An idle scheduler stays idle, or its empty parameters become an observation. -/
theorem Idle.step (h : s.Idle optimizer) (hs : step cfg s a = some s') :
    (s'.Idle optimizer ∧ ∀ cost, a ≠ .evaluate (.ok cost)) ∨
      ∃ cost, a = .evaluate (.ok cost) ∧ ⟨[], cost⟩ ∈ s'.optimizer.observations := by
  obtain ⟨hphase, hparams, hopt⟩ := h
  cases stepTo_of_step hs with
  | @evaluated cost =>
    right
    refine ⟨cost, rfl, ?_⟩
    rw [hparams]
    exact List.mem_append_right _ List.mem_cons_self
  | failed => exact .inl ⟨⟨hphase, hparams, hopt⟩, by simp⟩
  | stopped => exact .inl ⟨⟨.inr rfl, hparams, hopt⟩, by simp⟩
  | optimized hother | applied hother | tripped hother | polled hother | committed hother
  | rolledBack hother => rcases hphase with hphase | hphase <;> rw [hphase] at hother <;> cases hother

/-- Along a run the scheduler is idle up to the first evaluation that succeeds, and has an empty
observation from then on. -/
theorem idle_or_empty_observation {actions : List (Action F)}
    (hrun : Transition.run (step cfg) (fresh optimizer live) actions = some s) :
    (s.Idle optimizer ∧ ∀ cost, .evaluate (.ok cost) ∉ actions) ∨
      ∃ cost cost', .evaluate (.ok cost) ∈ actions ∧ ⟨[], cost'⟩ ∈ s.optimizer.observations := by
  refine Transition.run_induction (step cfg)
    (P := fun actions s => (s.Idle optimizer ∧ ∀ cost, .evaluate (.ok cost) ∉ actions) ∨
      ∃ cost cost', .evaluate (.ok cost) ∈ actions ∧ ⟨[], cost'⟩ ∈ s.optimizer.observations)
    (.inl ⟨⟨.inl rfl, rfl, rfl⟩, by simp⟩) ?_ hrun
  rintro actions s a s' (⟨hidle, hnone⟩ | ⟨cost, cost', hmem, hempty⟩) hs
  · rcases hidle.step hs with ⟨hidle', hother⟩ | ⟨cost, rfl, hempty⟩
    · left
      refine ⟨hidle', fun cost hmem => ?_⟩
      rcases List.mem_append.mp hmem with hmem | hmem
      · exact hnone cost hmem
      · exact hother cost (List.mem_singleton.mp hmem).symm
    · exact .inr ⟨cost, cost, by simp, hempty⟩
  · right
    refine ⟨cost, cost', List.mem_append_left _ hmem, ?_⟩
    exact (observations_prefix_of_step hs).subset hempty

/-- In a run from a fresh scheduler all observations have the dimension of the space, and no
distance reads past the end of a vector, exactly if no evaluation of the current parameters has
succeeded. -/
theorem observations_have_dimension_iff {actions : List (Action F)}
    (hdim : 0 < optimizer.space.dimension)
    (hobs : optimizer.HasDimension optimizer.space.dimension)
    (hrun : Transition.run (step cfg) (fresh optimizer live) actions = some s) :
    (s.phase ≠ .undefined ∧ s.optimizer.HasDimension optimizer.space.dimension) ↔
      ∀ cost, .evaluate (.ok cost) ∉ actions := by
  rcases idle_or_empty_observation hrun with ⟨hidle, hnone⟩ | ⟨cost, cost', hmem, hempty⟩
  · refine iff_of_true ⟨fun hundefined => ?_, ?_⟩ hnone
    · rcases hidle.phase with hphase | hphase <;> rw [hphase] at hundefined <;> cases hundefined
    · rw [hidle.optimizer]
      exact hobs
  · refine iff_of_false (fun h => ?_) fun h => h cost hmem
    have hzero := h.2 _ hempty
    simp only [List.length_nil] at hzero
    omega

omit [One F] [Neg F] [NatCast F] [LE F] [DecidableLE F] in
theorem proposable_length (space : TuningSpace F) (draws : Draws F) :
    BayesianOptimizer.Proposable space draws fun x => x.length = space.dimension where
  length _ h := h
  clamp _ h := TuningSpace.length_clampToBounds h
  sample k := by simp [TuningSpace.randomFeasiblePoint, TuningSpace.dimension]

/-- The empty parameters are the only source of short observations: where evaluations succeed for
full parameters only, all observations have the dimension of the space, and all distances are
defined. -/
theorem defined_of_full_params {space : TuningSpace F} {config : OptimizerConfig F}
    {params : List F}
    (hs : Transition.Reachable (step cfg)
      (fun s a => ∀ cost, a = .evaluate (.ok cost) → s.currentParams.length = space.dimension)
      (start (.create space config) params live) s) :
    s.phase ≠ .undefined ∧ s.optimizer.HasDimension space.dimension := by
  have h : s.Proposing (fun x => x.length = space.dimension) space := by
    refine proposing_of_reachable (fun s a hspace hfull => ?_) hs
    subst hspace
    cases a with
    | evaluate result =>
      cases result with
      | ok cost => exact hfull cost rfl
      | error e => trivial
    | optimize objective draws => exact proposable_length _ draws
    | apply | poll | windowOver | rollback | stop => trivial
  exact ⟨h.defined, h.observations⟩

/-- The feedback cannot be queried. -/
def queryFailed : Action ℚ :=
  .evaluate (fail .tuningObjectiveEvalFailed
    "Failed to query GroundTruth nodes from knowledge graph")

theorem observations_have_dimension_while_failing :
    ∃ s, Transition.run (step thresholdScheduler) (fresh thresholdOptimizer fun _ => 7 / 10)
        [queryFailed, queryFailed, .stop] = some s ∧
      s.phase ≠ .undefined ∧ s.optimizer.HasDimension 1 := by
  have hrun : ∃ s, Transition.run (step thresholdScheduler)
      (fresh thresholdOptimizer fun _ => 7 / 10) [queryFailed, queryFailed, .stop] = some s :=
    ⟨_, rfl⟩
  obtain ⟨s, hs⟩ := hrun
  have hobs : thresholdOptimizer.HasDimension thresholdOptimizer.space.dimension :=
    BayesianOptimizer.hasDimension_create _ _ _
  exact ⟨s, hs, (observations_have_dimension_iff (by decide) hobs hs).mpr
    (by simp [queryFailed, fail])⟩

theorem first_observation_is_empty :
    ¬ ∀ (cfg : SchedulerConfig ℚ) (optimizer : BayesianOptimizer ℚ) (live : String → ℚ)
        (actions : List (Action ℚ)) (s : SchedulerState ℚ), 0 < optimizer.space.dimension →
      optimizer.HasDimension optimizer.space.dimension →
        Transition.run (step cfg) (fresh optimizer live) actions = some s →
          s.optimizer.HasDimension optimizer.space.dimension := by
  intro h
  have hrun : (Transition.run (step thresholdScheduler) (fresh thresholdOptimizer fun _ => 7 / 10)
      [.evaluate (.ok 1)]).map (fun s => s.optimizer.observations) = some [⟨[], 1⟩] := by
    decide +kernel
  obtain ⟨s, hs, hobs⟩ := Option.map_eq_some_iff.mp hrun
  have hfull := h _ _ _ _ s (by decide)
    (BayesianOptimizer.hasDimension_create _ _ _) hs ⟨[], 1⟩ (by simp [hobs])
  exact absurd hfull (by decide)

end SchedulerState

end SurfaceAi.Tuning
