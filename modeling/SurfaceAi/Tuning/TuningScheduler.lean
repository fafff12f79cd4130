import Mathlib.Algebra.Field.Rat
import Mathlib.Algebra.Order.Field.Basic
import Mathlib.Algebra.Order.Ring.Rat
import SurfaceAi.Library.Transition
import SurfaceAi.Library.KeyedFold
import SurfaceAi.Tuning.BayesianOptimizer

/-! The tuning loop as a transition system: what the objective, the optimiser's draws, the
applier and the poller of the rejection rate return are the actions. The live configuration
holds the values of the decision tree by parameter name; the applier is the one that writes
them. -/

namespace SurfaceAi.Tuning

open Detection (ratio)

structure MetricsSnapshot (F : Type*) where
  ngRate : F
  sampleCount : ℕ

/-- The safety bounds, and whether the callbacks are set. -/
structure SchedulerConfig (F : Type*) where
  minNgRate : F
  maxNgRate : F
  minSamplesForTrigger : ℕ
  applierSet : Bool
  pollerSet : Bool

/-- How a call of the applier ends: the tree cannot be read, the tree that was written is
rejected when it is reloaded, or it is in force. -/
inductive ApplyOutcome where
  | loadFailed | reloadFailed | applied
  deriving DecidableEq, Repr

section Applier

variable {F : Type*} (names : List String) (live : String → F) (params : List F)

/-- The applier sets value `i` for each `i` below the number of parameters. -/
def writeParams : String → F := Writes.writes live (names.zip params)

/-- Whether the call succeeds, and the live configuration after it. -/
def applyParams : ApplyOutcome → Bool × (String → F)
  | .loadFailed => (false, live)
  | .reloadFailed => (false, writeParams names live params)
  | .applied => (true, writeParams names live params)

/-- `RetryRollback` with some attempts left. -/
def retryRollback (outcomes : ℕ → ApplyOutcome) : ℕ → (String → F) → Bool × (String → F)
  | 0, live => (false, live)
  | left + 1, live =>
    match applyParams names live params (outcomes left) with
    | (true, live') => (true, live')
    | (false, live') => retryRollback outcomes left live'

end Applier

/-- Where the main loop is. The parameters found and the old ones are kept while the loop
monitors or rolls back; `applied` tells whether the new ones had been put in force. -/
inductive Phase (F : Type*) where
  | waiting
  | optimizing
  | applying (best : OptimizationPoint F)
  | monitoring (best : OptimizationPoint F) (old : List F)
  | rollingBack (best : OptimizationPoint F) (old : List F) (applied : Bool)
  | undefined
  | exited

/-- `before` is the live configuration when the applier was last called with new parameters,
`written` tells whether that call wrote them, and `proposed` are all points that `Optimize` has
evaluated or returned. None of these is data of the code. -/
structure SchedulerState (F : Type*) where
  phase : Phase F
  currentParams : List F
  currentCost : F
  optimizer : BayesianOptimizer F
  live : String → F
  before : String → F
  written : Bool
  proposed : List (List F)

inductive Action (F : Type*) where
  | evaluate (result : Result F)
  | optimize (objective : TuningObjective F) (draws : Draws F)
  | apply (outcome : ApplyOutcome)
  | poll (result : Result (MetricsSnapshot F))
  | windowOver
  | rollback (outcomes : ℕ → ApplyOutcome)
  | stop

/-- The params of the point that is returned, if one is. -/
def returned {F : Type*} : Result (OptimizationPoint F) → List (List F)
  | .ok best => [best.params]
  | .error _ => []

namespace SchedulerState

section State

variable {F : Type*} [Zero F]

/-- A scheduler whose `current_params_` are given; the constructor leaves them empty. -/
def start (optimizer : BayesianOptimizer F) (params : List F) (live : String → F) :
    SchedulerState F :=
  ⟨.waiting, params, 0, optimizer, live, live, false, []⟩

def fresh (optimizer : BayesianOptimizer F) (live : String → F) : SchedulerState F :=
  start optimizer [] live

omit [Zero F]

variable (cfg : SchedulerConfig F) (s : SchedulerState F)

def paramNames : List String := s.optimizer.space.parameters.map TuningParameter.name

/-- Whether the rollback calls the applier with success. -/
def rollbackSucceeds (old : List F) (outcomes : ℕ → ApplyOutcome) : Bool :=
  cfg.applierSet && (retryRollback s.paramNames old outcomes 3 s.live).1

/-- The state once the new parameters have been handed to the applier. -/
def afterApply (best : OptimizationPoint F) (outcome : ApplyOutcome) : SchedulerState F :=
  if cfg.applierSet then
    match applyParams s.paramNames s.live best.params outcome with
    | (true, live) =>
      { s with
        phase := .monitoring best s.currentParams
        currentParams := best.params
        live := live
        before := s.live
        written := true }
    | (false, live) =>
      { s with
        phase := .rollingBack best s.currentParams false
        live := live
        before := s.live
        written := outcome = .reloadFailed }
  else
    { s with
      phase := .monitoring best s.currentParams
      currentParams := best.params
      before := s.live
      written := false }

/-- The state once the rollback is over. Parameters that had been put in force are current no
longer, whether or not it succeeded. -/
def afterRollback (old : List F) (applied : Bool) (outcomes : ℕ → ApplyOutcome) :
    SchedulerState F :=
  { s with
    phase := .waiting
    currentParams := if applied then old else s.currentParams
    live := if cfg.applierSet then (retryRollback s.paramNames old outcomes 3 s.live).2 else s.live }

/-- The applier does not reach the optimiser. -/
@[simp] theorem optimizer_afterApply (best : OptimizationPoint F) (outcome : ApplyOutcome) :
    (s.afterApply cfg best outcome).optimizer = s.optimizer := by
  unfold afterApply
  split
  · split <;> rfl
  · rfl

end State

variable {F : Type*} [Zero F] [One F] [Add F] [Sub F] [Neg F] [Mul F] [Div F] [NatCast F]
variable [LT F] [DecidableLT F] [LE F] [DecidableLE F] [TuningMath F]
variable (cfg : SchedulerConfig F) (s : SchedulerState F)

/-- The check for a significant improvement is skipped when the current cost is not positive. -/
def improves (best : OptimizationPoint F) : Bool :=
  s.currentCost ≤ 0 || !decide (s.currentCost * ratio 95 100 ≤ best.cost)

/-- Whether a poll of the rejection rate trips the circuit breaker. -/
def trips : Result (MetricsSnapshot F) → Bool
  | .ok snapshot => cfg.pollerSet && decide (cfg.minSamplesForTrigger ≤ snapshot.sampleCount) &&
      (decide (snapshot.ngRate < cfg.minNgRate) || decide (cfg.maxNgRate < snapshot.ngRate))
  | .error _ => false

/-- The state once `Optimize` is done. -/
def afterOptimize : Option (Result (OptimizationPoint F) × BayesianOptimizer.Search F) →
    SchedulerState F
  | none => { s with phase := .undefined }
  | some (result, search) =>
    { s with
      phase := match result with
        | .ok best => if s.improves best then .applying best else .waiting
        | .error _ => .waiting
      optimizer := search.optimizer
      proposed := s.proposed ++ search.evaluated ++ returned result }

def step : Action F → Option (SchedulerState F)
  | .evaluate result =>
    match s.phase, result with
    | .waiting, .ok cost => some { s with
        phase := .optimizing
        currentCost := cost
        optimizer := s.optimizer.addObservation ⟨s.currentParams, cost⟩ }
    | .waiting, .error _ => some s
    | _, _ => none
  | .optimize objective draws =>
    match s.phase with
    | .optimizing => some (s.afterOptimize (s.optimizer.optimize objective draws))
    | _ => none
  | .apply outcome =>
    match s.phase with
    | .applying best => some (s.afterApply cfg best outcome)
    | _ => none
  | .poll result =>
    match s.phase with
    | .monitoring best old =>
      some (if trips cfg result then { s with phase := .rollingBack best old true } else s)
    | _ => none
  | .windowOver =>
    match s.phase with
    | .monitoring _ _ => some { s with phase := .waiting }
    | _ => none
  | .rollback outcomes =>
    match s.phase with
    | .rollingBack _ old applied => some (s.afterRollback cfg old applied outcomes)
    | _ => none
  | .stop =>
    match s.phase with
    | .waiting | .monitoring _ _ => some { s with phase := .exited }
    | _ => none

/-- What a step does, and the phase it does it in. -/
inductive StepTo : Action F → SchedulerState F → Prop where
  | evaluated {cost : F} (hphase : s.phase = .waiting) : StepTo (.evaluate (.ok cost)) { s with
      phase := .optimizing
      currentCost := cost
      optimizer := s.optimizer.addObservation ⟨s.currentParams, cost⟩ }
  | failed {e : ErrorInfo} (hphase : s.phase = .waiting) : StepTo (.evaluate (.error e)) s
  | optimized {objective : TuningObjective F} {draws : Draws F} (hphase : s.phase = .optimizing) :
      StepTo (.optimize objective draws)
        (s.afterOptimize (s.optimizer.optimize objective draws))
  | applied {best : OptimizationPoint F} {outcome : ApplyOutcome}
      (hphase : s.phase = .applying best) : StepTo (.apply outcome) (s.afterApply cfg best outcome)
  | tripped {best : OptimizationPoint F} {old : List F} {result : Result (MetricsSnapshot F)}
      (hphase : s.phase = .monitoring best old) (htrips : trips cfg result = true) :
      StepTo (.poll result) { s with phase := .rollingBack best old true }
  | polled {best : OptimizationPoint F} {old : List F} {result : Result (MetricsSnapshot F)}
      (hphase : s.phase = .monitoring best old) (htrips : trips cfg result = false) :
      StepTo (.poll result) s
  | committed {best : OptimizationPoint F} {old : List F}
      (hphase : s.phase = .monitoring best old) : StepTo .windowOver { s with phase := .waiting }
  | rolledBack {best : OptimizationPoint F} {old : List F} {applied : Bool}
      {outcomes : ℕ → ApplyOutcome} (hphase : s.phase = .rollingBack best old applied) :
      StepTo (.rollback outcomes) (s.afterRollback cfg old applied outcomes)
  | stopped (hphase : s.phase = .waiting ∨ ∃ best old, s.phase = .monitoring best old) :
      StepTo .stop { s with phase := .exited }

variable {cfg s} in
/-- The inversion of a step; what follows is by cases on it. -/
theorem stepTo_of_step {s' : SchedulerState F} {a : Action F} (h : step cfg s a = some s') :
    s.StepTo cfg a s' := by
  cases a with
  | evaluate result =>
    simp only [step] at h
    split at h <;> cases h
    · next hphase => exact .evaluated hphase
    · next hphase => exact .failed hphase
  | optimize objective draws =>
    simp only [step] at h
    split at h <;> cases h
    next hphase => exact .optimized hphase
  | apply outcome =>
    simp only [step] at h
    split at h <;> cases h
    next hphase => exact .applied hphase
  | poll result =>
    simp only [step] at h
    split at h <;> cases h
    next hphase =>
    cases htrips : trips cfg result with
    | true => exact .tripped hphase htrips
    | false => exact .polled hphase htrips
  | windowOver =>
    simp only [step] at h
    split at h <;> cases h
    next hphase => exact .committed hphase
  | rollback outcomes =>
    simp only [step] at h
    split at h <;> cases h
    next hphase => exact .rolledBack hphase
  | stop =>
    simp only [step] at h
    split at h <;> cases h
    · next hphase => exact .stopped (.inl hphase)
    · next hphase => exact .stopped (.inr ⟨_, _, hphase⟩)

variable {cfg s} in
/-- Only a rollback that is under way has such a step. -/
theorem phase_of_rollback {s' : SchedulerState F} {outcomes : ℕ → ApplyOutcome}
    (h : step cfg s (.rollback outcomes) = some s') :
    ∃ best old applied, s.phase = .rollingBack best old applied := by
  cases stepTo_of_step h with
  | rolledBack hphase => exact ⟨_, _, _, hphase⟩

end SchedulerState

/-! ### One threshold -/

/-- The threshold of the verdict, between its bounds. -/
def thresholdSpace : TuningSpace ℚ where
  parameters := [⟨"verdict_mapping.ng_threshold", .continuous, 1 / 2, 9 / 10, 0⟩]
  constraints := []

/-- No iterations: the best of the observations and one random point. -/
def thresholdOptimizer : BayesianOptimizer ℚ :=
  .create thresholdSpace ⟨0, 2, 1 / 100, 1, 1 / 2, 1 / 1000000, 10, 100, 1 / 100000, 1 / 1000000, 3⟩

/-- The default safety bounds. -/
def thresholdScheduler : SchedulerConfig ℚ where
  minNgRate := 1 / 1000
  maxNgRate := 1 / 2
  minSamplesForTrigger := 50
  applierSet := true
  pollerSet := true

/-- A cycle up to the applier: the current parameters cost one, and the random point half. -/
def proposeThreshold : List (Action ℚ) :=
  [.evaluate (.ok 1), .optimize (fun _ _ => .ok (1 / 2)) (fun _ _ => 3 / 5)]

/-- The new parameters are put in force, and the rejection rate trips the circuit breaker. -/
def applyAndTrip : List (Action ℚ) := [.apply .applied, .poll (.ok ⟨3 / 5, 100⟩)]

end SurfaceAi.Tuning
