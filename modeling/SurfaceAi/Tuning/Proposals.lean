import Mathlib.Order.Defs.LinearOrder
import SurfaceAi.Tuning.TuningScheduler

/-! Which points the optimiser proposes. Neither sampling nor clamping looks at the linear
constraints, and a grid may miss the upper bound; what is added from outside is not checked at
all. The proposals are feasible as far as clamped points and added observations are. -/

namespace SurfaceAi.Tuning

open BayesianOptimizer (Proposable)

/-- An optimiser with all points it has evaluated or returned. -/
structure Client (F : Type*) where
  optimizer : BayesianOptimizer F
  proposed : List (List F)

inductive ClientCall (F : Type*) where
  | addObservation (point : OptimizationPoint F)
  | optimize (objective : TuningObjective F) (draws : Draws F)

section Model

variable {F : Type*} [Zero F] [One F] [Add F] [Sub F] [Neg F] [Mul F] [Div F] [NatCast F]
variable [LT F] [DecidableLT F] [LE F] [DecidableLE F] [TuningMath F]

/-- A call of the optimiser by its owner. -/
def Client.step (c : Client F) : ClientCall F → Option (Client F)
  | .addObservation point => some { c with optimizer := c.optimizer.addObservation point }
  | .optimize objective draws =>
    (c.optimizer.optimize objective draws).map fun (result, search) =>
      ⟨search.optimizer, c.proposed ++ search.evaluated ++ returned result⟩

/-- What is added is feasible; what is drawn lies between the bounds, and there is something to
return. -/
def Client.Admits (c : Client F) : ClientCall F → Prop
  | .addObservation point => c.optimizer.space.isFeasible point.params = true
  | .optimize _ draws => (∀ k, c.optimizer.space.InRange (draws k)) ∧
      (c.optimizer.observations ≠ [] ∨ 0 < c.optimizer.config.initialRandomPoints)

/-- The parameters whose evaluation succeeds satisfy `P`; sampled and clamped points do. -/
def SchedulerState.Keeps (P : List F → Prop) (s : SchedulerState F) : Action F → Prop
  | .evaluate (.ok _) => P s.currentParams
  | .optimize _ draws => Proposable s.optimizer.space draws P
  | _ => True

/-- The current parameters are feasible whenever their evaluation succeeds; what is drawn lies
between the bounds. -/
def SchedulerState.Admits (s : SchedulerState F) : Action F → Prop
  | .evaluate (.ok _) => s.optimizer.space.isFeasible s.currentParams = true
  | .optimize _ draws => ∀ k, s.optimizer.space.InRange (draws k)
  | _ => True

end Model

section Proposals

variable {F : Type*} [Zero F] [One F] [Add F] [Sub F] [Neg F] [Mul F] [Div F] [NatCast F]
variable [LT F] [DecidableLT F] [LE F] [DecidableLE F] [TuningMath F]
variable {space : TuningSpace F} {P : List F → Prop}

omit [One F] [LE F] [DecidableLE F] in
/-- Clamping covers sampling as well. -/
theorem proposable_of_clamp {draws : Draws F} (hdraws : ∀ k, space.InRange (draws k))
    (hclamp : ∀ point : List F, point.length = space.dimension →
      space.isFeasible (space.clampToBounds point) = true) :
    Proposable space draws fun x => space.isFeasible x = true where
  length x hx := space.length_of_isFeasible hx
  clamp := hclamp
  sample k := by
    rw [TuningSpace.randomFeasiblePoint_eq (hdraws k)]
    apply hclamp
    simp

/-! ### The scheduler -/

/-- All that is stored or proposed satisfies `P`, and no computation has been undefined. -/
structure SchedulerState.Proposing (P : List F → Prop) (space : TuningSpace F)
    (s : SchedulerState F) : Prop where
  space : s.optimizer.space = space
  observations : ∀ obs ∈ s.optimizer.observations, P obs.params
  proposed : ∀ x ∈ s.proposed, P x
  ready : s.phase = .optimizing → s.optimizer.observations ≠ []
  defined : s.phase ≠ .undefined

variable {cfg : SchedulerConfig F} {s s' : SchedulerState F} {a : Action F}

omit [Zero F] [One F] [Add F] [Sub F] [Neg F] [Mul F] [Div F] [NatCast F] [LT F] [DecidableLT F]
  [LE F] [DecidableLE F] [TuningMath F] in
/-- A step that leaves the optimiser alone. -/
theorem SchedulerState.Proposing.of_eq (h : s.Proposing P space)
    (hoptimizer : s'.optimizer = s.optimizer) (hproposed : s'.proposed = s.proposed)
    (hphase : s'.phase ≠ .optimizing) (hdefined : s'.phase ≠ .undefined) :
    s'.Proposing P space where
  space := hoptimizer ▸ h.space
  observations := hoptimizer ▸ h.observations
  proposed := hproposed ▸ h.proposed
  ready hoptimizing := absurd hoptimizing hphase
  defined := hdefined

theorem SchedulerState.Proposing.optimize (h : s.Proposing P space) {draws : Draws F}
    (objective : TuningObjective F) (hP : Proposable s.optimizer.space draws P)
    (hne : s.optimizer.observations ≠ []) :
    (s.afterOptimize (s.optimizer.optimize objective draws)).Proposing P space := by
  obtain ⟨⟨result, search⟩, hout, hall, hbest⟩ :=
    BayesianOptimizer.returns_optimize objective hP h.observations
  have hgrows := BayesianOptimizer.optimize_grows hout
  have hreturned : ∀ x ∈ returned result, P x := by
    intro x hx
    cases result with
    | ok best =>
      rw [List.mem_singleton.mp hx]
      exact hbest best rfl (.inl hne)
    | error e => cases hx
  rw [hout]
  refine ⟨hgrows.space.trans h.space, hall.observations, fun x hx => ?_, fun hphase => ?_,
    fun hphase => ?_⟩
  · rcases List.mem_append.mp hx with hx | hx
    · rcases List.mem_append.mp hx with hx | hx
      · exact h.proposed x hx
      · exact hall.evaluated x hx
    · exact hreturned x hx
  · cases result with
    | ok best =>
      change (if s.improves best then Phase.applying best else .waiting) = .optimizing at hphase
      split at hphase <;> cases hphase
    | error e => cases hphase
  · cases result with
    | ok best =>
      change (if s.improves best then Phase.applying best else .waiting) = .undefined at hphase
      split at hphase <;> cases hphase
    | error e => cases hphase

omit [Zero F] [One F] [Add F] [Sub F] [Neg F] [Mul F] [Div F] [NatCast F] [LT F] [DecidableLT F]
  [LE F] [DecidableLE F] [TuningMath F] in
theorem SchedulerState.Proposing.apply (h : s.Proposing P space) (best : OptimizationPoint F)
    (outcome : ApplyOutcome) : (s.afterApply cfg best outcome).Proposing P space := by
  have hafter : (s.afterApply cfg best outcome).proposed = s.proposed ∧
      (s.afterApply cfg best outcome).phase ≠ .optimizing ∧
        (s.afterApply cfg best outcome).phase ≠ .undefined := by
    unfold afterApply
    split
    · split <;> simp
    · simp
  exact h.of_eq (optimizer_afterApply cfg s best outcome) hafter.1 hafter.2.1 hafter.2.2

theorem SchedulerState.Proposing.step (h : s.Proposing P space) (hkeeps : s.Keeps P a)
    (hs : step cfg s a = some s') : s'.Proposing P space := by
  cases stepTo_of_step hs with
  | evaluated =>
    refine ⟨h.space, fun obs hobs => ?_, h.proposed, fun _ => ?_, by simp⟩
    · rcases List.mem_append.mp hobs with hobs | hobs
      · exact h.observations obs hobs
      · rw [List.mem_singleton.mp hobs]
        exact hkeeps
    · simp [BayesianOptimizer.addObservation]
  | failed => exact h
  | optimized hphase => exact h.optimize _ hkeeps (h.ready hphase)
  | applied => exact h.apply _ _
  | polled => exact h
  | rolledBack => exact h.of_eq rfl rfl (by simp [afterRollback]) (by simp [afterRollback])
  | tripped | committed | stopped => exact h.of_eq rfl rfl (by simp) (by simp)

/-- What the guard keeps of the current parameters, and of sampled and clamped points, holds of
all observations and proposals of a run. -/
theorem SchedulerState.proposing_of_reachable {guard : SchedulerState F → Action F → Prop}
    (hguard : ∀ s a, s.optimizer.space = space → guard s a → s.Keeps P a)
    {config : OptimizerConfig F} {params : List F} {live : String → F}
    (hs : Transition.Reachable (step cfg) guard (start (.create space config) params live) s) :
    s.Proposing P space := by
  refine hs.invariant (P := Proposing P space) ?_ ?_
  · constructor <;> simp [start, BayesianOptimizer.create]
  · intro s a s' h hadmits hs
    exact h.step (hguard s a h.space hadmits) hs

omit [One F] [LE F] [DecidableLE F] in
theorem SchedulerState.keeps_of_admits
    (hclamp : ∀ point : List F, point.length = space.dimension →
      space.isFeasible (space.clampToBounds point) = true)
    (hspace : s.optimizer.space = space) (h : s.Admits a) :
    s.Keeps (fun x => space.isFeasible x = true) a := by
  subst hspace
  cases a with
  | evaluate result =>
    cases result with
    | ok cost => exact h
    | error e => trivial
  | optimize objective draws => exact proposable_of_clamp h hclamp
  | apply | poll | windowOver | rollback | stop => trivial

/-! ### Any owner -/

/-- All that is stored or proposed is feasible. -/
structure Client.Feasible (space : TuningSpace F) (c : Client F) : Prop where
  sameSpace : c.optimizer.space = space
  observations : ∀ obs ∈ c.optimizer.observations, space.isFeasible obs.params = true
  proposed : ∀ x ∈ c.proposed, space.isFeasible x = true

theorem Client.Feasible.step {c c' : Client F} {call : ClientCall F} (h : c.Feasible space)
    (hclamp : ∀ point : List F, point.length = space.dimension →
      space.isFeasible (space.clampToBounds point) = true)
    (hadmits : c.Admits call) (hs : c.step call = some c') : c'.Feasible space := by
  obtain ⟨rfl, hobservations, hproposed⟩ := h
  cases call with
  | addObservation point =>
    cases hs
    refine ⟨rfl, fun obs hobs => ?_, hproposed⟩
    rcases List.mem_append.mp hobs with hobs | hobs
    · exact hobservations obs hobs
    · rw [List.mem_singleton.mp hobs]
      exact hadmits
  | optimize objective draws =>
    obtain ⟨hdraws, hsome⟩ := hadmits
    obtain ⟨⟨result, search⟩, hout, rfl⟩ := Option.map_eq_some_iff.mp hs
    obtain ⟨hall, hbest⟩ := (BayesianOptimizer.returns_optimize objective
      (proposable_of_clamp hdraws hclamp) hobservations).of_eq_some hout
    refine ⟨(BayesianOptimizer.optimize_grows hout).space, hall.observations, fun x hx => ?_⟩
    rcases List.mem_append.mp hx with hx | hx
    · rcases List.mem_append.mp hx with hx | hx
      · exact hproposed x hx
      · exact hall.evaluated x hx
    · cases result with
      | ok best =>
        rw [List.mem_singleton.mp hx]
        exact hbest best rfl hsome
      | error e => cases hx

/-- If clamped points are feasible, then so is all that is proposed, as long as all that is added
from outside is feasible: by any owner of the optimiser, and by the scheduler, whose current
parameters are what it adds. -/
theorem proposals_feasible (space : TuningSpace F) (config : OptimizerConfig F)
    (hclamp : ∀ point : List F, point.length = space.dimension →
      space.isFeasible (space.clampToBounds point) = true) :
    (∀ c, Transition.Reachable Client.step Client.Admits ⟨.create space config, []⟩ c →
      ∀ x ∈ c.proposed, space.isFeasible x = true) ∧
    ∀ (cfg : SchedulerConfig F) (params : List F) (live : String → F) (s : SchedulerState F),
      Transition.Reachable (SchedulerState.step cfg) SchedulerState.Admits
        (.start (.create space config) params live) s →
          ∀ x ∈ s.proposed, space.isFeasible x = true := by
  constructor
  · intro c hc
    have hfeasible : c.Feasible space := by
      refine hc.invariant (P := Client.Feasible space) ?_ ?_
      · constructor <;> simp [BayesianOptimizer.create]
      · intro c call c' h hadmits hs
        exact h.step hclamp hadmits hs
    exact hfeasible.proposed
  · intro cfg params live s hs
    have hproposing := SchedulerState.proposing_of_reachable
      (fun _ _ hspace => SchedulerState.keeps_of_admits hclamp hspace) hs
    exact hproposing.proposed

end Proposals

/-! ### Clamped points are proposed -/

section Needed

variable {F : Type*} [Zero F] [One F] [Add F] [Sub F] [Neg F] [Mul F] [Div F] [NatCast F]
variable [LinearOrder F] [TuningMath F] {space : TuningSpace F}

/-- The draws that make a clamped point the first random point. -/
def drawsOf (space : TuningSpace F) (point : List F) (i : ℕ) : F :=
  match space.parameters[i]? with
  | some p => stdClamp (point.getD i 0) p.min p.max
  | none => 0

omit [One F] [Add F] [Sub F] [Neg F] [Mul F] [Div F] [NatCast F] [TuningMath F] in
theorem inRange_drawsOf (hbounds : ∀ p ∈ space.parameters, p.min ≤ p.max) (point : List F) :
    space.InRange (drawsOf space point) := by
  intro i p hp
  rw [drawsOf, hp]
  exact TuningSpace.inRange_stdClamp (hbounds p (List.mem_of_getElem? hp)) _

omit [One F] [Neg F] [NatCast F] in
theorem randomFeasiblePoint_drawsOf {point : List F} (h : point.length = space.dimension) :
    space.randomFeasiblePoint (drawsOf space point) = space.clampToBounds point := by
  rw [TuningSpace.clampToBounds, if_pos h]
  apply List.ext_getElem
  · simp [TuningSpace.randomFeasiblePoint, h, TuningSpace.dimension]
  · intro i hi _
    have hlen : i < space.parameters.length := by
      simpa [TuningSpace.randomFeasiblePoint] using hi
    have hpoint : i < point.length := by rwa [h]
    simp [TuningSpace.randomFeasiblePoint, drawsOf, TuningParameter.clampToBounds, hlen, hpoint]

/-- If an owner can never make the optimiser propose an infeasible point, then clamped points are
feasible. -/
theorem clampToBounds_feasible_of_proposals {config : OptimizerConfig F}
    (hinit : 0 < config.initialRandomPoints) (hne : ∃ x, space.isFeasible x = true)
    (h : ∀ c, Transition.Reachable Client.step Client.Admits ⟨.create space config, []⟩ c →
      ∀ x ∈ c.proposed, space.isFeasible x = true) {point : List F}
    (hpoint : point.length = space.dimension) :
    space.isFeasible (space.clampToBounds point) = true := by
  obtain ⟨y, hy⟩ := hne
  by_cases hdim : space.dimension = 0
  · have hnil : point = [] := List.length_eq_zero_iff.mp (hpoint.trans hdim)
    have hynil : y = [] :=
      List.length_eq_zero_iff.mp ((space.length_of_isFeasible hy).trans hdim)
    have hclamped : space.clampToBounds point = [] :=
      List.length_eq_zero_iff.mp ((TuningSpace.length_clampToBounds hpoint).trans hdim)
    rwa [hclamped, ← hynil]
  · have hdraws := inRange_drawsOf (TuningSpace.min_le_max_of_isFeasible hy) point
    -- the objective fails, so the call ends at its first random point
    let failing : TuningObjective F := fun _ _ => fail .tuningObjectiveEvalFailed ""
    have hout : BayesianOptimizer.optimize (.create space config) failing
        (fun _ => drawsOf space point) = some (fail .tuningObjectiveEvalFailed "",
          ⟨.create space config, [space.clampToBounds point], 1⟩) := by
      obtain ⟨missing, hmissing⟩ := Nat.exists_eq_succ_of_ne_zero hinit.ne'
      simp [BayesianOptimizer.optimize, BayesianOptimizer.create, hdim, hmissing,
        BayesianOptimizer.initialPoints, BayesianOptimizer.Search.propose, failing, fail,
        randomFeasiblePoint_drawsOf hpoint]
    have hreach : Transition.Reachable Client.step Client.Admits
        (⟨.create space config, []⟩ : Client F)
        ⟨.create space config, [space.clampToBounds point]⟩ := by
      refine .next (a := .optimize failing fun _ => drawsOf space point) .start
        ⟨fun _ => hdraws, .inr hinit⟩ ?_
      rw [Client.step, hout]
      rfl
    exact h _ hreach _ (List.mem_singleton_self _)

end Needed

/-! ### Two spaces -/

/-- A space without grids and constraints: the random points are proposed, and returned. -/
theorem proposals_feasible_threshold :
    ∃ c, Transition.Reachable Client.step Client.Admits ⟨thresholdOptimizer, []⟩ c ∧
      c.proposed = [[3 / 5], [3 / 5], [3 / 5]] ∧
        ∀ x ∈ c.proposed, thresholdSpace.isFeasible x = true := by
  have hclamp : ∀ point : List ℚ, point.length = thresholdSpace.dimension →
      thresholdSpace.isFeasible (thresholdSpace.clampToBounds point) = true := fun _ h =>
    TuningSpace.clampToBounds_feasible_of_box rfl (by decide +kernel) h
  have hbounds : ∀ p ∈ thresholdSpace.parameters, ¬ (3 / 5 : ℚ) < p.min ∧ ¬ p.max < 3 / 5 := by
    decide +kernel
  have hstep : (Client.step ⟨thresholdOptimizer, []⟩
      (.optimize (fun _ _ => .ok (1 / 2)) fun _ _ => 3 / 5)).map Client.proposed =
      some [[3 / 5], [3 / 5], [3 / 5]] := by decide +kernel
  obtain ⟨c, hc, hproposed⟩ := Option.map_eq_some_iff.mp hstep
  have hreach : Transition.Reachable Client.step Client.Admits ⟨thresholdOptimizer, []⟩ c := by
    refine .next .start ?_ hc
    exact ⟨fun _ _ p hp => hbounds p (List.mem_of_getElem? hp), .inr (by decide)⟩
  exact ⟨c, hreach, hproposed, (proposals_feasible thresholdSpace _ hclamp).1 c hreach⟩

/-- Two weights whose sum is at most one. -/
def weightsFile : TuningSpace.TuningNode ℚ where
  parameters := some [⟨"leaf_0.formula_0.weight_0", 0, 1, "continuous", none⟩,
    ⟨"leaf_0.formula_0.weight_1", 0, 1, "continuous", none⟩]
  constraints := [⟨"leaf_0.formula_0.weight_0", "leaf_0.formula_0.weight_1", none, none, 1⟩]

def weightsSpace : TuningSpace ℚ where
  parameters := [⟨"leaf_0.formula_0.weight_0", .continuous, 0, 1, 0⟩,
    ⟨"leaf_0.formula_0.weight_1", .continuous, 0, 1, 0⟩]
  constraints := [⟨"leaf_0.formula_0.weight_0", 1, "leaf_0.formula_0.weight_1", 1, 1⟩]

/-- The first random point takes both weights to be three quarters. -/
theorem random_point_breaks_constraint :
    ¬ ∀ (path : String) (file : Option (Option (TuningSpace.TuningNode ℚ)))
        (space : TuningSpace ℚ) (config : OptimizerConfig ℚ) (objective : TuningObjective ℚ)
        (draws : Draws ℚ), TuningSpace.loadFromYaml path file = .ok space →
      (∃ x, space.isFeasible x = true) → (∀ k, space.InRange (draws k)) →
        ∀ out, (BayesianOptimizer.create space config).optimize objective draws = some out →
          (∀ x ∈ out.2.evaluated, space.isFeasible x = true) ∧
            ∀ best, out.1 = .ok best → space.isFeasible best.params = true := by
  intro h
  have hload : TuningSpace.loadFromYaml "tuning.yaml" (some (some weightsFile)) =
      .ok weightsSpace := rfl
  have hbounds : ∀ p ∈ weightsSpace.parameters, ¬ (3 / 4 : ℚ) < p.min ∧ ¬ p.max < 3 / 4 := by
    decide +kernel
  have hrange : weightsSpace.InRange fun _ => 3 / 4 :=
    fun i p hp => hbounds p (List.mem_of_getElem? hp)
  have hrun : ((BayesianOptimizer.create weightsSpace thresholdOptimizer.config).optimize
      (fun _ _ => .ok (1 / 2)) (fun _ _ => 3 / 4)).map (fun out => out.2.evaluated) =
      some [[3 / 4, 3 / 4], [3 / 4, 3 / 4]] := by decide +kernel
  obtain ⟨out, hout, hevaluated⟩ := Option.map_eq_some_iff.mp hrun
  have hfeasible := (h _ _ _ _ _ _ hload ⟨[0, 0], by decide +kernel⟩ (fun _ => hrange) out hout).1
    [3 / 4, 3 / 4] (by simp [hevaluated])
  exact absurd hfeasible (by decide +kernel)

end SurfaceAi.Tuning
