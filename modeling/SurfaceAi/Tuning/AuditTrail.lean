import SurfaceAi.Tuning.Rollback

/-! The audit trail of the tuning loop, in a knowledge graph whose inserts succeed. A proposal
is recorded before the applier is called; whether it was applied or rolled back is recorded at
the end of the monitoring window only. -/

namespace SurfaceAi.Tuning

/-- The `TuningEvent` nodes, without their timestamps. -/
inductive TuningEvent (F : Type*) where
  | proposed (oldParams newParams : List F) (oldCost newCost : F)
  | applied (oldParams newParams : List F) (oldCost newCost : F)
  | rollback (params rejectedParams : List F)
  deriving DecidableEq

/-- A trail in which proposals and their outcomes alternate, and whether the last proposal is
without an outcome. -/
inductive Trail {F : Type*} : Bool → List (TuningEvent F) → Prop where
  | empty : Trail false []
  | proposed {events : List (TuningEvent F)} {oldParams newParams : List F} {oldCost newCost : F} :
      Trail false events → Trail true (events ++ [.proposed oldParams newParams oldCost newCost])
  | applied {events : List (TuningEvent F)} {oldParams newParams : List F} {oldCost newCost : F} :
      Trail true events → Trail false (events ++ [.applied oldParams newParams oldCost newCost])
  | rollback {events : List (TuningEvent F)} {params rejectedParams : List F} :
      Trail true events → Trail false (events ++ [.rollback params rejectedParams])

/-- Whether the last proposal is open can be read off the last event. -/
theorem Trail.open_unique {F : Type*} {b b' : Bool} {events : List (TuningEvent F)}
    (h : Trail b events) (h' : Trail b' events) : b = b' := by
  have hlast : ∀ {b : Bool} {events : List (TuningEvent F)}, Trail b events →
      (b = true ↔ ∃ old new oldCost newCost,
        events.getLast? = some (.proposed old new oldCost newCost)) := by
    intro b events h
    cases h <;> simp
  rw [Bool.eq_iff_iff, hlast h, hlast h']

def TuningEvent.isRollback {F : Type*} : TuningEvent F → Bool
  | .rollback _ _ => true
  | _ => false

/-- The parameters proposed in the cycle that is going on. -/
def Phase.proposal {F : Type*} : Phase F → Option (List F)
  | .applying best => some best.params
  | .monitoring best _ => some best.params
  | .rollingBack best _ _ => some best.params
  | _ => none

structure AuditedState (F : Type*) where
  scheduler : SchedulerState F
  events : List (TuningEvent F)

namespace AuditedState

section Record

variable {F : Type*}

/-- The nodes that a step inserts. -/
def recorded (s : SchedulerState F) (a : Action F) (s' : SchedulerState F) :
    List (TuningEvent F) :=
  match a with
  | .optimize _ _ =>
    match s'.phase with
    | .applying best => [.proposed s.currentParams best.params s.currentCost best.cost]
    | _ => []
  | .windowOver =>
    match s.phase with
    | .monitoring best old => [.applied old s.currentParams s.currentCost best.cost]
    | _ => []
  | .rollback _ =>
    match s.phase with
    | .rollingBack best old true => [.rollback old best.params]
    | _ => []
  | .evaluate _ | .apply _ | .poll _ | .stop => []

variable (cfg : SchedulerConfig F)

/-- Parameters are in force when writing them to the live configuration changes nothing; with
no applier there is no other configuration than the scheduler's. -/
def InForce (s : SchedulerState F) (params : List F) : Prop :=
  if cfg.applierSet then writeParams s.paramNames s.live params = s.live
  else s.currentParams = params

/-- Some attempt of a rollback writes the old parameters, and they set a parameter to another
value than the proposed ones. -/
def TakesBack (s : SchedulerState F) (old proposed : List F) (outcomes : ℕ → ApplyOutcome) : Prop :=
  if cfg.applierSet then
    (∃ k < 3, outcomes k ≠ .loadFailed) ∧
      ∃ name ∈ covered s.paramNames old, name ∈ covered s.paramNames proposed ∧
        writeParams s.paramNames s.live old name ≠ writeParams s.paramNames s.live proposed name
  else old ≠ proposed

/-- The applier has not failed where its rollback ends a cycle, no stop is seen while
monitoring, and a rollback takes the proposed parameters out of force. -/
def EndsProperly (t : AuditedState F) (a : Action F) : Prop :=
  match t.scheduler.phase, a with
  | .rollingBack _ _ false, .rollback _ => False
  | .monitoring _ _, .stop => False
  | .rollingBack best old true, .rollback outcomes =>
    TakesBack cfg t.scheduler old best.params outcomes
  | _, _ => True

/-- After a step a proposal lacks its outcome only while its cycle goes on, and at the end of a
cycle the outcome is a rollback exactly if the proposed parameters are not in force. -/
structure Accounted (t : AuditedState F) (t' : AuditedState F) : Prop where
  trail : Trail t'.scheduler.phase.proposal.isSome t'.events
  outcome : ∀ params, t.scheduler.phase.proposal = some params →
    t'.scheduler.phase.proposal = none →
      ((∃ event, t'.events.getLast? = some event ∧ event.isRollback = true) ↔
        ¬InForce cfg t'.scheduler params)

/-- While the proposed parameters are monitored, or about to be rolled back for their rejection
rate, they are in force. -/
structure Monitored (t : AuditedState F) : Prop where
  trail : Trail t.scheduler.phase.proposal.isSome t.events
  monitoring : ∀ best old, t.scheduler.phase = .monitoring best old →
    InForce cfg t.scheduler best.params
  rollingBack : ∀ best old, t.scheduler.phase = .rollingBack best old true →
    InForce cfg t.scheduler best.params

end Record

section Rollback

variable {F : Type*} {cfg : SchedulerConfig F} {s : SchedulerState F}

/-- A rollback leaves the old parameters written as soon as one attempt writes them. -/
theorem retryRollback_live (names : List String) (live : String → F) (params : List F)
    (outcomes : ℕ → ApplyOutcome) (attempts : ℕ) :
    ((∃ k < attempts, outcomes k ≠ .loadFailed) ∧
        (retryRollback names params outcomes attempts live).2 = writeParams names live params) ∨
      (∀ k < attempts, outcomes k = .loadFailed) ∧
        (retryRollback names params outcomes attempts live).2 = live := by
  induction attempts generalizing live with
  | zero => exact .inr ⟨by simp, rfl⟩
  | succ left ih =>
    have hwrites : writeParams names (writeParams names live params) params =
        writeParams names live params := Writes.writes_writes
    cases houtcome : outcomes left with
    | applied =>
      refine .inl ⟨⟨left, Nat.lt_succ_self _, by simp [houtcome]⟩, ?_⟩
      simp only [retryRollback, houtcome, applyParams]
    | reloadFailed =>
      refine .inl ⟨⟨left, Nat.lt_succ_self _, by simp [houtcome]⟩, ?_⟩
      simp only [retryRollback, houtcome, applyParams]
      rcases ih (writeParams names live params) with ⟨-, hlive⟩ | ⟨-, hlive⟩
      · rw [hlive, hwrites]
      · exact hlive
    | loadFailed =>
      simp only [retryRollback, houtcome, applyParams]
      rcases ih live with ⟨⟨k, hk, hne⟩, hlive⟩ | ⟨hall, hlive⟩
      · exact .inl ⟨⟨k, Nat.lt_succ_of_lt hk, hne⟩, hlive⟩
      · refine .inr ⟨fun k hk => ?_, hlive⟩
        rcases Nat.lt_succ_iff_lt_or_eq.mp hk with hk | rfl
        · exact hall k hk
        · exact houtcome

/-- Other parameters written over those in force take them out of force where they differ. -/
theorem writeParams_ne_iff {names : List String} {live : String → F} {old params : List F}
    (h : writeParams names live params = live) :
    writeParams names (writeParams names live old) params ≠ writeParams names live old ↔
      ∃ name ∈ covered names old, name ∈ covered names params ∧
        writeParams names live old name ≠ writeParams names live params name := by
  constructor
  · intro hne
    obtain ⟨name, hname⟩ := Function.ne_iff.mp hne
    have hmem : name ∈ covered names params := by
      by_contra hnot
      exact hname (writeParams_of_notMem hnot)
    have hvalue : writeParams names (writeParams names live old) params name =
        writeParams names live params name := writeParams_of_mem hmem
    refine ⟨name, ?_, hmem, fun heq => hname (hvalue.trans heq.symm)⟩
    by_contra hnot
    refine hname (hvalue.trans ?_)
    rw [h, writeParams_of_notMem hnot]
  · rintro ⟨name, -, hmem, hne⟩ heq
    have hvalue : writeParams names (writeParams names live old) params name =
        writeParams names live params name := writeParams_of_mem hmem
    exact hne ((congrFun heq name).symm.trans hvalue)

theorem inForce_afterRollback {old params : List F} {outcomes : ℕ → ApplyOutcome}
    (h : InForce cfg s params) :
    ¬InForce cfg (s.afterRollback cfg old true outcomes) params ↔
      TakesBack cfg s old params outcomes := by
  unfold InForce at h ⊢
  unfold TakesBack
  split_ifs at h ⊢ with hset
  · have hlive : (s.afterRollback cfg old true outcomes).live =
        (retryRollback s.paramNames old outcomes 3 s.live).2 := if_pos hset
    have hnames : (s.afterRollback cfg old true outcomes).paramNames = s.paramNames := rfl
    rw [hlive, hnames]
    rcases retryRollback_live s.paramNames s.live old outcomes 3 with ⟨hsome, hlive⟩ | ⟨hnone, hlive⟩
    · rw [hlive, ← ne_eq, writeParams_ne_iff h]
      exact (and_iff_right hsome).symm
    · rw [hlive]
      refine iff_of_false (not_not_intro h) ?_
      rintro ⟨⟨k, hk, hne⟩, -⟩
      exact hne (hnone k hk)
  · rfl

/-- New parameters that are monitored are in force. -/
theorem inForce_afterApply (best : OptimizationPoint F) (outcome : ApplyOutcome) :
    ((s.afterApply cfg best outcome).phase = .monitoring best s.currentParams ∧
        InForce cfg (s.afterApply cfg best outcome) best.params) ∨
      (s.afterApply cfg best outcome).phase = .rollingBack best s.currentParams false := by
  unfold SchedulerState.afterApply
  split_ifs with hset
  · cases outcome with
    | loadFailed => exact .inr rfl
    | reloadFailed => exact .inr rfl
    | applied =>
      refine .inl ⟨rfl, ?_⟩
      unfold InForce
      rw [if_pos hset]
      exact Writes.writes_writes
  · refine .inl ⟨rfl, ?_⟩
    unfold InForce
    rw [if_neg hset]

end Rollback

section Run

variable {F : Type*} [Zero F] [One F] [Add F] [Sub F] [Neg F] [Mul F] [Div F] [NatCast F]
variable [LT F] [DecidableLT F] [LE F] [DecidableLE F] [TuningMath F]
variable (cfg : SchedulerConfig F)

/-- A step of the loop, with the nodes it inserts. -/
def step (t : AuditedState F) (a : Action F) : Option (AuditedState F) :=
  (SchedulerState.step cfg t.scheduler a).map fun s' =>
    ⟨s', t.events ++ recorded t.scheduler a s'⟩

variable {cfg} {s : SchedulerState F} {t t' : AuditedState F} {a : Action F}

omit [One F] [Add F] [Sub F] [Neg F] [LT F] [DecidableLT F] [TuningMath F] in
theorem phase_afterOptimize
    (out : Option (Result (OptimizationPoint F) × BayesianOptimizer.Search F)) :
    (∃ best, (s.afterOptimize out).phase = .applying best) ∨
      (s.afterOptimize out).phase = .waiting ∨ (s.afterOptimize out).phase = .undefined := by
  unfold SchedulerState.afterOptimize
  split
  · exact .inr (.inr rfl)
  · next result search =>
    cases result with
    | error => exact .inr (.inl rfl)
    | ok best =>
      show (∃ best', (if s.improves best then Phase.applying best else .waiting) = .applying best') ∨
        (if s.improves best then Phase.applying best else .waiting) = .waiting ∨
        (if s.improves best then Phase.applying best else .waiting) = .undefined
      split_ifs
      · exact .inl ⟨best, rfl⟩
      · exact .inr (.inl rfl)

omit [Zero F] [One F] [Add F] [Sub F] [Neg F] [Mul F] [Div F] [NatCast F] [LT F] [DecidableLT F]
  [LE F] [DecidableLE F] [TuningMath F] in
/-- A step that records nothing and stays in its cycle, or between cycles, is accounted for. -/
theorem accounted_silent {s' : SchedulerState F}
    (htrail : Trail t.scheduler.phase.proposal.isSome t.events)
    (hrecorded : recorded t.scheduler a s' = [])
    (hsame : s'.phase.proposal = t.scheduler.phase.proposal) :
    Accounted cfg t ⟨s', t.events ++ recorded t.scheduler a s'⟩ := by
  refine ⟨?_, fun params hsome hnone => ?_⟩
  · rw [hrecorded, List.append_nil, hsame]
    exact htrail
  · rw [hsame, hsome] at hnone
    cases hnone

omit [Zero F] [One F] [Add F] [Sub F] [Neg F] [Mul F] [Div F] [NatCast F] [LT F] [DecidableLT F]
  [LE F] [DecidableLE F] [TuningMath F] in
/-- Ending a cycle without a word is not. -/
theorem not_accounted_silent {s' : SchedulerState F}
    (htrail : Trail t.scheduler.phase.proposal.isSome t.events)
    (hopen : t.scheduler.phase.proposal.isSome = true)
    (hrecorded : recorded t.scheduler a s' = []) (hclosed : s'.phase.proposal = none) :
    ¬Accounted cfg t ⟨s', t.events ++ recorded t.scheduler a s'⟩ := by
  intro hacc
  have htrail' := hacc.trail
  rw [hrecorded, List.append_nil, hclosed] at htrail'
  rw [hopen] at htrail
  cases htrail.open_unique htrail'

omit [One F] [Add F] [Sub F] [Neg F] [LT F] [DecidableLT F] [TuningMath F] in
/-- What the search has found is recorded when it is tried, and only then. -/
theorem accounted_optimized (htrail : Trail t.scheduler.phase.proposal.isSome t.events)
    (hphase : t.scheduler.phase = .optimizing) (objective : TuningObjective F) (draws : Draws F)
    (out : Option (Result (OptimizationPoint F) × BayesianOptimizer.Search F)) :
    Accounted cfg t ⟨t.scheduler.afterOptimize out, t.events ++
      recorded t.scheduler (.optimize objective draws) (t.scheduler.afterOptimize out)⟩ := by
  rcases @phase_afterOptimize F _ _ _ _ _ _ t.scheduler out with ⟨best, hafter⟩ | hafter
  · refine ⟨?_, fun params hsome => ?_⟩
    · rw [hphase] at htrail
      dsimp only [recorded]
      rw [hafter]
      exact .proposed htrail
    · rw [hphase] at hsome
      cases hsome
  · have hnone : (t.scheduler.afterOptimize out).phase.proposal = none := by
      rcases hafter with hafter | hafter <;> rw [hafter] <;> rfl
    refine accounted_silent htrail ?_ ?_
    · dsimp only [recorded]
      rcases hafter with hafter | hafter <;> rw [hafter]
    · rw [hnone, hphase]
      rfl

omit [Zero F] [One F] [Add F] [Sub F] [Neg F] [Mul F] [Div F] [NatCast F] [LT F] [DecidableLT F]
  [LE F] [DecidableLE F] [TuningMath F] in
/-- At the end of the window the proposed parameters are in force and said to be applied. -/
theorem Monitored.accounted_committed {best : OptimizationPoint F} {old : List F}
    (h : Monitored cfg t) (hphase : t.scheduler.phase = .monitoring best old) :
    Accounted cfg t ⟨{ t.scheduler with phase := .waiting }, t.events ++
      [.applied old t.scheduler.currentParams t.scheduler.currentCost best.cost]⟩ := by
  have htrail := h.trail
  rw [hphase] at htrail
  refine ⟨.applied htrail, fun params hparams _ => ?_⟩
  rw [hphase] at hparams
  obtain rfl := Option.some.inj hparams
  refine iff_of_false ?_ (not_not_intro (h.monitoring best old hphase))
  simp [TuningEvent.isRollback]

omit [Zero F] [One F] [Add F] [Sub F] [Neg F] [Mul F] [Div F] [NatCast F] [LT F] [DecidableLT F]
  [LE F] [DecidableLE F] [TuningMath F] in
/-- A rollback of monitored parameters is recorded whether it takes them back or not. -/
theorem Monitored.accounted_rolledBack_iff {best : OptimizationPoint F} {old : List F}
    (h : Monitored cfg t) (hphase : t.scheduler.phase = .rollingBack best old true)
    (outcomes : ℕ → ApplyOutcome) :
    Accounted cfg t ⟨t.scheduler.afterRollback cfg old true outcomes,
        t.events ++ [.rollback old best.params]⟩ ↔
      TakesBack cfg t.scheduler old best.params outcomes := by
  have htrail := h.trail
  have hforce := h.rollingBack best old hphase
  have hlast : ∃ event : TuningEvent F,
      (t.events ++ [TuningEvent.rollback old best.params]).getLast? = some event ∧ event.isRollback = true :=
    ⟨_, List.getLast?_concat, rfl⟩
  rw [hphase] at htrail
  constructor
  · intro hacc
    have hproposal : t.scheduler.phase.proposal = some best.params := by
      rw [hphase]
      rfl
    exact (inForce_afterRollback hforce).mp ((hacc.outcome best.params hproposal rfl).mp hlast)
  · intro htakes
    refine ⟨.rollback htrail, fun params hparams _ => ?_⟩
    rw [hphase] at hparams
    obtain rfl := Option.some.inj hparams
    exact iff_of_true hlast ((inForce_afterRollback hforce).mpr htakes)

/-- One step accounts for its cycle exactly if it ends it properly. -/
theorem Monitored.accounted_iff (h : Monitored cfg t) (hs : step cfg t a = some t') :
    Accounted cfg t t' ↔ EndsProperly cfg t a := by
  obtain ⟨s', hs', rfl⟩ := Option.map_eq_some_iff.mp hs
  have htrail := h.trail
  unfold EndsProperly
  cases SchedulerState.stepTo_of_step hs' with
  | evaluated hphase =>
    rw [hphase]
    exact iff_of_true (accounted_silent htrail rfl (by rw [hphase]; rfl)) trivial
  | failed hphase =>
    rw [hphase]
    exact iff_of_true (accounted_silent htrail rfl rfl) trivial
  | @optimized objective draws hphase =>
    rw [hphase]
    exact iff_of_true (accounted_optimized htrail hphase objective draws _) trivial
  | @applied best outcome hphase =>
    have hopen : (t.scheduler.afterApply cfg best outcome).phase.proposal = some best.params := by
      rcases @inForce_afterApply F cfg t.scheduler best outcome with ⟨hafter, -⟩ | hafter
      all_goals
        rw [hafter]
        rfl
    rw [hphase]
    exact iff_of_true (accounted_silent htrail rfl (by rw [hopen, hphase]; rfl)) trivial
  | tripped hphase htrips =>
    rw [hphase]
    exact iff_of_true (accounted_silent htrail rfl (by rw [hphase]; rfl)) trivial
  | polled hphase htrips =>
    rw [hphase]
    exact iff_of_true (accounted_silent htrail rfl rfl) trivial
  | committed hphase =>
    simp only [recorded, hphase]
    exact iff_of_true (h.accounted_committed hphase) trivial
  | @rolledBack best old applied outcomes hphase =>
    cases applied with
    | true =>
      simp only [recorded, hphase]
      exact h.accounted_rolledBack_iff hphase outcomes
    | false =>
      have hrecorded : recorded t.scheduler (.rollback outcomes)
          (t.scheduler.afterRollback cfg old false outcomes) = [] := by
        simp only [recorded, hphase]
      have hnot := @not_accounted_silent F cfg t _ _ htrail (by rw [hphase]; rfl) hrecorded rfl
      rw [hphase]
      exact iff_of_false hnot id
  | stopped hphase =>
    rcases hphase with hphase | ⟨best, old, hphase⟩
    · rw [hphase]
      exact iff_of_true (accounted_silent htrail rfl (by rw [hphase]; rfl)) trivial
    · have hnot : ¬Accounted cfg t ⟨{ t.scheduler with phase := .exited }, t.events ++
          recorded t.scheduler .stop { t.scheduler with phase := .exited }⟩ :=
        not_accounted_silent htrail (by rw [hphase]; rfl) rfl rfl
      rw [hphase]
      exact iff_of_false hnot id

omit [Zero F] [One F] [Add F] [Sub F] [Neg F] [Mul F] [Div F] [NatCast F] [LT F] [DecidableLT F]
  [LE F] [DecidableLE F] [TuningMath F] in
theorem monitored_of_pending_none (htrail : Trail t.scheduler.phase.proposal.isSome t.events)
    (h : t.scheduler.phase.pending = none) : Monitored cfg t := by
  refine ⟨htrail, fun best old hphase => ?_, fun best old hphase => ?_⟩
  all_goals
    rw [hphase] at h
    cases h

/-- A step keeps what is monitored in force. -/
theorem Monitored.step (h : Monitored cfg t) (hs : step cfg t a = some t')
    (htrail : Trail t'.scheduler.phase.proposal.isSome t'.events) : Monitored cfg t' := by
  obtain ⟨s', hs', rfl⟩ := Option.map_eq_some_iff.mp hs
  cases SchedulerState.stepTo_of_step hs' with
  | evaluated => exact monitored_of_pending_none htrail rfl
  | failed hphase => exact monitored_of_pending_none htrail (by rw [hphase]; rfl)
  | @optimized objective draws hphase =>
    refine monitored_of_pending_none htrail ?_
    rcases phase_afterOptimize (s := t.scheduler)
      (t.scheduler.optimizer.optimize objective draws) with ⟨best, hafter⟩ | hafter | hafter
    all_goals
      rw [hafter]
      rfl
  | @applied best outcome hphase =>
    rcases @inForce_afterApply F cfg t.scheduler best outcome with
      ⟨hafter, hforce⟩ | hafter
    · refine ⟨htrail, fun best' old' hphase' => ?_, fun best' old' hphase' => ?_⟩
      · rw [hafter] at hphase'
        cases hphase'
        exact hforce
      · rw [hafter] at hphase'
        cases hphase'
    · refine ⟨htrail, fun best' old' hphase' => ?_, fun best' old' hphase' => ?_⟩
      all_goals
        rw [hafter] at hphase'
        cases hphase'
  | tripped hphase htrips =>
    refine ⟨htrail, fun best' old' hphase' => (by cases hphase'), fun best' old' hphase' => ?_⟩
    cases hphase'
    exact h.monitoring _ _ hphase
  | polled hphase htrips => exact ⟨htrail, h.monitoring, h.rollingBack⟩
  | committed hphase => exact monitored_of_pending_none htrail rfl
  | rolledBack hphase => exact monitored_of_pending_none htrail rfl
  | stopped hphase => exact monitored_of_pending_none htrail rfl

/-- In every run the trail accounts for each proposal exactly if every cycle ends properly. -/
theorem audit_complete_iff (cfg : SchedulerConfig F) (optimizer : BayesianOptimizer F)
    (params : List F) (live : String → F) (actions : List (Action F)) :
    Transition.Along (step cfg) (fun t _ t' => Accounted cfg t t')
        ⟨.start optimizer params live, []⟩ actions ↔
      Transition.Along (step cfg) (fun t a _ => EndsProperly cfg t a)
        ⟨.start optimizer params live, []⟩ actions := by
  have hstart : Monitored cfg ⟨.start optimizer params live, []⟩ :=
    monitored_of_pending_none Trail.empty rfl
  exact Transition.along_iff (fun _ _ _ h hs => h.accounted_iff hs)
    (fun _ _ _ h hs hacc => h.step hs hacc.trail) hstart actions

end Run

/-- The applier fails, and so does the attempt to put the old parameters back; the proposal is
left without an outcome. -/
theorem audit_incomplete :
    ¬ ∀ (cfg : SchedulerConfig ℚ) (optimizer : BayesianOptimizer ℚ) (live : String → ℚ)
        (actions : List (Action ℚ)),
      Transition.Along (step cfg) (fun t _ t' => Accounted cfg t t')
        ⟨.fresh optimizer live, []⟩ actions := by
  intro h
  have hrun : ((Transition.run (step thresholdScheduler)
      ⟨.fresh thresholdOptimizer fun _ => 7 / 10, []⟩
      (proposeThreshold ++ [.apply .loadFailed])).bind fun t =>
        (step thresholdScheduler t (.rollback fun _ => .loadFailed)).map fun t' =>
          (t'.events, t'.scheduler.phase.proposal)) =
      some ([.proposed [] [3 / 5] 1 (1 / 2)], none) := by
    decide +kernel
  obtain ⟨t, ht, hmap⟩ := Option.bind_eq_some_iff.mp hrun
  obtain ⟨t', hstep, hfacts⟩ := Option.map_eq_some_iff.mp hmap
  obtain ⟨hevents, hproposal⟩ := Prod.mk.inj hfacts
  have hacc := (h thresholdScheduler thresholdOptimizer (fun _ => 7 / 10)
    (proposeThreshold ++ [.apply .loadFailed] ++ [.rollback fun _ => .loadFailed])).last ht hstep
  have hclosed := hacc.trail
  rw [hevents, hproposal] at hclosed
  have hopen : Trail true [TuningEvent.proposed [] [3 / 5] (1 : ℚ) (1 / 2)] := .proposed .empty
  cases hopen.open_unique hclosed

end AuditedState

end SurfaceAi.Tuning
