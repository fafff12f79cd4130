import SurfaceAi.Pipeline.Placement

/-! A call of `Drain` beside the running pipeline. It reads the depths of the queues one by
one; when a whole scan has found them empty, it empties them again and returns. Frames in
the hands of workers are in no queue. -/

namespace SurfaceAi.Pipeline

/-- Where `Drain` is. `delivered` is no data of the code: it tells whether a frame has been
pushed to a queue since the scan began. -/
inductive DrainPhase where
  | idle
  | polling
  | scanning (rest : List ℕ) (delivered : Bool)
  | forcing (rest : List ℕ) (timedOut : Bool)
  | returned (timedOut : Bool)
  deriving DecidableEq

structure Draining (α : Type) where
  line : PipelineState α
  phase : DrainPhase
  deriving DecidableEq

/-- A step of the pipeline, or of `Drain`. The map of queues is visited in some order. -/
inductive DrainAction (α : Type) where
  | line (a : Action α)
  | drain
  | scan (order : List ℕ)
  | read
  | allEmpty (order : List ℕ)
  | timeout (order : List ℕ)
  | pop
  | next
  | finish

namespace DrainPhase

/-- The call is going on. -/
def active : DrainPhase → Bool
  | .idle | .returned _ => false
  | _ => true

/-- A frame pushed during a scan. -/
def noteDelivery (phase : DrainPhase) (feeds : Bool) : DrainPhase :=
  match phase with
  | .scanning rest delivered => .scanning rest (delivered || feeds)
  | _ => phase

end DrainPhase

namespace Draining

variable {α : Type} (cfg : LineConfig) (s : Draining α)

def ordered (order : List ℕ) : Bool := order.isPerm (List.range s.line.nodes.length)

def step : DrainAction α → Option (Draining α)
  | .line a =>
    (Pipeline.step cfg s.line a).map fun line => ⟨line, s.phase.noteDelivery a.feedsQueue⟩
  | .drain => if s.phase.active then none else some { s with phase := .polling }
  | .scan order =>
    match s.phase with
    | .polling => if s.ordered order then some { s with phase := .scanning order false } else none
    | _ => none
  | .read =>
    match s.phase with
    | .scanning (i :: rest) delivered => do
      let node ← s.line.nodes[i]?
      if node.queue.depth > 0 then some { s with phase := .polling }
      else some { s with phase := .scanning rest delivered }
    | _ => none
  | .allEmpty order =>
    match s.phase with
    | .scanning [] _ =>
      if s.ordered order then some { s with phase := .forcing order false } else none
    | _ => none
  | .timeout order =>
    match s.phase with
    | .polling => if s.ordered order then some { s with phase := .forcing order true } else none
    | _ => none
  | .pop =>
    match s.phase with
    | .forcing (i :: _) _ => do
      let node ← s.line.nodes[i]?
      let (_, queue) ← node.queue.tryPop
      some { s with line := s.line.setNode i { node with queue } }
    | _ => none
  | .next =>
    match s.phase with
    | .forcing (i :: rest) timedOut => do
      let node ← s.line.nodes[i]?
      if node.queue.isEmpty then some { s with phase := .forcing rest timedOut } else none
    | _ => none
  | .finish =>
    match s.phase with
    | .forcing [] timedOut => some { s with phase := .returned timedOut }
    | _ => none

/-- Every frame is in a queue or with a caller of `Submit`. -/
def HandsFree : Prop := ∀ worker ∈ s.line.workers, worker.load = none

/-- No `Submit` runs beside `Drain`. -/
def NoSubmit : DrainAction α → Prop
  | .line a => s.phase.active = true → a.isSubmit = false
  | .drain => s.line.submitting = []
  | _ => True

/-- The scan that ends the polling saw no frame delivered, and at its end no worker holds
one. -/
def Quiet : DrainAction α → Prop
  | .allEmpty _ => s.phase = .scanning [] false ∧ s.HandsFree
  | _ => True

instance [DecidableEq α] (a : DrainAction α) : Decidable (s.NoSubmit a) :=
  match a with
  | .line a => inferInstanceAs (Decidable (s.phase.active = true → a.isSubmit = false))
  | .drain => inferInstanceAs (Decidable (s.line.submitting = []))
  | .scan _ | .read | .allEmpty _ | .timeout _ | .pop | .next | .finish => .isTrue trivial

instance [DecidableEq α] (a : DrainAction α) : Decidable (s.Quiet a) :=
  match a with
  | .allEmpty _ =>
    inferInstanceAs (Decidable (s.phase = .scanning [] false ∧
      ∀ worker ∈ s.line.workers, worker.load = none))
  | .line _ | .drain | .scan _ | .read | .timeout _ | .pop | .next | .finish => .isTrue trivial

/-- What `Drain` knows. -/
def Known : Prop :=
  match s.phase with
  | .idle | .returned _ | .forcing _ true => True
  | .polling => s.line.submitting = []
  | .scanning rest delivered =>
    s.line.submitting = [] ∧ (delivered = false → ∀ i, i ∉ rest → s.line.queueAt i = [])
  | .forcing _ false => s.line.placed = 0

variable {cfg s}

theorem known_iff {line : PipelineState α} {phase : DrainPhase} :
    (⟨line, phase⟩ : Draining α).Known ↔
      match phase with
      | .idle | .returned _ | .forcing _ true => True
      | .polling => line.submitting = []
      | .scanning rest delivered =>
        line.submitting = [] ∧ (delivered = false → ∀ i, i ∉ rest → line.queueAt i = [])
      | .forcing _ false => line.placed = 0 := Iff.rfl

/-- A queue found empty stays empty unless a frame is pushed to it. -/
theorem queueAt_eq_nil_of_step {line line' : PipelineState α} {a : Action α} {i : ℕ}
    (h : line.queueAt i = []) (hs : Pipeline.step cfg line a = some line')
    (ha : a.feedsQueue = false) : line'.queueAt i = [] := by
  cases queueStep_of_step hs i with
  | kept hkept => rw [hkept, h]
  | popped frame hpop =>
    rw [h] at hpop
    cases hpop
  | pushed p frame feeds => rw [ha] at feeds; cases feeds

/-- The pipeline goes on. -/
theorem Known.line {line line' : PipelineState α} {phase : DrainPhase} {a : Action α}
    (h : (⟨line, phase⟩ : Draining α).Known) (hs : Pipeline.step cfg line a = some line')
    (ha : phase.active = true → a.isSubmit = false) :
    (⟨line', phase.noteDelivery a.feedsQueue⟩ : Draining α).Known := by
  rw [known_iff] at h
  cases phase with
  | idle => trivial
  | returned timedOut => trivial
  | polling => exact submitting_eq_nil_of_step h hs (ha rfl)
  | scanning rest delivered =>
    refine ⟨submitting_eq_nil_of_step h.1 hs (ha rfl), ?_⟩
    intro hquiet i hi
    rw [Bool.or_eq_false_iff] at hquiet
    exact queueAt_eq_nil_of_step (h.2 hquiet.1 i hi) hs hquiet.2
  | forcing rest timedOut =>
    cases timedOut with
    | true => trivial
    | false => exact placed_eq_zero_of_step h hs (ha rfl)

theorem Known.step {a : DrainAction α} {s' : Draining α} (h : s.Known) (halone : s.NoSubmit a)
    (hquiet : s.Quiet a) (hs : s.step cfg a = some s') : s'.Known := by
  cases a with
  | line a =>
    obtain ⟨line', hline, rfl⟩ := Option.map_eq_some_iff.mp hs
    exact Known.line h hline halone
  | drain =>
    simp only [Draining.step, Option.ite_none_left_eq_some, Option.some.injEq] at hs
    obtain ⟨-, rfl⟩ := hs
    exact halone
  | scan order =>
    simp only [Draining.step] at hs
    split at hs <;> try cases hs
    next hphase =>
      rw [Known, hphase] at h
      obtain ⟨hperm, hs⟩ := Option.ite_none_right_eq_some.mp hs
      obtain rfl := Option.some.inj hs
      refine ⟨h, fun _ i hi => ?_⟩
      have hrange : i ∉ List.range s.line.nodes.length := fun hmem =>
        hi ((List.isPerm_iff.mp hperm).mem_iff.mpr hmem)
      have hnode : s.line.nodes[i]? = none := List.getElem?_eq_none (by simpa using hrange)
      show s.line.queueAt i = []
      rw [PipelineState.queueAt, hnode, Option.elim_none]
  | read =>
    simp only [Draining.step] at hs
    split at hs <;> try cases hs
    next i rest delivered hphase =>
      rw [Known, hphase] at h
      obtain ⟨node, hnode, hs⟩ := Option.bind_eq_some_iff.mp hs
      split_ifs at hs with hdepth
      · obtain rfl := Option.some.inj hs
        exact h.1
      · obtain rfl := Option.some.inj hs
        refine ⟨h.1, fun hquiet j hj => ?_⟩
        show s.line.queueAt j = []
        rcases eq_or_ne j i with rfl | hne
        · rw [queueAt_of_node hnode]
          exact List.length_eq_zero_iff.mp (Nat.eq_zero_of_not_pos hdepth)
        · exact h.2 hquiet j (List.not_mem_cons_of_ne_of_not_mem hne hj)
  | allEmpty order =>
    obtain ⟨hscan, hfree⟩ := hquiet
    simp only [Draining.step, hscan, Option.ite_none_right_eq_some, Option.some.injEq] at hs
    obtain ⟨-, rfl⟩ := hs
    rw [Known, hscan] at h
    exact placed_eq_zero_iff.mpr ⟨h.1, fun i => h.2 rfl i List.not_mem_nil, hfree⟩
  | timeout order =>
    simp only [Draining.step] at hs
    split at hs <;> try cases hs
    obtain ⟨-, hs⟩ := Option.ite_none_right_eq_some.mp hs
    obtain rfl := Option.some.inj hs
    trivial
  | pop =>
    simp only [Draining.step] at hs
    split at hs <;> try cases hs
    next i rest timedOut hphase =>
      rw [Known, hphase] at h
      simp only [Option.bind_eq_bind, Option.bind_eq_some_iff, Option.some.injEq] at hs
      obtain ⟨node, hnode, ⟨frame, queue⟩, hpop, rfl⟩ := hs
      obtain ⟨items, hitems, -⟩ := (StageQueue.tryPop_eq_some _).mp hpop
      rw [Known]
      simp only [hphase]
      cases timedOut with
      | true => trivial
      | false =>
        -- nothing is left to pop
        have hempty := (placed_eq_zero_iff.mp h).2.1 i
        rw [queueAt_of_node hnode, hitems] at hempty
        cases hempty
  | next =>
    simp only [Draining.step] at hs
    split at hs <;> try cases hs
    next i rest timedOut hphase =>
      rw [Known, hphase] at h
      obtain ⟨node, -, hs⟩ := Option.bind_eq_some_iff.mp hs
      obtain ⟨-, hs⟩ := Option.ite_none_right_eq_some.mp hs
      obtain rfl := Option.some.inj hs
      cases timedOut <;> exact h
  | finish =>
    simp only [Draining.step] at hs
    split at hs <;> try cases hs
    trivial

end Draining

/-- When no frame was delivered during the last scan and none was in a worker's hands at its
end, a `Drain` that returns in time leaves no frame in a queue or with a worker. -/
theorem drained_is_done {α : Type} (cfg : LineConfig) {s s' : Draining α}
    (h : Transition.Reachable (Draining.step cfg) (fun s a => s.NoSubmit a ∧ s.Quiet a)
      ⟨cfg.start, .idle⟩ s)
    (hs : s.step cfg .finish = some s') (hreturned : s'.phase = .returned false) :
    (∀ i, s'.line.queueAt i = []) ∧ ∀ worker ∈ s'.line.workers, worker.load = none := by
  have hknown : s.Known := by
    apply h.invariant
    · trivial
    · intro s a s' hknown hok hs
      exact hknown.step hok.1 hok.2 hs
  simp only [Draining.step] at hs
  split at hs <;> try cases hs
  next timedOut hphase =>
    obtain rfl : timedOut = false := DrainPhase.returned.inj hreturned
    rw [Draining.Known, hphase] at hknown
    exact (placed_eq_zero_iff.mp hknown).2

/-- One scan of the seven queues, and the second visit to each. -/
def drainOnce : List (DrainAction ℕ) :=
  [.drain, .scan (List.range 7)] ++ List.replicate 7 .read ++ [.allEmpty (List.range 7)] ++
    List.replicate 7 .next

/-- The only frame has failed before `Drain` is called. -/
theorem drained_is_done_after_failure : ∃ s s' : Draining ℕ,
    s.step LineConfig.inspection .finish = some s' ∧
      (∀ i, s'.line.queueAt i = []) ∧ ∀ worker ∈ s'.line.workers, worker.load = none := by
  have hrun : ((Transition.run
      (fun s a => if s.NoSubmit a ∧ s.Quiet a then s.step LineConfig.inspection a else none)
      (⟨LineConfig.inspection.start, .idle⟩ : Draining ℕ)
      ([.line (.submit 1), .line (.enter 0), .line (.dequeue 0), .line (.process 0 .failed)] ++
        drainOnce)).bind fun s => (s.step LineConfig.inspection .finish).map Draining.phase) =
      some (.returned false) := by decide +kernel
  obtain ⟨s, hs, hfinish⟩ := Option.bind_eq_some_iff.mp hrun
  obtain ⟨s', hs', hphase⟩ := Option.map_eq_some_iff.mp hfinish
  exact ⟨s, s', hs', drained_is_done LineConfig.inspection (.of_run _ _ hs) hs' hphase⟩

/-- All queues are empty while the first worker holds the only frame: `Drain` returns. -/
theorem drain_misses_frame_in_hand :
    ¬ ∀ s s' : Draining ℕ,
      Transition.Reachable (Draining.step LineConfig.inspection) Draining.NoSubmit
        ⟨LineConfig.inspection.start, .idle⟩ s →
      s.step LineConfig.inspection .finish = some s' → s'.phase = .returned false →
      (∀ i, s'.line.queueAt i = []) ∧ ∀ worker ∈ s'.line.workers, worker.load = none := by
  intro h
  have hrun : ((Transition.run
      (fun s a => if s.NoSubmit a then s.step LineConfig.inspection a else none)
      (⟨LineConfig.inspection.start, .idle⟩ : Draining ℕ)
      ([.line (.submit 1), .line (.enter 0), .line (.dequeue 0)] ++ drainOnce)).bind
      fun s => (s.step LineConfig.inspection .finish).map fun s' =>
        (s'.phase, s'.line.workers[0]?)) =
      some (.returned false, some ⟨0, .taken 1⟩) := by decide +kernel
  obtain ⟨s, hs, hfinish⟩ := Option.bind_eq_some_iff.mp hrun
  obtain ⟨s', hs', hpair⟩ := Option.map_eq_some_iff.mp hfinish
  obtain ⟨hphase, hworker⟩ := Prod.mk.inj hpair
  have hdone := h s s' (.of_run _ _ hs) hs' hphase
  have hload := hdone.2 _ (List.mem_of_getElem? hworker)
  cases hload

end SurfaceAi.Pipeline
