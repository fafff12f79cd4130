import SurfaceAi.Pipeline.Movement

/-! Where submitted frames end. Every accepted frame is in flight, or has been exported,
or is counted as failed or dropped, or was discarded by `Stop`: outputs refused by a
full queue and frames force-drained are counted nowhere. -/

namespace SurfaceAi.Pipeline

variable {α : Type}

/-- A frame is in flight once its `Submit` has returned. -/
def flightWeight : Option Place → ℕ
  | none | some .submitting => 0
  | _ => 1

namespace PipelineState

variable (s : PipelineState α)

/-- The frames the last stage has finished. -/
def exported : ℕ := (s.metrics[s.metrics.length - 1]?).elim 0 StageMetrics.framesProcessed

/-- `frames_failed` over all stages. -/
def failed : ℕ := Tally.indexed (fun _ => StageMetrics.framesFailed) s.metrics

/-- `frames_dropped` over all stages. -/
def dropped : ℕ := Tally.indexed (fun _ => StageMetrics.framesDropped) s.metrics

/-- The frames in queues and with workers. -/
def inFlight : ℕ := s.total fun place _ => flightWeight (some place)

/-- The frames in the queue that `Submit` pushes to. -/
def atEntry : ℕ := s.nodes[0]?.elim 0 fun node => node.queue.depth

end PipelineState

/-! ### Counting along a run -/

def Action.isEnter : Action α → Bool
  | .enter _ => true
  | _ => false

/-- An output dropped at a full queue after stop, or a frame removed by `Drain`. -/
def Action.isDiscard : Action α → Bool
  | .abandon _ | .forceDrain => true
  | _ => false

/-- The frames whose `Submit` has returned. -/
def accepted (actions : List (Action α)) : ℕ := actions.countP Action.isEnter

def discarded (actions : List (Action α)) : ℕ := actions.countP Action.isDiscard

section Counters

variable {s s' : PipelineState α} {i : ℕ} {m : StageMetrics}

theorem counters_of_metrics_eq (h : s'.metrics = s.metrics) :
    s'.exported = s.exported ∧ s'.failed = s.failed ∧ s'.dropped = s.dropped := by
  simp only [PipelineState.exported, PipelineState.failed, PipelineState.dropped, h, and_self]

/-- A failed frame is counted once. -/
theorem counters_of_countFailed (hm : s.metrics[i]? = some m)
    (h : s'.metrics = s.metrics.set i m.countFailed) :
    s'.exported = s.exported ∧ s'.failed = s.failed + 1 ∧ s'.dropped = s.dropped := by
  simp only [PipelineState.exported, PipelineState.failed, PipelineState.dropped, h,
    List.length_set]
  refine ⟨?_, ?_, ?_⟩
  · rw [List.getElem?_set]
    split_ifs with hi hlt
    · rw [← hi, hm]
      rfl
    · rw [List.getElem?_eq_none (by omega)]
    · rfl
  · obtain ⟨r, hr, hset⟩ := Tally.exists_remainder (fun _ => StageMetrics.framesFailed) hm
    rw [hset, hr]
    show r + (m.framesFailed + 1) = r + m.framesFailed + 1
    omega
  · obtain ⟨r, hr, hset⟩ := Tally.exists_remainder (fun _ => StageMetrics.framesDropped) hm
    rw [hset, hr, StageMetrics.countFailed]

/-- A processed frame is exported if its stage is the last one. -/
theorem counters_of_countProcessed (hm : s.metrics[i]? = some m)
    (h : s'.metrics = s.metrics.set i m.countProcessed) :
    s'.exported = s.exported + (if i + 1 < s.metrics.length then 0 else 1) ∧
      s'.failed = s.failed ∧ s'.dropped = s.dropped := by
  have hi := (List.getElem?_eq_some_iff.mp hm).1
  simp only [PipelineState.exported, PipelineState.failed, PipelineState.dropped, h,
    List.length_set]
  refine ⟨?_, ?_, ?_⟩
  · rw [List.getElem?_set]
    by_cases hlast : i = s.metrics.length - 1
    · rw [if_pos hlast, if_pos hi, if_neg (by omega), ← hlast, hm]
      rfl
    · rw [if_neg hlast, if_pos (by omega), add_zero]
  · obtain ⟨r, hr, hset⟩ := Tally.exists_remainder (fun _ => StageMetrics.framesFailed) hm
    rw [hset, hr, StageMetrics.countProcessed]
  · obtain ⟨r, hr, hset⟩ := Tally.exists_remainder (fun _ => StageMetrics.framesDropped) hm
    rw [hset, hr, StageMetrics.countProcessed]

/-- The frames in flight after a move. -/
theorem inFlight_of_moved {frame : α} {src dst : Option Place} (h : Moved s s' frame src dst) :
    s.inFlight + flightWeight dst = s'.inFlight + flightWeight src := by
  have hweight : ∀ place : Option Place,
      weightAt (fun p _ => flightWeight (some p)) place frame = flightWeight place := by
    intro place
    cases place <;> rfl
  obtain ⟨r, hr, hr'⟩ := h.split fun place _ => flightWeight (some place)
  rw [PipelineState.inFlight, PipelineState.inFlight, hr, hr', hweight, hweight]
  omega

end Counters

/-! ### The balance -/

/-- Accepted frames are in flight or accounted for; no queue has dropped any, and nothing is
discarded before `Stop`. -/
structure Balanced (actions : List (Action α)) (s : PipelineState α) : Prop where
  balance : accepted actions =
    s.exported + s.failed + s.dropped + discarded actions + s.inFlight
  noDrops : ∀ d ∈ s.dropCounts, d = 0
  order : StopOrder s
  kept : s.running = true → discarded actions = 0

theorem accepted_append (actions : List (Action α)) (a : Action α) :
    accepted (actions ++ [a]) = accepted actions + if a.isEnter then 1 else 0 := by
  rw [accepted, List.countP_append, List.countP_singleton]
  rfl

theorem discarded_append (actions : List (Action α)) (a : Action α) :
    discarded (actions ++ [a]) = discarded actions + if a.isDiscard then 1 else 0 := by
  rw [discarded, List.countP_append, List.countP_singleton]
  rfl

theorem balanced_start (cfg : LineConfig) : Balanced [] (cfg.start : PipelineState α) := by
  have hmetrics : (cfg.start : PipelineState α).metrics = cfg.stages.map fun _ => {} := by
    rw [PipelineState.metrics, LineConfig.start, List.map_map]
    rfl
  have hexported : (cfg.start : PipelineState α).exported = 0 := by
    rw [PipelineState.exported, hmetrics, List.getElem?_map]
    cases cfg.stages[(cfg.stages.map fun _ => ({} : StageMetrics)).length - 1]? <;> rfl
  have hfailed : (cfg.start : PipelineState α).failed = 0 := by
    refine Tally.indexed_eq_zero fun _ m hm => ?_
    rw [hmetrics] at hm
    obtain ⟨-, -, rfl⟩ := List.mem_map.mp (List.mem_of_getElem? hm)
    rfl
  have hdropped : (cfg.start : PipelineState α).dropped = 0 := by
    refine Tally.indexed_eq_zero fun _ m hm => ?_
    rw [hmetrics] at hm
    obtain ⟨-, -, rfl⟩ := List.mem_map.mp (List.mem_of_getElem? hm)
    rfl
  have hflight : (cfg.start : PipelineState α).inFlight = 0 := total_start cfg _
  refine ⟨?_, fun d hd => ?_, fun _ => ⟨rfl, rfl⟩, fun _ => rfl⟩
  · rw [hexported, hfailed, hdropped, hflight]
    rfl
  · simp only [PipelineState.dropCounts, LineConfig.start, List.map_map, List.mem_map] at hd
    obtain ⟨-, -, rfl⟩ := hd
    rfl

/-- A move keeps the balance when what it adds to the counters, to the discarded frames and
to the frames in flight is what it takes from the accepted ones and those in flight. -/
private theorem balanced_of_moved {actions : List (Action α)} {s s' : PipelineState α}
    {a : Action α} {frame : α} {src dst : Option Place} {n : ℕ} (h : Balanced actions s)
    (moved : Moved s s' frame src dst)
    (hcounters : s'.exported + s'.failed + s'.dropped = s.exported + s.failed + s.dropped + n)
    (hweights : n + (if a.isDiscard then 1 else 0) + flightWeight dst =
      (if a.isEnter then 1 else 0) + flightWeight src)
    (hdiscard : a.isDiscard = true → s.running = false) : Balanced (actions ++ [a]) s' := by
  have hflight := inFlight_of_moved moved
  have hbalance := h.balance
  refine ⟨?_, fun d hd => h.noDrops d (moved.dropCounts ▸ hd), ?_, fun hrunning => ?_⟩
  · rw [accepted_append, discarded_append]
    omega
  · rw [StopOrder, moved.running, moved.stopsSent, moved.toDrain]
    exact h.order
  · rw [moved.running] at hrunning
    have hkeep : a.isDiscard ≠ true := fun ha => by simp [hdiscard ha] at hrunning
    rw [discarded_append, h.kept hrunning, if_neg hkeep]

theorem balanced_step {cfg : LineConfig} {actions : List (Action α)} {s s' : PipelineState α}
    {a : Action α} (h : Balanced actions s) (hs : step cfg s a = some s') :
    Balanced (actions ++ [a]) s' := by
  have hquiet : s'.metrics = s.metrics →
      s'.exported + s'.failed + s'.dropped = s.exported + s.failed + s.dropped + 0 := by
    intro hmetrics
    obtain ⟨he, hf, hd⟩ := counters_of_metrics_eq hmetrics
    rw [he, hf, hd, add_zero]
  cases step_effect hs with
  | submit moved _ metrics _ => exact balanced_of_moved h moved (hquiet metrics) rfl nofun
  | enter moved _ metrics => exact balanced_of_moved h moved (hquiet metrics) rfl nofun
  | dequeue moved _ metrics => exact balanced_of_moved h moved (hquiet (metrics h.noDrops)) rfl nofun
  | takeImage _ _ _ moved _ metrics => exact balanced_of_moved h moved (hquiet metrics) rfl nofun
  | @failed _ _ _ wasExporting _ moved _ metrics_eq metrics =>
    obtain ⟨he, hf, hd⟩ := counters_of_countFailed metrics_eq metrics
    refine balanced_of_moved (n := 1) h moved (by omega) ?_ nofun
    cases wasExporting <;> rfl
  | @passed _ _ _ wasExporting _ _ _ moved _ metrics =>
    refine balanced_of_moved h moved (hquiet metrics) ?_ nofun
    cases wasExporting <;> rfl
  | @publish _ worker _ _ _ _ _ moved _ metrics_eq metrics =>
    obtain ⟨he, hf, hd⟩ := counters_of_countProcessed metrics_eq metrics
    refine balanced_of_moved (n := if worker.stage + 1 < s.metrics.length then 0 else 1) h moved
      (by omega) ?_ nofun
    by_cases hlast : worker.stage + 1 < s.metrics.length
    · rw [if_pos hlast, if_pos hlast]
      rfl
    · rw [if_neg hlast, if_neg hlast]
      rfl
  | deliver moved _ metrics => exact balanced_of_moved h moved (hquiet metrics) rfl nofun
  | abandon moved _ metrics stopped =>
    refine balanced_of_moved h moved (hquiet metrics) rfl fun _ => ?_
    cases hrunning : s.running with
    | false => rfl
    | true => have hsent := (h.order hrunning).1; omega
  | forceDrain moved _ metrics stopped =>
    refine balanced_of_moved h moved (hquiet metrics) rfl fun _ => ?_
    cases hrunning : s.running with
    | false => rfl
    | true => simp [(h.order hrunning).2] at stopped
  | control is_control total running stop_order dropCounts _ metrics =>
    have hflight : s'.inFlight = s.inFlight := total _
    have hcounters := hquiet metrics
    have hbalance := h.balance
    have hother : a.isEnter = false ∧ a.isDiscard = false := by
      cases a <;> first | exact ⟨rfl, rfl⟩ | cases is_control
    refine ⟨?_, fun d hd => h.noDrops d (dropCounts ▸ hd), stop_order h.order, fun hrunning => ?_⟩
    · rw [accepted_append, discarded_append, hother.1, hother.2]
      simp only [Bool.false_eq_true, if_false]
      omega
    · rw [discarded_append, h.kept (running hrunning), hother.2]
      rfl

/-! ### After the workers have left -/

/-- Once the workers are joined, all have left, and a queue `Drain` is done with is empty,
but for the entry queue, which late calls of `Submit` still push to. -/
def Joined (s : PipelineState α) : Prop :=
  ∀ rest, s.toDrain = some rest → s.running = false ∧
    (∀ worker ∈ s.workers, worker.phase = .exited) ∧
    ∀ i node, s.nodes[i]? = some node → i ≠ 0 → i ∉ rest → node.queue.items = []

theorem joined_step {cfg : LineConfig} {s s' : PipelineState α} {a : Action α} (h : Joined s)
    (hs : step cfg s a = some s') : Joined s' := by
  intro rest hrest
  -- a worker's step needs a worker that has not left
  have hworker : ∀ w, a.worker? = some w → s.toDrain ≠ some rest := by
    intro w hw hdrain
    obtain ⟨worker, hmem, hawake⟩ := awake_of_step hs hw
    exact hawake ((h rest hdrain).2.1 worker hmem)
  cases stepTo_of_step hs with
  | submit running =>
    rw [(h rest hrest).1] at running
    cases running
  | enter =>
    obtain ⟨hstopped, hexited, hempty⟩ := h rest hrest
    refine ⟨hstopped, hexited, fun i node' hnode' hi => hempty i node' ?_ hi⟩
    rwa [PipelineState.setNode, List.getElem?_set_ne hi.symm] at hnode'
  | dequeue => exact absurd hrest (hworker _ rfl)
  | takeImage => exact absurd hrest (hworker _ rfl)
  | failed => exact absurd hrest (hworker _ rfl)
  | passed => exact absurd ((sameFrames_processed s _ _ _ _).toDrain ▸ hrest) (hworker _ rfl)
  | publish => exact absurd ((sameFrames_published s _ _ _ _).toDrain ▸ hrest) (hworker _ rfl)
  | deliver => exact absurd hrest (hworker _ rfl)
  | abandon => exact absurd hrest (hworker _ rfl)
  | exit => exact absurd hrest (hworker _ rfl)
  | beginStop running =>
    rw [(h rest hrest).1] at running
    cases running
  | requestStop => exact h rest hrest
  | join hstopped _ _ hexited hperm =>
    obtain rfl := Option.some.inj hrest
    refine ⟨hstopped, hexited, fun i node hnode _ hnot => ?_⟩
    have hlt := (List.getElem?_eq_some_iff.mp hnode).1
    exact absurd (hperm.mem_iff.mpr (List.mem_range.mpr hlt)) hnot
  | @forceDrain i rest' _ _ _ hdrain =>
    obtain rfl := Option.some.inj (hdrain.symm.trans hrest)
    obtain ⟨hstopped, hexited, hempty⟩ := h _ hdrain
    refine ⟨hstopped, hexited, fun j node' hnode' hj hnot => hempty j node' ?_ hj hnot⟩
    rwa [PipelineState.setNode, List.getElem?_set_ne (List.ne_of_not_mem_cons hnot).symm]
      at hnode'
  | @drained i rest' node hdrain hnode hnone =>
    obtain rfl := Option.some.inj hrest
    obtain ⟨hstopped, hexited, hempty⟩ := h _ hdrain
    refine ⟨hstopped, hexited, fun j node' hnode' hj hnot => ?_⟩
    by_cases hji : j = i
    · subst hji
      obtain rfl := Option.some.inj (hnode.symm.trans hnode')
      exact hnone
    · exact hempty j node' hnode' hj (List.not_mem_cons_of_ne_of_not_mem hji hnot)

theorem joined_start (cfg : LineConfig) : Joined (cfg.start : PipelineState α) := nofun

/-- When `Stop` has drained every queue, only late submissions are left. -/
theorem Joined.inFlight_eq {s : PipelineState α} (h : Joined s) (hs : s.toDrain = some []) :
    s.inFlight = s.atEntry := by
  obtain ⟨-, hexited, hempty⟩ := h [] hs
  have hsubmitting : (s.submitting.map fun _ => flightWeight (some .submitting)).sum = 0 := by
    simp [flightWeight]
  have hworkers : Tally.indexed
      (fun _ => Worker.weight fun place _ => flightWeight (some place)) s.workers = 0 := by
    refine Tally.indexed_eq_zero fun w worker hworker => ?_
    rw [Worker.weight, Worker.load, hexited worker (List.mem_of_getElem? hworker)]
    rfl
  have hnodes : Tally.indexed
      (StageNode.weight fun place _ => flightWeight (some place)) s.nodes = s.atEntry := by
    rw [Tally.indexed_eq_head, PipelineState.atEntry]
    · cases s.nodes[0]? with
      | none => rfl
      | some node => simp [StageNode.weight, flightWeight, StageQueue.depth]
    · intro i node hnode hi
      rw [StageNode.weight, hempty i node hnode hi (List.not_mem_nil)]
      rfl
  rw [PipelineState.inFlight, PipelineState.total, hsubmitting, hworkers, hnodes]
  omega

/-- In every run the accepted frames are those exported, failed, dropped, discarded and in
flight; nothing is discarded before `Stop`, and when it returns only frames submitted late
are left, in the entry queue. -/
theorem frames_conserved (cfg : LineConfig) {actions : List (Action α)} {s : PipelineState α}
    (h : Transition.run (step cfg) cfg.start actions = some s) :
    accepted actions = s.exported + s.failed + s.dropped + discarded actions + s.inFlight ∧
      (s.running = true → discarded actions = 0) ∧
      (s.toDrain = some [] → s.inFlight = s.atEntry) := by
  have hboth : Balanced actions s ∧ Joined s := by
    refine Transition.run_induction (step cfg) (P := fun actions s => Balanced actions s ∧ Joined s)
      ⟨balanced_start cfg, joined_start cfg⟩ ?_ h
    intro actions s a s' hs hstep
    exact ⟨balanced_step hs.1 hstep, joined_step hs.2 hstep⟩
  exact ⟨hboth.1.balance, hboth.1.kept, hboth.2.inFlight_eq⟩

theorem frames_conserved_after_failure : ∃ s,
    Transition.run (step LineConfig.inspection) LineConfig.inspection.start
      [.submit 1, .enter 0, .dequeue 0, .process 0 .failed] = some s ∧ s.failed = 1 ∧
    accepted [.submit 1, .enter 0, .dequeue 0, .process 0 .failed] =
      s.exported + s.failed + s.dropped + 0 + s.inFlight :=
  ⟨_, rfl, rfl, (frames_conserved (s := _) LineConfig.inspection rfl).1⟩

/-- The worker of the first stage is the last to leave. -/
def drainedAwayRun : List (Action ℕ) :=
  [.submit 1, .enter 0, .dequeue 0, .process 0 (.passed false), .publish 0, .beginStop] ++
    List.replicate 11 .requestStop ++ ((List.range 10).map fun w => .exit (w + 1)) ++
    [.deliver 0, .exit 0, .join (List.range 7), .drained, .forceDrain] ++
    List.replicate 6 .drained

/-- A frame is delivered to a queue whose workers have left, and drained away uncounted. -/
theorem frame_drained_away : ∃ s,
    Transition.run (step LineConfig.inspection) LineConfig.inspection.start drainedAwayRun =
      some s ∧ s.toDrain = some [] ∧
    accepted drainedAwayRun ≠ s.exported + s.failed + s.dropped :=
  ⟨_, rfl, rfl, by decide⟩

end SurfaceAi.Pipeline
