import SurfaceAi.Pipeline.Channel

/-! Which frame's data the export stage finds. The detector's context waits from `Detect` to
the result callback, the image from the preprocessing worker to the export, the scores from
the detection worker to the end of the export. Each is the frame's own as long as the next
frame is stored only after the frame has left. -/

namespace SurfaceAi.Pipeline

variable {α : Type} {cfg : LineConfig} {s s' : PipelineState α} {a : Action α}

/-! ### The context offered to the coreset evolution -/

/-- The frame the result callback is run for. -/
def callbackFrame (cfg : LineConfig) (s : PipelineState α) : Action α → Option α
  | .publish w => do
    let worker ← s.workers[w]?
    match worker.phase with
    | .finished frame _ =>
      if cfg.typeAt worker.stage = some .exportStage ∧ cfg.callbackSet then some frame else none
    | _ => none
  | _ => none

/-- The context and the result that `OfferToEvolution` passes on for a frame; nothing while
the context is empty. -/
def PipelineState.offerToEvolution (s : PipelineState α) (frame : α) : Option (α × α) :=
  s.slots.lastCtx.map fun ctx => (ctx, frame)

/-- From `Detect` to the callback. -/
def contextStretch (cfg : LineConfig) : Place → Bool :=
  stretch cfg .detect Place.processed Place.published

/-- `Detect` succeeds, and no other frame is between its `Detect` and its callback. -/
def DetectsAlone (cfg : LineConfig) (s : PipelineState α) : Action α → Prop
  | .process w (.passed data) => ∀ worker ∈ s.workers[w]?, cfg.typeAt worker.stage = some .detect →
      ∀ p ∈ worker.load, data = true ∧ s.AloneAt (contextStretch cfg) p.1 p.2
  | _ => True

instance DetectsAlone.decidable [DecidableEq α] (cfg : LineConfig) (s : PipelineState α) :
    ∀ a : Action α, Decidable (DetectsAlone cfg s a)
  | .process w (.passed data) => by unfold DetectsAlone PipelineState.AloneAt; infer_instance
  | .process _ .failed | .submit _ | .enter _ | .dequeue _ | .takeImage _ | .publish _
  | .deliver _ | .abandon _ | .exit _ | .beginStop | .requestStop | .join _ | .forceDrain
  | .drained => .isTrue trivial

theorem steady_contextStretch : Steady (contextStretch cfg) :=
  ⟨rfl, rfl, fun _ => rfl, fun _ => rfl⟩

theorem paired_context_step (h : Paired (contextStretch cfg) Slots.lastCtx s)
    (hguard : DetectsAlone cfg s a) (hs : step cfg s a = some s') :
    Paired (contextStretch cfg) Slots.lastCtx s' := by
  cases step_effect hs with
  | takeImage _ _ _ moved slots =>
    refine h.of_moved moved (by rw [slots]; rfl) ?_
    rintro _ ⟨⟩
    exact ⟨id, le_rfl⟩
  | @passed w worker frame wasExporting data worker_eq in_process moved slots =>
    rw [← takesImage_of_inProcess in_process] at moved slots
    have hload := load_of_inProcess in_process
    by_cases hdetect : cfg.typeAt worker.stage = some .detect
    · have htakes : PipelineState.takesImage cfg worker = false := by
        simp [PipelineState.takesImage, hdetect]
      rw [htakes] at moved slots
      rw [← takesImage_of_inProcess in_process, htakes] at hload
      obtain ⟨hdata, halone⟩ := hguard worker worker_eq hdetect (.taken worker.stage, frame) hload
      refine paired_of_stored moved halone ?_
      rw [slots, PipelineState.processed, if_neg Bool.false_ne_true, if_pos ⟨hdetect, hdata⟩]
      rfl
    · refine h.of_moved moved ?_ ?_
      · rw [slots]
        simp only [PipelineState.processed, hdetect, false_and, if_false]
        split_ifs <;> rfl
      · rintro _ ⟨⟩
        refine ⟨fun hseen => ?_, ?_⟩
        · cases PipelineState.takesImage cfg worker <;> exact LineConfig.seen_of_succ hdetect hseen
        · cases PipelineState.takesImage cfg worker <;> exact le_rfl
  | @publish w worker frame data _ _ _ moved slots =>
    refine h.of_moved moved ?_ ?_
    · rw [slots]
      unfold PipelineState.published
      split_ifs <;> rfl
    · intro q hq
      split_ifs at hq
      obtain rfl := Option.some.inj hq
      exact ⟨id, Nat.le_succ _⟩
  | control is_control => exact h.of_step steady_contextStretch hs (usesSlots_of_isControl is_control)
  | _ => exact h.of_step steady_contextStretch hs rfl

theorem typeAt_of_takesImage {worker : Worker α}
    (h : PipelineState.takesImage cfg worker = true) :
    cfg.typeAt worker.stage = some .exportStage := by
  simp only [PipelineState.takesImage, decide_eq_true_eq] at h
  exact h.1

/-- In every run in which each frame is detected alone, the callback for a frame offers the
context of that frame. -/
theorem offered_context_own (hfeeds : cfg.FeedsExport .detect)
    (h : Transition.Reachable (step cfg) (DetectsAlone cfg) cfg.start s) {frame : α}
    (hcallback : callbackFrame cfg s a = some frame) :
    s.offerToEvolution frame = some (frame, frame) := by
  have hpaired : Paired (contextStretch cfg) Slots.lastCtx s :=
    h.invariant (paired_start cfg) fun _ _ _ => paired_context_step
  cases a with
  | publish w =>
    simp only [callbackFrame, Option.bind_eq_bind, Option.bind_eq_some_iff] at hcallback
    obtain ⟨⟨stage, phase⟩, hworker, hcallback⟩ := hcallback
    cases phase with
    | finished f data =>
      simp only [Option.ite_none_right_eq_some, Option.some.injEq] at hcallback
      obtain ⟨⟨hexport, -⟩, rfl⟩ := hcallback
      obtain ⟨hdetect, hfirst⟩ := hfeeds stage hexport
      have hin : contextStretch cfg (.finished stage) = true :=
        stretch_eq_true.mpr ⟨LineConfig.seen_mono (Nat.le_succ _) hdetect, hfirst⟩
      have hctx := (hpaired f (mem_framesIn hworker rfl hin)).2
      rw [PipelineState.offerToEvolution, hctx, Option.map_some]
    | _ => cases hcallback
  | _ => cases hcallback

/-- A worker takes a frame through its stage. -/
def serve (w : ℕ) (data : Bool) : List (Action ℕ) :=
  [.dequeue w, .process w (.passed data), .publish w, .deliver w]

/-- A submitted frame is detected. -/
def detectRun (frame : ℕ) : List (Action ℕ) :=
  [.submit frame, .enter 0] ++ serve 0 false ++ serve 2 true ++ serve 4 false ++ serve 5 true

/-- The first detected frame is judged and reaches the export worker. -/
def judgeRun : List (Action ℕ) := serve 6 false ++ serve 8 false ++ [.dequeue 10]

/-- It is exported. -/
def exportRun : List (Action ℕ) := judgeRun ++ [.takeImage 10, .process 10 (.passed false)]

theorem offered_context_own_single : ∃ s : PipelineState ℕ,
    Transition.run (step LineConfig.inspection) LineConfig.inspection.start
      (detectRun 1 ++ exportRun) = some s ∧ s.offerToEvolution 1 = some (1, 1) := by
  refine ⟨_, rfl, ?_⟩
  have hfeeds : LineConfig.inspection.FeedsExport .detect := by decide
  refine offered_context_own (a := .publish 10) hfeeds ?_ (by decide)
  exact Transition.Reachable.of_run _ (detectRun 1 ++ exportRun) (by decide)

/-- A second frame is detected before the callback of the first one, whose verdict is then
offered with the second one's context. -/
theorem offered_context_other : ∃ s : PipelineState ℕ,
    Transition.run (step LineConfig.inspection) LineConfig.inspection.start
      (detectRun 1 ++ detectRun 2 ++ exportRun) = some s ∧
    callbackFrame LineConfig.inspection s (.publish 10) = some 1 ∧
    s.offerToEvolution 1 = some (2, 1) :=
  ⟨_, rfl, rfl, rfl⟩

/-! ### The image and the scores of the export -/

/-- From `SetFrameImage` to `TakeFrameImage`. -/
def imageStretch (cfg : LineConfig) : Place → Bool :=
  stretch cfg .preprocess Place.published Place.imageDone

/-- From `SetAnomalyScores` to `TakeAnomalyScores`. -/
def scoreStretch (cfg : LineConfig) : Place → Bool :=
  stretch cfg .detect Place.published Place.processed

/-- The result a worker is about to publish, and whether it carries data to store. -/
def Worker.result (worker : Worker α) : Option (α × Bool) :=
  match worker.phase with
  | .finished frame data => some (frame, data)
  | _ => none

/-- A worker that stores has something to store, and no other frame waits with its own. -/
def StoresAlone (cfg : LineConfig) (s : PipelineState α) : Action α → Prop
  | .publish w => ∀ worker ∈ s.workers[w]?, ∀ r ∈ worker.result,
      (cfg.typeAt worker.stage = some .preprocess →
        r.2 = true ∧ s.AloneAt (imageStretch cfg) (.finished worker.stage) r.1) ∧
      (cfg.typeAt worker.stage = some .detect →
        r.2 = true ∧ s.AloneAt (scoreStretch cfg) (.finished worker.stage) r.1)
  | _ => True

instance StoresAlone.decidable [DecidableEq α] (cfg : LineConfig) (s : PipelineState α) :
    ∀ a : Action α, Decidable (StoresAlone cfg s a)
  | .publish w => by unfold StoresAlone PipelineState.AloneAt; infer_instance
  | .process .. | .submit _ | .enter _ | .dequeue _ | .takeImage _ | .deliver _ | .abandon _
  | .exit _ | .beginStop | .requestStop | .join _ | .forceDrain | .drained => .isTrue trivial

theorem steady_imageStretch : Steady (imageStretch cfg) :=
  ⟨rfl, rfl, fun _ => rfl, fun _ => rfl⟩

theorem steady_scoreStretch : Steady (scoreStretch cfg) :=
  ⟨rfl, rfl, fun _ => rfl, fun _ => rfl⟩

/-- The place of a publishing worker's frame afterwards. -/
private theorem publish_of_ite {c : Prop} [Decidable c] {i : ℕ} {q : Place}
    (h : (if c then some (Place.delivering i) else none) = some q) : q = .delivering i := by
  split_ifs at h
  exact (Option.some.inj h).symm

theorem paired_image_step (hfeeds : cfg.FeedsExport .preprocess)
    (h : Paired (imageStretch cfg) Slots.frameImage s) (hguard : StoresAlone cfg s a)
    (hs : step cfg s a = some s') : Paired (imageStretch cfg) Slots.frameImage s' := by
  cases step_effect hs with
  | @takeImage w worker frame worker_eq phase takes moved slots =>
    have hexport := typeAt_of_takesImage takes
    refine h.of_taken moved (stretch_eq_true.mpr (hfeeds worker.stage hexport)) ?_
    rintro _ ⟨⟩
    refine stretch_eq_false ?_
    rw [Place.imageDone, LineConfig.seen_succ, hexport, decide_eq_true rfl, Bool.or_true]
  | @passed w worker frame wasExporting data worker_eq in_process moved slots =>
    refine h.of_moved moved ?_ ?_
    · rw [slots]
      unfold PipelineState.processed
      split_ifs <;> rfl
    · rintro _ ⟨⟩
      cases wasExporting with
      | false => exact ⟨id, Nat.le_succ _⟩
      | true => exact ⟨id, le_rfl⟩
  | @publish w worker frame data m worker_eq phase moved slots =>
    by_cases hpre : cfg.typeAt worker.stage = some .preprocess
    · have hresult : worker.result = some (frame, data) := by rw [Worker.result, phase]
      obtain ⟨hdata, halone⟩ := (hguard worker worker_eq (frame, data) hresult).1 hpre
      refine paired_of_stored moved halone ?_
      rw [slots, PipelineState.published, if_pos ⟨hpre, hdata⟩]
      rfl
    · refine h.of_moved moved ?_ fun q hq => ?_
      · rw [slots]
        simp only [PipelineState.published, hpre, false_and, if_false]
        split_ifs <;> rfl
      · obtain rfl := publish_of_ite hq
        exact ⟨LineConfig.seen_of_succ hpre, le_rfl⟩
  | control is_control => exact h.of_step steady_imageStretch hs (usesSlots_of_isControl is_control)
  | _ => exact h.of_step steady_imageStretch hs rfl

theorem paired_score_step (hfeeds : cfg.FeedsExport .detect)
    (h : Paired (scoreStretch cfg) Slots.anomaly s) (hguard : StoresAlone cfg s a)
    (hs : step cfg s a = some s') : Paired (scoreStretch cfg) Slots.anomaly s' := by
  cases step_effect hs with
  | takeImage _ _ _ moved slots =>
    refine h.of_moved moved (by rw [slots]; rfl) ?_
    rintro _ ⟨⟩
    exact ⟨id, le_rfl⟩
  | @passed w worker frame wasExporting data worker_eq in_process moved slots =>
    cases wasExporting with
    | false =>
      refine h.of_moved moved ?_ ?_
      · rw [slots, PipelineState.processed, if_neg Bool.false_ne_true]
        split_ifs <;> rfl
      · rintro _ ⟨⟩
        exact ⟨id, Nat.le_succ _⟩
    | true =>
      have hexport := typeAt_of_takesImage (takesImage_of_inProcess in_process)
      refine h.of_taken moved (stretch_eq_true.mpr (hfeeds worker.stage hexport)) ?_
      rintro _ ⟨⟩
      refine stretch_eq_false ?_
      rw [Place.processed, LineConfig.seen_succ, hexport, decide_eq_true rfl, Bool.or_true]
  | @publish w worker frame data m worker_eq phase moved slots =>
    by_cases hdetect : cfg.typeAt worker.stage = some .detect
    · have hresult : worker.result = some (frame, data) := by rw [Worker.result, phase]
      obtain ⟨hdata, halone⟩ := (hguard worker worker_eq (frame, data) hresult).2 hdetect
      refine paired_of_stored moved halone ?_
      have hpre : ¬(cfg.typeAt worker.stage = some .preprocess ∧ data = true) := by
        rw [hdetect]
        simp
      rw [slots, PipelineState.published, if_neg hpre, if_pos ⟨hdetect, hdata⟩]
      rfl
    · refine h.of_moved moved ?_ fun q hq => ?_
      · rw [slots]
        simp only [PipelineState.published, hdetect, false_and, if_false]
        split_ifs <;> rfl
      · obtain rfl := publish_of_ite hq
        exact ⟨LineConfig.seen_of_succ hdetect, le_rfl⟩
  | control is_control => exact h.of_step steady_scoreStretch hs (usesSlots_of_isControl is_control)
  | _ => exact h.of_step steady_scoreStretch hs rfl

/-- In every run in which images and scores are stored alone, an export takes the image and
the scores of its own frame. -/
theorem export_data_own (himage : cfg.FeedsExport .preprocess) (hscore : cfg.FeedsExport .detect)
    (h : Transition.Reachable (step cfg) (StoresAlone cfg) cfg.start s) {w : ℕ}
    {worker : Worker α} {frame : α} (hworker : s.workers[w]? = some worker)
    (htakes : PipelineState.takesImage cfg worker = true) :
    (worker.phase = .taken frame → s.takeFrameImage.1 = some frame) ∧
      (worker.phase = .exporting frame → s.takeAnomalyScores.1 = some frame) := by
  have himages : Paired (imageStretch cfg) Slots.frameImage s :=
    h.invariant (paired_start cfg) fun _ _ _ => paired_image_step himage
  have hscores : Paired (scoreStretch cfg) Slots.anomaly s :=
    h.invariant (paired_start cfg) fun _ _ _ => paired_score_step hscore
  have hexport := typeAt_of_takesImage htakes
  refine ⟨fun hphase => ?_, fun hphase => ?_⟩
  · have hload : worker.load = some (.taken worker.stage, frame) := by rw [Worker.load, hphase]
    have hin : imageStretch cfg (.taken worker.stage) = true :=
      stretch_eq_true.mpr (himage worker.stage hexport)
    exact (himages frame (mem_framesIn hworker hload hin)).2
  · have hload : worker.load = some (.exporting worker.stage, frame) := by
      rw [Worker.load, hphase]
    have hin : scoreStretch cfg (.exporting worker.stage) = true :=
      stretch_eq_true.mpr (hscore worker.stage hexport)
    exact (hscores frame (mem_framesIn hworker hload hin)).2

theorem export_data_own_single : ∃ s : PipelineState ℕ,
    Transition.run (step LineConfig.inspection) LineConfig.inspection.start
      (detectRun 1 ++ judgeRun) = some s ∧ s.takeFrameImage.1 = some 1 := by
  refine ⟨_, rfl, ?_⟩
  have himage : LineConfig.inspection.FeedsExport .preprocess := by decide
  have hscore : LineConfig.inspection.FeedsExport .detect := by decide
  refine (export_data_own himage hscore ?_ (w := 10) rfl rfl).1 rfl
  exact Transition.Reachable.of_run _ (detectRun 1 ++ judgeRun) (by decide)

/-- A second frame is stored before the first one is exported, with the second one's image. -/
theorem export_data_other : ∃ s : PipelineState ℕ,
    Transition.run (step LineConfig.inspection) LineConfig.inspection.start
      (detectRun 1 ++ detectRun 2 ++ judgeRun) = some s ∧
    s.workers[10]? = some ⟨6, .taken 1⟩ ∧
    PipelineState.takesImage LineConfig.inspection (⟨6, .taken 1⟩ : Worker ℕ) = true ∧
    s.takeFrameImage.1 = some 2 :=
  ⟨_, rfl, rfl, rfl, rfl⟩

end SurfaceAi.Pipeline
