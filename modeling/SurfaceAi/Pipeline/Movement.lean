import SurfaceAi.Library.Tally
import SurfaceAi.Pipeline.System
import Mathlib.Tactic.Abel

/-! What a step does to the frames in the pipeline. Every frame stands at a place: with a
caller of `Submit`, in a queue, or with a worker. A step moves at most one frame from one
place to another; whatever is summed over the frames by their places changes by that
frame alone. -/

namespace SurfaceAi.Pipeline

inductive Place where
  | submitting
  | queued (stage : ℕ)
  | taken (stage : ℕ)
  | exporting (stage : ℕ)
  | finished (stage : ℕ)
  | delivering (stage : ℕ)
  deriving DecidableEq

/-- The frame a worker holds, with its place. -/
def Worker.load {α : Type} (worker : Worker α) : Option (Place × α) :=
  match worker.phase with
  | .waiting => none
  | .taken frame => some (.taken worker.stage, frame)
  | .exporting frame => some (.exporting worker.stage, frame)
  | .finished frame _ => some (.finished worker.stage, frame)
  | .delivering frame => some (.delivering worker.stage, frame)
  | .exited => none

section Totals

variable {α M : Type} [AddCommMonoid M] (φ : Place → α → M)

def Worker.weight (worker : Worker α) : M := worker.load.elim 0 fun l => φ l.1 l.2

def StageNode.weight (i : ℕ) (node : StageNode α) : M := (node.queue.items.map (φ (.queued i))).sum

/-- The sum over all frames in the pipeline. -/
def PipelineState.total (s : PipelineState α) : M :=
  (s.submitting.map (φ .submitting)).sum + Tally.indexed (StageNode.weight φ) s.nodes +
    Tally.indexed (fun _ => Worker.weight φ) s.workers

/-- The term of one frame, zero outside the pipeline. -/
def weightAt (place : Option Place) (frame : α) : M := place.elim 0 fun p => φ p frame

@[simp] theorem weightAt_none (frame : α) : weightAt φ none frame = 0 := rfl

@[simp] theorem weightAt_some (p : Place) (frame : α) : weightAt φ (some p) frame = φ p frame := rfl

end Totals

namespace PipelineState

variable {α : Type} (s : PipelineState α)

def metrics : List StageMetrics := s.nodes.map StageNode.metrics

/-- How many items each queue has dropped. -/
def dropCounts : List ℕ := s.nodes.map fun node => node.queue.droppedCount

end PipelineState

/-- `Stop` has not gone on. -/
structure SameControl {α : Type} (s s' : PipelineState α) : Prop where
  running : s'.running = s.running
  stopsSent : s'.stopsSent = s.stopsSent
  toDrain : s'.toDrain = s.toDrain

/-- Workers are told to stop, and queues drained, only after `Stop` has begun. -/
def StopOrder {α : Type} (s : PipelineState α) : Prop :=
  s.running = true → s.stopsSent = 0 ∧ s.toDrain = none

/-- One frame has gone from one place to another, or into the pipeline or out of it. -/
structure Moved {α : Type} (s s' : PipelineState α) (frame : α) (src dst : Option Place) :
    Prop extends SameControl s s' where
  split : ∀ {M : Type} [AddCommMonoid M] (φ : Place → α → M), ∃ r,
    s.total φ = r + weightAt φ src frame ∧ s'.total φ = r + weightAt φ dst frame
  dropCounts : s'.dropCounts = s.dropCounts

/-! ### Replacing a node or a worker -/

section Split

variable {α M : Type} [AddCommMonoid M] (φ : Place → α → M) {s : PipelineState α}

theorem exists_total_setWorker {w : ℕ} {worker : Worker α} (h : s.workers[w]? = some worker) :
    ∃ r, s.total φ = r + worker.weight φ ∧
      ∀ worker', (s.setWorker w worker').total φ = r + worker'.weight φ := by
  obtain ⟨r, hr, hset⟩ := Tally.exists_remainder (fun _ => Worker.weight φ) h
  refine ⟨(s.submitting.map (φ .submitting)).sum + Tally.indexed (StageNode.weight φ) s.nodes + r,
    ?_, fun worker' => ?_⟩
  · rw [PipelineState.total, hr]
    abel
  · simp only [PipelineState.total, PipelineState.setWorker, hset]
    abel

theorem exists_total_setNode {i : ℕ} {node : StageNode α} (h : s.nodes[i]? = some node) :
    ∃ r, s.total φ = r + node.weight φ i ∧
      ∀ node', (s.setNode i node').total φ = r + node'.weight φ i := by
  obtain ⟨r, hr, hset⟩ := Tally.exists_remainder (StageNode.weight φ) h
  refine ⟨(s.submitting.map (φ .submitting)).sum + r +
    Tally.indexed (fun _ => Worker.weight φ) s.workers, ?_, fun node' => ?_⟩
  · rw [PipelineState.total, hr]
    abel
  · simp only [PipelineState.total, PipelineState.setNode, hset]
    abel

theorem exists_total_setNode_setWorker {i w : ℕ} {node : StageNode α} {worker : Worker α}
    (hnode : s.nodes[i]? = some node) (hworker : s.workers[w]? = some worker) :
    ∃ r, s.total φ = r + (node.weight φ i + worker.weight φ) ∧
      ∀ node' worker', ((s.setNode i node').setWorker w worker').total φ =
        r + (node'.weight φ i + worker'.weight φ) := by
  obtain ⟨r, hr, hset⟩ := Tally.exists_remainder (StageNode.weight φ) hnode
  obtain ⟨q, hq, hset'⟩ := Tally.exists_remainder (fun _ => Worker.weight φ) hworker
  refine ⟨(s.submitting.map (φ .submitting)).sum + (r + q), ?_, fun node' worker' => ?_⟩
  · rw [PipelineState.total, hr, hq]
    abel
  · simp only [PipelineState.total, PipelineState.setNode, PipelineState.setWorker, hset, hset']
    abel

end Split

/-- At the start there is no frame. -/
theorem total_start {α M : Type} [AddCommMonoid M] (cfg : LineConfig) (φ : Place → α → M) :
    cfg.start.total φ = 0 := by
  have hnodes : Tally.indexed (StageNode.weight φ) (cfg.start : PipelineState α).nodes = 0 := by
    refine Tally.indexed_eq_zero fun i node hnode => ?_
    obtain ⟨c, -, rfl⟩ := List.mem_map.mp (List.mem_of_getElem? hnode)
    rfl
  have hworkers :
      Tally.indexed (fun _ => Worker.weight φ) (cfg.start : PipelineState α).workers = 0 := by
    refine Tally.indexed_eq_zero fun _ worker hworker => ?_
    have hmem := List.mem_of_getElem? hworker
    simp only [LineConfig.start, List.mem_flatten, List.mem_mapIdx] at hmem
    obtain ⟨_, ⟨i, _, rfl⟩, hworker⟩ := hmem
    rw [List.eq_of_mem_replicate hworker]
    rfl
  rw [PipelineState.total, hnodes, hworkers]
  simp [LineConfig.start]

/-- Replacing an entry by one with the same image leaves the image of the list. -/
theorem map_set_eq_map {β γ : Type} {f : β → γ} {l : List β} {i : ℕ} {b c : β}
    (h : l[i]? = some b) (hf : f c = f b) : (l.set i c).map f = l.map f := by
  obtain ⟨hi, rfl⟩ := List.getElem?_eq_some_iff.mp h
  rw [List.map_set, hf, ← List.getElem_map f (h := by simpa using hi), List.set_getElem_self]

section Moved

variable {α : Type} {s : PipelineState α} {frame : α} {src dst : Option Place}

theorem Worker.weight_eq {M : Type} [AddCommMonoid M] (φ : Place → α → M) {worker : Worker α}
    (h : worker.load = src.map fun p => (p, frame)) : worker.weight φ = weightAt φ src frame := by
  rw [weight, h]
  cases src <;> rfl

/-- A worker's own step. -/
theorem moved_setWorker {w : ℕ} {worker worker' : Worker α} (h : s.workers[w]? = some worker)
    (hsrc : worker.load = src.map fun p => (p, frame))
    (hdst : worker'.load = dst.map fun p => (p, frame)) :
    Moved s (s.setWorker w worker') frame src dst := by
  refine ⟨⟨rfl, rfl, rfl⟩, fun φ => ?_, rfl⟩
  obtain ⟨r, hr, hset⟩ := exists_total_setWorker φ h
  exact ⟨r, by rw [hr, worker.weight_eq φ hsrc], by rw [hset, worker'.weight_eq φ hdst]⟩

/-- A worker's step that changes the counters of a stage, or its queue. -/
theorem moved_setNode_setWorker {i w : ℕ} {node node' : StageNode α} {worker worker' : Worker α}
    (hnode : s.nodes[i]? = some node) (hworker : s.workers[w]? = some worker)
    (hdrops : node'.queue.droppedCount = node.queue.droppedCount)
    (hsplit : ∀ {M : Type} [AddCommMonoid M] (φ : Place → α → M), ∃ r,
      node.weight φ i + worker.weight φ = r + weightAt φ src frame ∧
        node'.weight φ i + worker'.weight φ = r + weightAt φ dst frame) :
    Moved s ((s.setNode i node').setWorker w worker') frame src dst := by
  refine ⟨⟨rfl, rfl, rfl⟩, fun φ => ?_, map_set_eq_map hnode hdrops⟩
  obtain ⟨r, hr, hset⟩ := exists_total_setNode_setWorker φ hnode hworker
  obtain ⟨q, hq, hq'⟩ := hsplit φ
  exact ⟨r + q, by rw [hr, hq, add_assoc], by rw [hset, hq', add_assoc]⟩

/-- The states hold the same frames at the same places. -/
structure SameFrames (s s₁ : PipelineState α) : Prop extends SameControl s s₁ where
  nodes : s₁.nodes = s.nodes
  workers : s₁.workers = s.workers
  submitting : s₁.submitting = s.submitting

theorem Moved.of_sameFrames {s₁ s' : PipelineState α} (h : SameFrames s s₁)
    (hmoved : Moved s₁ s' frame src dst) : Moved s s' frame src dst := by
  refine ⟨⟨?_, ?_, ?_⟩, fun φ => ?_, ?_⟩
  · rw [hmoved.running, h.running]
  · rw [hmoved.stopsSent, h.stopsSent]
  · rw [hmoved.toDrain, h.toDrain]
  · have htotal : s₁.total φ = s.total φ := by
      simp only [PipelineState.total, h.nodes, h.workers, h.submitting]
    rw [← htotal]
    exact hmoved.split φ
  · rw [hmoved.dropCounts]
    simp only [PipelineState.dropCounts, h.nodes]

theorem sameFrames_processed (s : PipelineState α) (stageType : Option StageType)
    (wasExporting : Bool) (frame : α) (data : Bool) :
    SameFrames s (s.processed stageType wasExporting frame data) := by
  unfold PipelineState.processed
  split_ifs <;> exact ⟨⟨rfl, rfl, rfl⟩, rfl, rfl, rfl⟩

theorem sameFrames_published (s : PipelineState α) (cfg : LineConfig)
    (stageType : Option StageType) (frame : α) (data : Bool) :
    SameFrames s (s.published cfg stageType frame data) := by
  unfold PipelineState.published
  split_ifs <;> exact ⟨⟨rfl, rfl, rfl⟩, rfl, rfl, rfl⟩

end Moved

/-! ### The effect of each step -/

/-- The place of a frame in process. -/
def processPlace (stage : ℕ) (wasExporting : Bool) : Place :=
  if wasExporting then .exporting stage else .taken stage

/-- `Stop` going on: no frame is touched. -/
def Action.isControl {α : Type} : Action α → Bool
  | .exit _ | .beginStop | .requestStop | .join _ | .drained => true
  | _ => false

/-- The worker a step is taken by. -/
def Action.worker? {α : Type} : Action α → Option ℕ
  | .dequeue w | .takeImage w | .process w _ | .publish w | .deliver w | .abandon w
  | .exit w => some w
  | _ => none

/-- What a step does to the frames, the slots and the counters. -/
inductive Effect {α : Type} (cfg : LineConfig) (s s' : PipelineState α) : Action α → Prop where
  | submit {frame : α} (moved : Moved s s' frame none (some .submitting))
      (slots : s'.slots = s.slots) (metrics : s'.metrics = s.metrics)
      (running : s.running = true) : Effect cfg s s' (.submit frame)
  | enter {k : ℕ} {frame : α} (moved : Moved s s' frame (some .submitting) (some (.queued 0)))
      (slots : s'.slots = s.slots) (metrics : s'.metrics = s.metrics) : Effect cfg s s' (.enter k)
  | dequeue {w : ℕ} {worker : Worker α} {frame : α}
      (moved : Moved s s' frame (some (.queued worker.stage)) (some (.taken worker.stage)))
      (slots : s'.slots = s.slots)
      (metrics : (∀ d ∈ s.dropCounts, d = 0) → s'.metrics = s.metrics) :
      Effect cfg s s' (.dequeue w)
  | takeImage {w : ℕ} {worker : Worker α} {frame : α} (worker_eq : s.workers[w]? = some worker)
      (phase : worker.phase = .taken frame) (takes : PipelineState.takesImage cfg worker)
      (moved : Moved s s' frame (some (.taken worker.stage)) (some (.exporting worker.stage)))
      (slots : s'.slots = s.takeFrameImage.2.slots) (metrics : s'.metrics = s.metrics) :
      Effect cfg s s' (.takeImage w)
  | failed {w : ℕ} {worker : Worker α} {frame : α} {wasExporting : Bool} {m : StageMetrics}
      (moved : Moved s s' frame (some (processPlace worker.stage wasExporting)) none)
      (slots : s'.slots = s.slots) (metrics_eq : s.metrics[worker.stage]? = some m)
      (metrics : s'.metrics = s.metrics.set worker.stage m.countFailed) :
      Effect cfg s s' (.process w .failed)
  | passed {w : ℕ} {worker : Worker α} {frame : α} {wasExporting data : Bool}
      (worker_eq : s.workers[w]? = some worker)
      (in_process : PipelineState.inProcess cfg worker = some (frame, wasExporting))
      (moved : Moved s s' frame (some (processPlace worker.stage wasExporting))
        (some (.finished worker.stage)))
      (slots : s'.slots =
        (s.processed (cfg.typeAt worker.stage) wasExporting frame data).slots)
      (metrics : s'.metrics = s.metrics) : Effect cfg s s' (.process w (.passed data))
  | publish {w : ℕ} {worker : Worker α} {frame : α} {data : Bool} {m : StageMetrics}
      (worker_eq : s.workers[w]? = some worker) (phase : worker.phase = .finished frame data)
      (moved : Moved s s' frame (some (.finished worker.stage))
        (if worker.stage + 1 < s.metrics.length then some (.delivering worker.stage) else none))
      (slots : s'.slots = (s.published cfg (cfg.typeAt worker.stage) frame data).slots)
      (metrics_eq : s.metrics[worker.stage]? = some m)
      (metrics : s'.metrics = s.metrics.set worker.stage m.countProcessed) :
      Effect cfg s s' (.publish w)
  | deliver {w : ℕ} {worker : Worker α} {frame : α}
      (moved : Moved s s' frame (some (.delivering worker.stage))
        (some (.queued (worker.stage + 1))))
      (slots : s'.slots = s.slots) (metrics : s'.metrics = s.metrics) : Effect cfg s s' (.deliver w)
  | abandon {w : ℕ} {worker : Worker α} {frame : α}
      (moved : Moved s s' frame (some (.delivering worker.stage)) none)
      (slots : s'.slots = s.slots) (metrics : s'.metrics = s.metrics)
      (stopped : 0 < s.stopsSent) : Effect cfg s s' (.abandon w)
  | forceDrain {i : ℕ} {frame : α} (moved : Moved s s' frame (some (.queued i)) none)
      (slots : s'.slots = s.slots) (metrics : s'.metrics = s.metrics)
      (stopped : s.toDrain.isSome) : Effect cfg s s' .forceDrain
  | control {a : Action α} (is_control : a.isControl) (total : ∀ {M : Type} [AddCommMonoid M]
        (φ : Place → α → M), s'.total φ = s.total φ)
      (running : s'.running = true → s.running = true) (stop_order : StopOrder s → StopOrder s')
      (dropCounts : s'.dropCounts = s.dropCounts) (slots : s'.slots = s.slots)
      (metrics : s'.metrics = s.metrics) : Effect cfg s s' a

section StepEffect

variable {α : Type} {cfg : LineConfig} {s s' : PipelineState α}

private theorem effect_submit {frame : α} (h : StepTo cfg s (.submit frame) s') :
    Effect cfg s s' (.submit frame) := by
  cases h with
  | submit hrunning =>
  refine .submit ⟨⟨rfl, rfl, rfl⟩, fun φ => ⟨s.total φ, ?_, ?_⟩, rfl⟩ rfl rfl hrunning
  · simp
  · simp only [PipelineState.total, List.map_append, List.sum_append, List.map_singleton,
      List.sum_singleton, weightAt_some]
    abel

private theorem effect_enter {k : ℕ} (h : StepTo cfg s (.enter k) s') :
    Effect cfg s s' (.enter k) := by
  cases h with
  | @enter _ frame node hframe hnode =>
  refine @Effect.enter _ _ _ _ _ frame ⟨⟨rfl, rfl, rfl⟩, fun φ => ?_, map_set_eq_map hnode rfl⟩
    rfl (map_set_eq_map hnode rfl)
  obtain ⟨hk, rfl⟩ := List.getElem?_eq_some_iff.mp hframe
  have hperm := (List.getElem_cons_eraseIdx_perm hk).map (φ .submitting)
  have hsum := hperm.sum_eq
  rw [List.map_cons, List.sum_cons] at hsum
  obtain ⟨r, hr, hset⟩ := Tally.exists_remainder (StageNode.weight φ) hnode
  refine ⟨((s.submitting.eraseIdx k).map (φ .submitting)).sum + (r + node.weight φ 0) +
    Tally.indexed (fun _ => Worker.weight φ) s.workers, ?_, ?_⟩
  · rw [PipelineState.total, ← hsum, hr, weightAt_some]
    abel
  · simp only [PipelineState.total, PipelineState.setNode, hset, StageNode.weight,
      List.map_append, List.sum_append, List.map_singleton, List.sum_singleton, weightAt_some]
    abel

private theorem effect_dequeue {w : ℕ} (h : StepTo cfg s (.dequeue w) s') :
    Effect cfg s s' (.dequeue w) := by
  cases h with
  | @dequeue _ stage node frame items hworker hnode hitems =>
  refine @Effect.dequeue _ _ _ _ _ ⟨stage, .waiting⟩ frame
    (moved_setNode_setWorker hnode hworker rfl fun φ => ?_) rfl fun hdrops => ?_
  · refine ⟨(items.map (φ (.queued stage))).sum, ?_, ?_⟩
    · simp only [StageNode.weight, hitems, List.map_cons, List.sum_cons, Worker.weight,
        Worker.load, Option.elim_none, weightAt_some, add_zero]
      abel
    · rfl
  · have hzero : node.queue.droppedCount = 0 :=
      hdrops _ (List.mem_map.mpr ⟨node, List.mem_of_getElem? hnode, rfl⟩)
    refine map_set_eq_map hnode ?_
    simp [StageNode.noteDrops, StageMetrics.countDropped, hzero]

private theorem effect_takeImage {w : ℕ} (h : StepTo cfg s (.takeImage w) s') :
    Effect cfg s s' (.takeImage w) := by
  cases h with
  | @takeImage _ stage frame hworker htakes =>
  have hsame : SameFrames s s.takeFrameImage.2 := ⟨⟨rfl, rfl, rfl⟩, rfl, rfl, rfl⟩
  have hmoved : Moved s.takeFrameImage.2
      (s.takeFrameImage.2.setWorker w ⟨stage, .exporting frame⟩) frame
      (some (.taken stage)) (some (.exporting stage)) := moved_setWorker hworker rfl rfl
  exact .takeImage hworker rfl htakes (hmoved.of_sameFrames hsame) rfl rfl

theorem load_of_inProcess {worker : Worker α} {frame : α} {wasExporting : Bool}
    (h : PipelineState.inProcess cfg worker = some (frame, wasExporting)) :
    worker.load = (some (processPlace worker.stage wasExporting)).map fun p => (p, frame) := by
  obtain ⟨stage, phase⟩ := worker
  cases phase with
  | taken f =>
    simp only [PipelineState.inProcess, Option.ite_none_left_eq_some, Option.some.injEq,
      Prod.mk.injEq] at h
    obtain ⟨-, rfl, rfl⟩ := h
    rfl
  | exporting f =>
    simp only [PipelineState.inProcess, Option.ite_none_right_eq_some, Option.some.injEq,
      Prod.mk.injEq] at h
    obtain ⟨-, rfl, rfl⟩ := h
    rfl
  | _ => simp [PipelineState.inProcess] at h

theorem takesImage_of_inProcess {worker : Worker α} {frame : α} {wasExporting : Bool}
    (h : PipelineState.inProcess cfg worker = some (frame, wasExporting)) :
    PipelineState.takesImage cfg worker = wasExporting := by
  unfold PipelineState.inProcess at h
  split at h
  · simp only [Option.ite_none_left_eq_some, Option.some.injEq, Prod.mk.injEq] at h
    obtain ⟨htakes, -, rfl⟩ := h
    exact Bool.eq_false_iff.mpr htakes
  · simp only [Option.ite_none_right_eq_some, Option.some.injEq, Prod.mk.injEq] at h
    obtain ⟨htakes, -, rfl⟩ := h
    exact htakes
  · cases h

/-- The counters after one stage's were changed. -/
private theorem metrics_setNode {i : ℕ} {node : StageNode α} (m : StageMetrics) :
    (s.setNode i { node with metrics := m }).metrics = s.metrics.set i m := by
  rw [PipelineState.metrics, PipelineState.setNode, List.map_set]
  rfl

private theorem metrics_getElem? {i : ℕ} {node : StageNode α} (h : s.nodes[i]? = some node) :
    s.metrics[i]? = some node.metrics := by
  rw [PipelineState.metrics, List.getElem?_map, h, Option.map_some]

private theorem effect_process {w : ℕ} {verdict : Verdict}
    (h : StepTo cfg s (.process w verdict) s') : Effect cfg s s' (.process w verdict) := by
  cases h with
  | @failed _ worker frame wasExporting node hworker hprocess hnode =>
    have hload := load_of_inProcess hprocess
    have hmoved : Moved s ((s.setNode worker.stage
        { node with metrics := node.metrics.countFailed }).setWorker w
        { worker with phase := .waiting }) frame
        (some (processPlace worker.stage wasExporting)) none :=
      moved_setNode_setWorker hnode hworker rfl fun φ =>
        ⟨node.weight φ worker.stage, by rw [worker.weight_eq φ hload], rfl⟩
    exact .failed hmoved rfl (metrics_getElem? hnode) (metrics_setNode _)
  | @passed _ worker frame wasExporting data node hworker hprocess =>
    have hload := load_of_inProcess hprocess
    have hsame := sameFrames_processed s (cfg.typeAt worker.stage) wasExporting frame data
    have hmoved : Moved (s.processed (cfg.typeAt worker.stage) wasExporting frame data)
        ((s.processed (cfg.typeAt worker.stage) wasExporting frame data).setWorker w
          { worker with phase := .finished frame data }) frame
        (some (processPlace worker.stage wasExporting)) (some (.finished worker.stage)) :=
      moved_setWorker (hsame.workers ▸ hworker) hload rfl
    refine .passed hworker hprocess (hmoved.of_sameFrames hsame) rfl ?_
    simp only [PipelineState.metrics, PipelineState.setWorker, hsame.nodes]

private theorem effect_publish {w : ℕ} (h : StepTo cfg s (.publish w) s') :
    Effect cfg s s' (.publish w) := by
  cases h with
  | @publish _ stage frame data node hworker hnode =>
  have hsame := sameFrames_published s cfg (cfg.typeAt stage) frame data
  generalize hpub : s.published cfg (cfg.typeAt stage) frame data = s₁ at hsame
  have hlen : s.metrics.length = s.nodes.length := List.length_map _
  have hmoved : Moved s₁ ((s₁.setNode stage
      { node with metrics := node.metrics.countProcessed }).setWorker w
      ⟨stage, if stage + 1 < s.nodes.length then .delivering frame else .waiting⟩) frame
      (some (.finished stage))
      (if stage + 1 < s.metrics.length then some (.delivering stage) else none) := by
    have hnode₁ : s₁.nodes[stage]? = some node := by rwa [hsame.nodes]
    have hworker₁ : s₁.workers[w]? = some ⟨stage, .finished frame data⟩ := by rwa [hsame.workers]
    refine moved_setNode_setWorker hnode₁ hworker₁ rfl fun φ => ⟨node.weight φ stage, rfl, ?_⟩
    rw [hlen]
    split_ifs <;> rfl
  refine .publish hworker rfl (hmoved.of_sameFrames hsame) (by rw [hpub]; rfl)
    (metrics_getElem? hnode) ?_
  show (s₁.setNode stage _).metrics = _
  rw [metrics_setNode]
  simp only [PipelineState.metrics, hsame.nodes]

/-- The worker that delivers, and its frame's move. -/
theorem moved_of_deliver {w : ℕ} (h : StepTo cfg s (.deliver w) s') : ∃ worker frame,
    s.workers[w]? = some worker ∧ worker.load = some (.delivering worker.stage, frame) ∧
      Moved s s' frame (some (.delivering worker.stage)) (some (.queued (worker.stage + 1))) ∧
      s'.slots = s.slots ∧ s'.metrics = s.metrics := by
  cases h with
  | @deliver _ stage frame node hworker hnode =>
  refine ⟨⟨stage, .delivering frame⟩, frame, hworker, rfl,
    moved_setNode_setWorker hnode hworker rfl fun φ => ⟨node.weight φ (stage + 1), rfl, ?_⟩,
    rfl, map_set_eq_map hnode rfl⟩
  simp only [StageNode.weight, List.map_append, List.sum_append, List.map_singleton,
    List.sum_singleton, Worker.weight, Worker.load, Option.elim_none, weightAt_some, add_zero]

private theorem effect_deliver {w : ℕ} (h : StepTo cfg s (.deliver w) s') :
    Effect cfg s s' (.deliver w) := by
  obtain ⟨worker, frame, -, -, hmoved, hslots, hmetrics⟩ := moved_of_deliver h
  exact .deliver hmoved hslots hmetrics

private theorem effect_abandon {w : ℕ} (h : StepTo cfg s (.abandon w) s') :
    Effect cfg s s' (.abandon w) := by
  cases h with
  | @abandon _ stage frame node hworker _ hstop =>
  refine @Effect.abandon _ _ _ _ _ ⟨stage, .delivering frame⟩ frame
    (moved_setWorker hworker rfl rfl) rfl rfl ?_
  simp only [PipelineState.stopSeen, decide_eq_true_eq] at hstop
  omega

private theorem effect_exit {w : ℕ} (h : StepTo cfg s (.exit w) s') :
    Effect cfg s s' (.exit w) := by
  cases h with
  | exit hworker =>
  refine .control rfl (fun φ => ?_) id id rfl rfl rfl
  obtain ⟨r, hr, hset⟩ := exists_total_setWorker φ hworker
  rw [hr, hset]
  rfl

private theorem effect_forceDrain (h : StepTo cfg s .forceDrain s') :
    Effect cfg s s' .forceDrain := by
  cases h with
  | @forceDrain i rest node frame items hdrain hnode hitems =>
  refine @Effect.forceDrain _ _ _ _ i frame
    ⟨⟨rfl, rfl, rfl⟩, fun φ => ?_, map_set_eq_map hnode rfl⟩ rfl
    (map_set_eq_map hnode rfl) (by simp [hdrain])
  obtain ⟨r, hr, hset⟩ := exists_total_setNode φ hnode
  refine ⟨r + (items.map (φ (.queued i))).sum, ?_, ?_⟩
  · rw [hr, StageNode.weight, hitems, List.map_cons, List.sum_cons, weightAt_some]
    abel
  · rw [hset, weightAt_none, add_zero]
    rfl

/-- A worker that takes a step has not left. -/
theorem awake_of_step {a : Action α} {w : ℕ} (h : step cfg s a = some s')
    (ha : a.worker? = some w) : ∃ worker ∈ s.workers, worker.phase ≠ .exited := by
  have hawake : ∀ {worker : Worker α}, s.workers[w]? = some worker → worker.phase ≠ .exited →
      ∃ worker ∈ s.workers, worker.phase ≠ .exited :=
    fun hworker hphase => ⟨_, List.mem_of_getElem? hworker, hphase⟩
  have hprocessing : ∀ {worker : Worker α} {frame : α} {wasExporting : Bool},
      PipelineState.inProcess cfg worker = some (frame, wasExporting) →
        worker.phase ≠ .exited := by
    intro worker frame wasExporting hprocess hexit
    simp [PipelineState.inProcess, hexit] at hprocess
  cases stepTo_of_step h with
  | dequeue hworker => cases ha; exact hawake hworker (by simp)
  | takeImage hworker => cases ha; exact hawake hworker (by simp)
  | failed hworker hprocess => cases ha; exact hawake hworker (hprocessing hprocess)
  | passed hworker hprocess => cases ha; exact hawake hworker (hprocessing hprocess)
  | publish hworker => cases ha; exact hawake hworker (by simp)
  | deliver hworker => cases ha; exact hawake hworker (by simp)
  | abandon hworker => cases ha; exact hawake hworker (by simp)
  | exit hworker => cases ha; exact hawake hworker (by simp)
  | _ => cases ha

/-- Every step has its effect. -/
theorem step_effect {a : Action α} (h : step cfg s a = some s') : Effect cfg s s' a := by
  have hto := stepTo_of_step h
  cases a with
  | submit frame => exact effect_submit hto
  | enter k => exact effect_enter hto
  | dequeue w => exact effect_dequeue hto
  | takeImage w => exact effect_takeImage hto
  | process w verdict => exact effect_process hto
  | publish w => exact effect_publish hto
  | deliver w => exact effect_deliver hto
  | abandon w => exact effect_abandon hto
  | exit w => exact effect_exit hto
  | beginStop =>
    cases hto
    exact .control rfl (fun _ => rfl) (by simp) (fun _ hrunning => by simp at hrunning) rfl rfl rfl
  | requestStop =>
    cases hto with
    | requestStop hstopped =>
    exact .control rfl (fun _ => rfl) id (fun _ hrunning => by simp_all) rfl rfl rfl
  | join order =>
    cases hto with
    | join hstopped =>
    exact .control rfl (fun _ => rfl) id (fun _ hrunning => by simp_all) rfl rfl rfl
  | forceDrain => exact effect_forceDrain hto
  | drained =>
    cases hto with
    | drained hdrain =>
    refine .control rfl (fun _ => rfl) id (fun horder hrunning => ?_) rfl rfl rfl
    exact absurd (horder hrunning).2 (by simp [hdrain])

end StepEffect

end SurfaceAi.Pipeline
