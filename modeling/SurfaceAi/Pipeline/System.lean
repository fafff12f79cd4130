import SurfaceAi.Library.Transition
import SurfaceAi.Pipeline.Stage

/-! The running pipeline: a chain of stages with their input queues, the worker threads
of all stages, the callers of `Submit`, and `Stop`. Frames are tags; what a slot or a
context holds is named by the frame it was stored for. A worker takes a frame from its
queue, processes it, publishes the result and delivers it downstream, each as a step
of its own. -/

namespace SurfaceAi.Pipeline

structure StageConfig where
  stageType : StageType
  capacity : ℕ
  policy : BackpressurePolicy
  threads : ℕ

/-- The stages in chain order; whether an exporter and a result callback are set. -/
structure LineConfig where
  stages : List StageConfig
  exporterSet : Bool
  callbackSet : Bool

def LineConfig.typeAt (cfg : LineConfig) (i : ℕ) : Option StageType :=
  (cfg.stages[i]?).map StageConfig.stageType

/-- A stage with the default queue and the default threads of its pool. -/
def StageConfig.ofType (stageType : StageType) : StageConfig where
  stageType := stageType
  capacity := 8
  policy := .block
  threads := (poolConfigForKey (stageTypeToPoolKey stageType)).threads

/-- The inspection pipeline with all its defaults. -/
def LineConfig.inspection : LineConfig where
  stages := [.ofType .capture, .ofType .preprocess, .ofType .inference, .ofType .detect,
    .ofType .ruleEval, .ofType .reason, .ofType .exportStage]
  exporterSet := true
  callbackSet := true

/-- How `Process` ends. A passing result may carry what the worker stores beside the
queues: pixels after preprocessing, a detector's own result after detection. -/
inductive Verdict where
  | failed
  | passed (data : Bool)
  deriving DecidableEq, Repr

/-- Where a worker is in its loop. `exporting` is the export of a frame whose image has
been taken. -/
inductive Phase (α : Type) where
  | waiting
  | taken (frame : α)
  | exporting (frame : α)
  | finished (frame : α) (data : Bool)
  | delivering (frame : α)
  | exited
  deriving DecidableEq

def Phase.isWaiting {α : Type} : Phase α → Bool
  | .waiting => true
  | _ => false

def Phase.isExited {α : Type} : Phase α → Bool
  | .exited => true
  | _ => false

theorem Phase.isExited_iff {α : Type} (phase : Phase α) : phase.isExited ↔ phase = .exited := by
  cases phase <;> simp [isExited]

structure Worker (α : Type) where
  stage : ℕ
  phase : Phase α
  deriving DecidableEq

/-- A stage's input queue, its counters and the drop count its workers have seen. -/
structure StageNode (α : Type) where
  queue : StageQueue α
  metrics : StageMetrics
  dropTracker : ℕ
  deriving DecidableEq

/-- The frames whose data stand in the detector's context and in the two side channels. -/
structure Slots (α : Type) where
  lastCtx : Option α := none
  frameImage : Option α := none
  anomaly : Option α := none
  deriving DecidableEq

/-- `submitting` are the calls of `Submit` that have passed the running check; `stopsSent`
is the number of workers told to stop; `toDrain` the queues still to be emptied, once all
workers are joined. -/
structure PipelineState (α : Type) where
  nodes : List (StageNode α)
  workers : List (Worker α)
  slots : Slots α
  submitting : List α
  frameCounter : ℕ
  running : Bool
  stopsSent : ℕ
  toDrain : Option (List ℕ)
  deriving DecidableEq

inductive Action (α : Type) where
  | submit (frame : α)
  | enter (k : ℕ)
  | dequeue (w : ℕ)
  | takeImage (w : ℕ)
  | process (w : ℕ) (verdict : Verdict)
  | publish (w : ℕ)
  | deliver (w : ℕ)
  | abandon (w : ℕ)
  | exit (w : ℕ)
  | beginStop
  | requestStop
  | join (order : List ℕ)
  | forceDrain
  | drained
  deriving DecidableEq

/-- The state after `Start`. -/
def LineConfig.start {α : Type} (cfg : LineConfig) : PipelineState α where
  nodes := cfg.stages.map fun c => ⟨.create c.capacity c.policy, {}, 0⟩
  workers := (cfg.stages.mapIdx fun i c => List.replicate c.threads ⟨i, .waiting⟩).flatten
  slots := {}
  submitting := []
  frameCounter := 0
  running := true
  stopsSent := 0
  toDrain := none

/-- Add the drops not yet seen to the counter. -/
def StageNode.noteDrops {α : Type} (node : StageNode α) (queue : StageQueue α) : StageNode α where
  queue := queue
  metrics := node.metrics.countDropped (queue.droppedCount - node.dropTracker)
  dropTracker := max node.dropTracker queue.droppedCount

namespace PipelineState

variable {α : Type} (s : PipelineState α)

def setNode (i : ℕ) (node : StageNode α) : PipelineState α := { s with nodes := s.nodes.set i node }

def setWorker (w : ℕ) (worker : Worker α) : PipelineState α :=
  { s with workers := s.workers.set w worker }

/-- The image is moved out of its slot. -/
def takeFrameImage : Option α × PipelineState α :=
  (s.slots.frameImage, { s with slots := { s.slots with frameImage := none } })

def takeAnomalyScores : Option α × PipelineState α :=
  (s.slots.anomaly, { s with slots := { s.slots with anomaly := none } })

/-- Detection overwrites the detector's context. -/
def detected (frame : α) : PipelineState α :=
  { s with slots := { s.slots with lastCtx := some frame } }

def setFrameImage (frame : α) : PipelineState α :=
  { s with slots := { s.slots with frameImage := some frame } }

def setAnomalyScores (frame : α) : PipelineState α :=
  { s with slots := { s.slots with anomaly := some frame } }

/-- What a successful `Process` of the stage leaves behind. -/
def processed (stageType : Option StageType) (wasExporting : Bool) (frame : α) (data : Bool) :
    PipelineState α :=
  if wasExporting then s.takeAnomalyScores.2
  else if stageType = some .detect ∧ data then s.detected frame
  else s

/-- What the worker stores or calls with a successful result. -/
def published (cfg : LineConfig) (stageType : Option StageType) (frame : α) (data : Bool) :
    PipelineState α :=
  if stageType = some .preprocess ∧ data then s.setFrameImage frame
  else if stageType = some .detect ∧ data then s.setAnomalyScores frame
  else if stageType = some .exportStage ∧ cfg.callbackSet then
    { s with frameCounter := s.frameCounter + 1 }
  else s

/-- The stop token of a worker. -/
def stopSeen (w : ℕ) : Bool := w < s.stopsSent

/-! ### The steps -/

/-- A pending `PushBlocking` of `Submit`. -/
def enter (k : ℕ) : Option (PipelineState α) := do
  let frame ← s.submitting[k]?
  let node ← s.nodes[0]?
  let queue ← node.queue.pushBlocking frame
  some { s.setNode 0 { node with queue } with submitting := s.submitting.eraseIdx k }

def dequeue (w : ℕ) : Option (PipelineState α) := do
  let worker ← s.workers[w]?
  let node ← s.nodes[worker.stage]?
  let (frame, queue) ← node.queue.tryPop
  if worker.phase.isWaiting then
    some ((s.setNode worker.stage (node.noteDrops queue)).setWorker w
      { worker with phase := .taken frame })
  else none

/-- An export worker with an exporter takes the image before it exports. -/
def takesImage (cfg : LineConfig) (worker : Worker α) : Bool :=
  cfg.typeAt worker.stage = some .exportStage ∧ cfg.exporterSet

def takeImage (cfg : LineConfig) (w : ℕ) : Option (PipelineState α) := do
  let worker ← s.workers[w]?
  match worker.phase with
  | .taken frame =>
    if takesImage cfg worker then
      some (s.takeFrameImage.2.setWorker w { worker with phase := .exporting frame })
    else none
  | _ => none

/-- The frame a worker is processing, and whether it is exporting it. -/
def inProcess (cfg : LineConfig) (worker : Worker α) : Option (α × Bool) :=
  match worker.phase with
  | .taken frame => if takesImage cfg worker then none else some (frame, false)
  | .exporting frame => if takesImage cfg worker then some (frame, true) else none
  | _ => none

def process (cfg : LineConfig) (w : ℕ) (verdict : Verdict) : Option (PipelineState α) := do
  let worker ← s.workers[w]?
  let (frame, wasExporting) ← inProcess cfg worker
  let node ← s.nodes[worker.stage]?
  match verdict with
  | .failed =>
    some ((s.setNode worker.stage { node with metrics := node.metrics.countFailed }).setWorker w
      { worker with phase := .waiting })
  | .passed data =>
    some ((s.processed (cfg.typeAt worker.stage) wasExporting frame data).setWorker w
      { worker with phase := .finished frame data })

/-- The last stage has nowhere to deliver to. -/
def publish (cfg : LineConfig) (w : ℕ) : Option (PipelineState α) := do
  let worker ← s.workers[w]?
  let node ← s.nodes[worker.stage]?
  match worker.phase with
  | .finished frame data =>
    some (((s.published cfg (cfg.typeAt worker.stage) frame data).setNode worker.stage
      { node with metrics := node.metrics.countProcessed }).setWorker w
      { worker with
        phase := if worker.stage + 1 < s.nodes.length then .delivering frame else .waiting })
  | _ => none

def deliver (w : ℕ) : Option (PipelineState α) := do
  let worker ← s.workers[w]?
  let node ← s.nodes[worker.stage + 1]?
  match worker.phase with
  | .delivering frame =>
    let queue ← node.queue.pushBlocking frame
    some ((s.setNode (worker.stage + 1) { node with queue }).setWorker w
      { worker with phase := .waiting })
  | _ => none

/-- With stop requested and the queue downstream full, the worker drops its output and
leaves. -/
def abandon (w : ℕ) : Option (PipelineState α) := do
  let worker ← s.workers[w]?
  let node ← s.nodes[worker.stage + 1]?
  match worker.phase with
  | .delivering _ =>
    if s.stopSeen w ∧ node.queue.isFull then
      some (s.setWorker w { worker with phase := .exited })
    else none
  | _ => none

def exit (w : ℕ) : Option (PipelineState α) := do
  let worker ← s.workers[w]?
  let node ← s.nodes[worker.stage]?
  if worker.phase.isWaiting ∧ s.stopSeen w ∧ node.queue.isEmpty then
    some (s.setWorker w { worker with phase := .exited })
  else none

/-- All workers have left; the queues are visited in some order. -/
def join (order : List ℕ) : Option (PipelineState α) :=
  if s.running = false ∧ s.stopsSent = s.workers.length ∧ s.toDrain = none ∧
      (s.workers.all fun worker => worker.phase.isExited) ∧
      order.isPerm (List.range s.nodes.length) then
    some { s with toDrain := some order }
  else none

/-- `Drain` pops what is left in the queue it visits. -/
def forceDrain : Option (PipelineState α) :=
  match s.toDrain with
  | some (i :: _) => do
    let node ← s.nodes[i]?
    let (_, queue) ← node.queue.tryPop
    some (s.setNode i { node with queue })
  | _ => none

/-- The visited queue is empty: on to the next one. -/
def drained : Option (PipelineState α) :=
  match s.toDrain with
  | some (i :: rest) => do
    let node ← s.nodes[i]?
    if node.queue.isEmpty then some { s with toDrain := some rest } else none
  | _ => none

end PipelineState

/-- One step of the running pipeline. -/
def step {α : Type} (cfg : LineConfig) (s : PipelineState α) :
    Action α → Option (PipelineState α)
  | .submit frame =>
    if s.running then some { s with submitting := s.submitting ++ [frame] } else none
  | .enter k => s.enter k
  | .dequeue w => s.dequeue w
  | .takeImage w => s.takeImage cfg w
  | .process w verdict => s.process cfg w verdict
  | .publish w => s.publish cfg w
  | .deliver w => s.deliver w
  | .abandon w => s.abandon w
  | .exit w => s.exit w
  | .beginStop => if s.running then some { s with running := false } else none
  | .requestStop =>
    if s.running = false ∧ s.stopsSent < s.workers.length then
      some { s with stopsSent := s.stopsSent + 1 }
    else none
  | .join order => s.join order
  | .forceDrain => s.forceDrain
  | .drained => s.drained

/-! ### What a step does -/

/-- A step with what it has found: the worker in the phase it acts in, the node, the frame. -/
inductive StepTo {α : Type} (cfg : LineConfig) (s : PipelineState α) :
    Action α → PipelineState α → Prop where
  | submit {frame : α} (running : s.running = true) :
      StepTo cfg s (.submit frame) { s with submitting := s.submitting ++ [frame] }
  | enter {k : ℕ} {frame : α} {node : StageNode α} (pending : s.submitting[k]? = some frame)
      (node_eq : s.nodes[0]? = some node) (room : node.queue.isFull = false) :
      StepTo cfg s (.enter k)
        { s.setNode 0 { node with
            queue := { node.queue with items := node.queue.items ++ [frame] } } with
          submitting := s.submitting.eraseIdx k }
  | dequeue {w stage : ℕ} {node : StageNode α} {frame : α} {items : List α}
      (worker_eq : s.workers[w]? = some ⟨stage, .waiting⟩) (node_eq : s.nodes[stage]? = some node)
      (queue : node.queue.items = frame :: items) :
      StepTo cfg s (.dequeue w)
        ((s.setNode stage (node.noteDrops { node.queue with items })).setWorker w
          ⟨stage, .taken frame⟩)
  | takeImage {w stage : ℕ} {frame : α} (worker_eq : s.workers[w]? = some ⟨stage, .taken frame⟩)
      (takes : PipelineState.takesImage cfg (⟨stage, .taken frame⟩ : Worker α) = true) :
      StepTo cfg s (.takeImage w) (s.takeFrameImage.2.setWorker w ⟨stage, .exporting frame⟩)
  | failed {w : ℕ} {worker : Worker α} {frame : α} {wasExporting : Bool} {node : StageNode α}
      (worker_eq : s.workers[w]? = some worker)
      (in_process : PipelineState.inProcess cfg worker = some (frame, wasExporting))
      (node_eq : s.nodes[worker.stage]? = some node) :
      StepTo cfg s (.process w .failed)
        ((s.setNode worker.stage { node with metrics := node.metrics.countFailed }).setWorker w
          { worker with phase := .waiting })
  | passed {w : ℕ} {worker : Worker α} {frame : α} {wasExporting data : Bool} {node : StageNode α}
      (worker_eq : s.workers[w]? = some worker)
      (in_process : PipelineState.inProcess cfg worker = some (frame, wasExporting))
      (node_eq : s.nodes[worker.stage]? = some node) :
      StepTo cfg s (.process w (.passed data))
        ((s.processed (cfg.typeAt worker.stage) wasExporting frame data).setWorker w
          { worker with phase := .finished frame data })
  | publish {w stage : ℕ} {frame : α} {data : Bool} {node : StageNode α}
      (worker_eq : s.workers[w]? = some ⟨stage, .finished frame data⟩)
      (node_eq : s.nodes[stage]? = some node) :
      StepTo cfg s (.publish w)
        (((s.published cfg (cfg.typeAt stage) frame data).setNode stage
          { node with metrics := node.metrics.countProcessed }).setWorker w
          ⟨stage, if stage + 1 < s.nodes.length then .delivering frame else .waiting⟩)
  | deliver {w stage : ℕ} {frame : α} {node : StageNode α}
      (worker_eq : s.workers[w]? = some ⟨stage, .delivering frame⟩)
      (node_eq : s.nodes[stage + 1]? = some node) (room : node.queue.isFull = false) :
      StepTo cfg s (.deliver w)
        ((s.setNode (stage + 1) { node with
            queue := { node.queue with items := node.queue.items ++ [frame] } }).setWorker w
          ⟨stage, .waiting⟩)
  | abandon {w stage : ℕ} {frame : α} {node : StageNode α}
      (worker_eq : s.workers[w]? = some ⟨stage, .delivering frame⟩)
      (node_eq : s.nodes[stage + 1]? = some node) (stop : s.stopSeen w = true)
      (full : node.queue.isFull = true) :
      StepTo cfg s (.abandon w) (s.setWorker w ⟨stage, .exited⟩)
  | exit {w stage : ℕ} {node : StageNode α} (worker_eq : s.workers[w]? = some ⟨stage, .waiting⟩)
      (node_eq : s.nodes[stage]? = some node) (stop : s.stopSeen w = true)
      (empty : node.queue.isEmpty = true) :
      StepTo cfg s (.exit w) (s.setWorker w ⟨stage, .exited⟩)
  | beginStop (running : s.running = true) : StepTo cfg s .beginStop { s with running := false }
  | requestStop (stopped : s.running = false) (unsent : s.stopsSent < s.workers.length) :
      StepTo cfg s .requestStop { s with stopsSent := s.stopsSent + 1 }
  | join {order : List ℕ} (stopped : s.running = false) (sent : s.stopsSent = s.workers.length)
      (undrained : s.toDrain = none) (exited : ∀ worker ∈ s.workers, worker.phase = .exited)
      (perm : order.Perm (List.range s.nodes.length)) :
      StepTo cfg s (.join order) { s with toDrain := some order }
  | forceDrain {i : ℕ} {rest : List ℕ} {node : StageNode α} {frame : α} {items : List α}
      (draining : s.toDrain = some (i :: rest)) (node_eq : s.nodes[i]? = some node)
      (queue : node.queue.items = frame :: items) :
      StepTo cfg s .forceDrain (s.setNode i { node with queue := { node.queue with items } })
  | drained {i : ℕ} {rest : List ℕ} {node : StageNode α} (draining : s.toDrain = some (i :: rest))
      (node_eq : s.nodes[i]? = some node) (empty : node.queue.items = []) :
      StepTo cfg s .drained { s with toDrain := some rest }

section Inversion

variable {α : Type} {cfg : LineConfig} {s s' : PipelineState α}

private theorem stepTo_enter {k : ℕ} (h : s.enter k = some s') : StepTo cfg s (.enter k) s' := by
  simp only [PipelineState.enter, Option.bind_eq_bind, Option.bind_eq_some_iff,
    Option.some.injEq] at h
  obtain ⟨frame, pending, node, hnode, queue, hpush, rfl⟩ := h
  obtain ⟨hroom, rfl⟩ := (StageQueue.pushBlocking_eq_some _).mp hpush
  exact .enter pending hnode hroom

private theorem stepTo_dequeue {w : ℕ} (h : s.dequeue w = some s') :
    StepTo cfg s (.dequeue w) s' := by
  simp only [PipelineState.dequeue, Option.bind_eq_bind, Option.bind_eq_some_iff,
    Option.ite_none_right_eq_some, Option.some.injEq] at h
  obtain ⟨⟨stage, phase⟩, hworker, node, hnode, ⟨frame, queue⟩, hpop, hphase, rfl⟩ := h
  obtain ⟨items, hitems, rfl⟩ := (StageQueue.tryPop_eq_some _).mp hpop
  cases phase with
  | waiting => exact .dequeue hworker hnode hitems
  | _ => cases hphase

private theorem stepTo_takeImage {w : ℕ} (h : s.takeImage cfg w = some s') :
    StepTo cfg s (.takeImage w) s' := by
  simp only [PipelineState.takeImage, Option.bind_eq_bind, Option.bind_eq_some_iff] at h
  obtain ⟨⟨stage, phase⟩, hworker, h⟩ := h
  cases phase with
  | taken frame =>
    simp only [Option.ite_none_right_eq_some, Option.some.injEq] at h
    obtain ⟨htakes, rfl⟩ := h
    exact .takeImage hworker htakes
  | _ => simp at h

private theorem stepTo_process {w : ℕ} {verdict : Verdict}
    (h : s.process cfg w verdict = some s') : StepTo cfg s (.process w verdict) s' := by
  simp only [PipelineState.process, Option.bind_eq_bind, Option.bind_eq_some_iff] at h
  obtain ⟨worker, hworker, ⟨frame, wasExporting⟩, hprocess, node, hnode, h⟩ := h
  cases verdict with
  | failed =>
    obtain rfl := Option.some.inj h
    exact .failed hworker hprocess hnode
  | passed data =>
    obtain rfl := Option.some.inj h
    exact .passed hworker hprocess hnode

private theorem stepTo_publish {w : ℕ} (h : s.publish cfg w = some s') :
    StepTo cfg s (.publish w) s' := by
  simp only [PipelineState.publish, Option.bind_eq_bind, Option.bind_eq_some_iff] at h
  obtain ⟨⟨stage, phase⟩, hworker, node, hnode, h⟩ := h
  cases phase with
  | finished frame data =>
    obtain rfl := Option.some.inj h
    exact .publish hworker hnode
  | _ => simp at h

private theorem stepTo_deliver {w : ℕ} (h : s.deliver w = some s') :
    StepTo cfg s (.deliver w) s' := by
  simp only [PipelineState.deliver, Option.bind_eq_bind, Option.bind_eq_some_iff] at h
  obtain ⟨⟨stage, phase⟩, hworker, node, hnode, h⟩ := h
  cases phase with
  | delivering frame =>
    simp only [Option.bind_eq_some_iff, Option.some.injEq] at h
    obtain ⟨queue, hpush, rfl⟩ := h
    obtain ⟨hroom, rfl⟩ := (StageQueue.pushBlocking_eq_some _).mp hpush
    exact .deliver hworker hnode hroom
  | _ => simp at h

private theorem stepTo_abandon {w : ℕ} (h : s.abandon w = some s') :
    StepTo cfg s (.abandon w) s' := by
  simp only [PipelineState.abandon, Option.bind_eq_bind, Option.bind_eq_some_iff] at h
  obtain ⟨⟨stage, phase⟩, hworker, node, hnode, h⟩ := h
  cases phase with
  | delivering frame =>
    simp only [Option.ite_none_right_eq_some, Option.some.injEq] at h
    obtain ⟨⟨hstop, hfull⟩, rfl⟩ := h
    exact .abandon hworker hnode hstop hfull
  | _ => simp at h

private theorem stepTo_exit {w : ℕ} (h : s.exit w = some s') : StepTo cfg s (.exit w) s' := by
  simp only [PipelineState.exit, Option.bind_eq_bind, Option.bind_eq_some_iff,
    Option.ite_none_right_eq_some, Option.some.injEq] at h
  obtain ⟨⟨stage, phase⟩, hworker, node, hnode, ⟨hphase, hstop, hempty⟩, rfl⟩ := h
  cases phase with
  | waiting => exact .exit hworker hnode hstop hempty
  | _ => cases hphase

private theorem stepTo_join {order : List ℕ} (h : s.join order = some s') :
    StepTo cfg s (.join order) s' := by
  simp only [PipelineState.join, Option.ite_none_right_eq_some, Option.some.injEq,
    List.all_eq_true, List.isPerm_iff] at h
  obtain ⟨⟨hstopped, hsent, hundrained, hexited, hperm⟩, rfl⟩ := h
  refine .join hstopped hsent hundrained (fun worker hworker => ?_) hperm
  exact worker.phase.isExited_iff.mp (hexited worker hworker)

private theorem stepTo_forceDrain (h : s.forceDrain = some s') : StepTo cfg s .forceDrain s' := by
  unfold PipelineState.forceDrain at h
  split at h
  · next i rest hdrain =>
    simp only [Option.bind_eq_bind, Option.bind_eq_some_iff, Option.some.injEq] at h
    obtain ⟨node, hnode, ⟨frame, queue⟩, hpop, rfl⟩ := h
    obtain ⟨items, hitems, rfl⟩ := (StageQueue.tryPop_eq_some _).mp hpop
    exact .forceDrain hdrain hnode hitems
  · cases h

private theorem stepTo_drained (h : s.drained = some s') : StepTo cfg s .drained s' := by
  unfold PipelineState.drained at h
  split at h
  · next i rest hdrain =>
    simp only [Option.bind_eq_bind, Option.bind_eq_some_iff, Option.ite_none_right_eq_some,
      Option.some.injEq] at h
    obtain ⟨node, hnode, hempty, rfl⟩ := h
    exact .drained hdrain hnode (List.isEmpty_iff.mp hempty)
  · cases h

/-- The inversion of a step; what follows is by cases on it. -/
theorem stepTo_of_step {a : Action α} (h : step cfg s a = some s') : StepTo cfg s a s' := by
  cases a with
  | submit frame =>
    simp only [step, Option.ite_none_right_eq_some, Option.some.injEq] at h
    obtain ⟨hrunning, rfl⟩ := h
    exact .submit hrunning
  | enter k => exact stepTo_enter h
  | dequeue w => exact stepTo_dequeue h
  | takeImage w => exact stepTo_takeImage h
  | process w verdict => exact stepTo_process h
  | publish w => exact stepTo_publish h
  | deliver w => exact stepTo_deliver h
  | abandon w => exact stepTo_abandon h
  | exit w => exact stepTo_exit h
  | beginStop =>
    simp only [step, Option.ite_none_right_eq_some, Option.some.injEq] at h
    obtain ⟨hrunning, rfl⟩ := h
    exact .beginStop hrunning
  | requestStop =>
    simp only [step, Option.ite_none_right_eq_some, Option.some.injEq] at h
    obtain ⟨⟨hstopped, hunsent⟩, rfl⟩ := h
    exact .requestStop hstopped hunsent
  | join order => exact stepTo_join h
  | forceDrain => exact stepTo_forceDrain h
  | drained => exact stepTo_drained h

end Inversion

end SurfaceAi.Pipeline
