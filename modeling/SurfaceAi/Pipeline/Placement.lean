import SurfaceAi.Pipeline.Movement

/-! Which frame stands where, and what a step does to each queue: it leaves it, takes its
first frame, or appends a frame that stood before it in the pipeline. -/

namespace SurfaceAi.Pipeline

/-- How far along the pipeline a place is. The places of a worker count as one. -/
def Place.level : Place → ℕ
  | .submitting => 0
  | .queued i => 2 * i + 1
  | .taken i | .exporting i | .finished i | .delivering i => 2 * i + 2

namespace PipelineState

variable {α : Type} (s : PipelineState α)

/-- All frames in the pipeline with their places. -/
def placed : Multiset (Place × α) := s.total fun p frame => ({(p, frame)} : Multiset (Place × α))

/-- The frames in the queue of a stage. -/
def queueAt (i : ℕ) : List α := s.nodes[i]?.elim [] fun node => node.queue.items

end PipelineState

section Placed

variable {α : Type} {s s' : PipelineState α} {frame : α} {p : Place}

private theorem mem_sum_map_singleton {l : List α} {q : Place} :
    (p, frame) ∈ (l.map fun f => ({(q, f)} : Multiset (Place × α))).sum ↔
      p = q ∧ frame ∈ l := by
  induction l with
  | nil => simp
  | cons f l ih =>
    rw [List.map_cons, List.sum_cons, Multiset.mem_add, ih, Multiset.mem_singleton,
      Prod.mk.injEq, List.mem_cons]
    tauto

theorem mem_placed : (p, frame) ∈ s.placed ↔ p = .submitting ∧ frame ∈ s.submitting ∨
    (∃ i, p = .queued i ∧ frame ∈ s.queueAt i) ∨
      ∃ worker ∈ s.workers, worker.load = some (p, frame) := by
  have hnodes : (p, frame) ∈ Tally.indexed
      (StageNode.weight fun p f => ({(p, f)} : Multiset (Place × α))) s.nodes ↔
      ∃ i, p = .queued i ∧ frame ∈ s.queueAt i := by
    rw [Tally.mem_indexed]
    constructor
    · rintro ⟨i, node, hnode, hmem⟩
      obtain ⟨hp, hmem⟩ := mem_sum_map_singleton.mp hmem
      refine ⟨i, hp, ?_⟩
      rw [PipelineState.queueAt, hnode]
      exact hmem
    · rintro ⟨i, hp, hmem⟩
      rw [PipelineState.queueAt] at hmem
      cases hnode : s.nodes[i]? with
      | none => simp [hnode] at hmem
      | some node =>
        rw [hnode] at hmem
        exact ⟨i, node, hnode, mem_sum_map_singleton.mpr ⟨hp, hmem⟩⟩
  have hworkers : (p, frame) ∈ Tally.indexed
      (fun _ => Worker.weight fun p f => ({(p, f)} : Multiset (Place × α))) s.workers ↔
      ∃ worker ∈ s.workers, worker.load = some (p, frame) := by
    rw [Tally.mem_indexed]
    have hweight : ∀ worker : Worker α,
        (p, frame) ∈ worker.weight (fun p f => ({(p, f)} : Multiset (Place × α))) ↔
          worker.load = some (p, frame) := by
      intro worker
      rw [Worker.weight]
      cases worker.load with
      | none => simp
      | some l => simp [eq_comm]
    constructor
    · rintro ⟨w, worker, hworker, hmem⟩
      exact ⟨worker, List.mem_of_getElem? hworker, (hweight worker).mp hmem⟩
    · rintro ⟨worker, hworker, hload⟩
      obtain ⟨w, hw⟩ := List.getElem?_of_mem hworker
      exact ⟨w, worker, hw, (hweight worker).mpr hload⟩
  rw [PipelineState.placed, PipelineState.total, Multiset.mem_add, Multiset.mem_add,
    mem_sum_map_singleton, hnodes, hworkers, or_assoc]

theorem mem_placed_submitting : (.submitting, frame) ∈ s.placed ↔ frame ∈ s.submitting := by
  rw [mem_placed]
  constructor
  · rintro (⟨-, h⟩ | ⟨i, h, -⟩ | ⟨worker, -, h⟩)
    · exact h
    · cases h
    · obtain ⟨stage, phase⟩ := worker
      cases phase <;> simp [Worker.load] at h
  · exact fun h => .inl ⟨rfl, h⟩

theorem mem_placed_queued {i : ℕ} : (.queued i, frame) ∈ s.placed ↔ frame ∈ s.queueAt i := by
  rw [mem_placed]
  constructor
  · rintro (⟨h, -⟩ | ⟨j, h, hmem⟩ | ⟨worker, -, h⟩)
    · cases h
    · obtain rfl := Place.queued.inj h
      exact hmem
    · obtain ⟨stage, phase⟩ := worker
      cases phase <;> simp [Worker.load] at h
  · exact fun h => .inr (.inl ⟨i, rfl, h⟩)

theorem mem_placed_of_load {worker : Worker α} (hworker : worker ∈ s.workers)
    (hload : worker.load = some (p, frame)) : (p, frame) ∈ s.placed :=
  mem_placed.mpr (.inr (.inr ⟨worker, hworker, hload⟩))

/-- The place of a frame that a worker of a stage holds. -/
theorem level_of_load {worker : Worker α} (h : worker.load = some (p, frame)) :
    p.level = 2 * worker.stage + 2 := by
  obtain ⟨stage, phase⟩ := worker
  cases phase <;> simp [Worker.load] at h <;> rw [← h.1] <;> rfl

/-- At the level of a stage's workers only they hold frames. -/
theorem exists_worker_of_level {i : ℕ} (h : (p, frame) ∈ s.placed) (hp : p.level = 2 * i + 2) :
    ∃ worker ∈ s.workers, worker.stage = i ∧ worker.load = some (p, frame) := by
  rcases mem_placed.mp h with ⟨rfl, -⟩ | ⟨j, rfl, -⟩ | ⟨worker, hworker, hload⟩
  · simp [Place.level] at hp
  · simp [Place.level] at hp
    omega
  · have := level_of_load hload
    exact ⟨worker, hworker, by omega, hload⟩

theorem Moved.placed {src dst : Option Place} (h : Moved s s' frame src dst) :
    ∃ r, s.placed = r + weightAt (fun p f => ({(p, f)} : Multiset (Place × α))) src frame ∧
      s'.placed = r + weightAt (fun p f => ({(p, f)} : Multiset (Place × α))) dst frame :=
  h.split _

theorem Moved.mem_src {dst : Option Place} (h : Moved s s' frame (some p) dst) :
    (p, frame) ∈ s.placed := by
  obtain ⟨r, hr, -⟩ := h.placed
  rw [hr]
  exact Multiset.mem_add.mpr (.inr (Multiset.mem_singleton_self _))

theorem Moved.mem_dst {src : Option Place} (h : Moved s s' frame src (some p)) :
    (p, frame) ∈ s'.placed := by
  obtain ⟨r, -, hr'⟩ := h.placed
  rw [hr']
  exact Multiset.mem_add.mpr (.inr (Multiset.mem_singleton_self _))

/-- What stands anywhere after a move stood there before, but for the frame moved. -/
theorem Moved.mem_of_mem {src dst : Option Place} (h : Moved s s' frame src dst) {q : Place} {g : α}
    (hmem : (q, g) ∈ s'.placed) : (q, g) ∈ s.placed ∨ dst = some q ∧ g = frame := by
  obtain ⟨r, hr, hr'⟩ := h.placed
  rw [hr', Multiset.mem_add] at hmem
  rcases hmem with hmem | hmem
  · rw [hr]
    exact .inl (Multiset.mem_add.mpr (.inl hmem))
  · cases dst with
    | none => simp at hmem
    | some q' =>
      rw [weightAt_some, Multiset.mem_singleton, Prod.mk.injEq] at hmem
      exact .inr ⟨by rw [hmem.1], hmem.2⟩

/-- A pipeline without frames. -/
theorem placed_eq_zero_iff : s.placed = 0 ↔
    s.submitting = [] ∧ (∀ i, s.queueAt i = []) ∧ ∀ worker ∈ s.workers, worker.load = none := by
  rw [Multiset.eq_zero_iff_forall_notMem]
  constructor
  · intro h
    refine ⟨?_, fun i => ?_, fun worker hworker => ?_⟩
    · exact List.eq_nil_iff_forall_not_mem.mpr fun f hf => h _ (mem_placed_submitting.mpr hf)
    · exact List.eq_nil_iff_forall_not_mem.mpr fun f hf => h _ (mem_placed_queued.mpr hf)
    · cases hload : worker.load with
      | none => rfl
      | some l => exact absurd (mem_placed_of_load hworker hload) (h l)
  · rintro ⟨hsubmitting, hqueues, hworkers⟩ ⟨p, f⟩ hmem
    rcases mem_placed.mp hmem with ⟨-, h⟩ | ⟨i, -, h⟩ | ⟨worker, hworker, h⟩
    · simp [hsubmitting] at h
    · simp [hqueues i] at h
    · simp [hworkers worker hworker] at h

end Placed

def Action.isSubmit {α : Type} : Action α → Bool
  | .submit _ => true
  | _ => false

/-- A step other than a new call of `Submit` moves a frame that is there, or none. -/
theorem placed_of_step {α : Type} {cfg : LineConfig} {s s' : PipelineState α} {a : Action α}
    (hs : step cfg s a = some s') (ha : a.isSubmit = false) : s'.placed = s.placed ∨
      ∃ frame p dst, Moved s s' frame (some p) dst ∧ dst ≠ some .submitting := by
  cases step_effect hs with
  | submit => cases ha
  | enter moved => exact .inr ⟨_, _, _, moved, nofun⟩
  | dequeue moved => exact .inr ⟨_, _, _, moved, nofun⟩
  | takeImage _ _ _ moved => exact .inr ⟨_, _, _, moved, nofun⟩
  | failed moved => exact .inr ⟨_, _, _, moved, nofun⟩
  | passed _ _ moved => exact .inr ⟨_, _, _, moved, nofun⟩
  | publish _ _ moved =>
    refine .inr ⟨_, _, _, moved, ?_⟩
    split_ifs <;> nofun
  | deliver moved => exact .inr ⟨_, _, _, moved, nofun⟩
  | abandon moved => exact .inr ⟨_, _, _, moved, nofun⟩
  | forceDrain moved => exact .inr ⟨_, _, _, moved, nofun⟩
  | control _ total => exact .inl (total _)

theorem placed_eq_zero_of_step {α : Type} {cfg : LineConfig} {s s' : PipelineState α}
    {a : Action α} (h : s.placed = 0) (hs : step cfg s a = some s') (ha : a.isSubmit = false) :
    s'.placed = 0 := by
  rcases placed_of_step hs ha with heq | ⟨frame, p, dst, moved, -⟩
  · rw [heq, h]
  · have hmem := moved.mem_src
    rw [h] at hmem
    exact absurd hmem (Multiset.notMem_zero _)

/-- Only `Submit` adds callers of `Submit`. -/
theorem submitting_eq_nil_of_step {α : Type} {cfg : LineConfig} {s s' : PipelineState α}
    {a : Action α} (h : s.submitting = []) (hs : step cfg s a = some s')
    (ha : a.isSubmit = false) : s'.submitting = [] := by
  apply List.eq_nil_iff_forall_not_mem.mpr
  intro f hf
  have hmem := mem_placed_submitting.mpr hf
  have hbefore : (Place.submitting, f) ∈ s.placed := by
    rcases placed_of_step hs ha with heq | ⟨frame, p, dst, moved, hdst⟩
    · rwa [heq] at hmem
    · rcases moved.mem_of_mem hmem with hbefore | ⟨heq, -⟩
      · exact hbefore
      · exact absurd heq hdst
  rw [mem_placed_submitting, h] at hbefore
  cases hbefore

/-! ### What a step does to a queue -/

section Queues

variable {α : Type} {s s' : PipelineState α}

theorem queueAt_set {i : ℕ} {node node' : StageNode α} (h : s.nodes[i]? = some node)
    (hs : s'.nodes = s.nodes.set i node') (j : ℕ) :
    s'.queueAt j = if i = j then node'.queue.items else s.queueAt j := by
  have hi := (List.getElem?_eq_some_iff.mp h).1
  simp only [PipelineState.queueAt, hs, List.getElem?_set]
  split_ifs with hij
  · rfl
  · rfl

theorem queueAt_of_node {i : ℕ} {node : StageNode α} (h : s.nodes[i]? = some node) :
    s.queueAt i = node.queue.items := by rw [PipelineState.queueAt, h, Option.elim_some]

theorem lt_of_mem_queueAt {i : ℕ} {frame : α} (h : frame ∈ s.queueAt i) :
    i < s.nodes.length := by
  by_contra hge
  rw [PipelineState.queueAt, List.getElem?_eq_none (not_lt.mp hge)] at h
  cases h

theorem queueAt_congr (h : s'.nodes = s.nodes) (j : ℕ) : s'.queueAt j = s.queueAt j := by
  rw [PipelineState.queueAt, PipelineState.queueAt, h]

/-- The steps that append a frame to a queue. -/
def Action.feedsQueue : Action α → Bool
  | .enter _ | .deliver _ => true
  | _ => false

/-- A queue is left, loses its first frame, or is given a frame from further back. -/
inductive QueueStep (a : Action α) (s s' : PipelineState α) (i : ℕ) : Prop where
  | kept (h : s'.queueAt i = s.queueAt i)
  | popped (frame : α) (h : s.queueAt i = frame :: s'.queueAt i)
  | pushed (p : Place) (frame : α) (feeds : a.feedsQueue = true) (placed : (p, frame) ∈ s.placed)
      (level : p.level < (Place.queued i).level) (h : s'.queueAt i = s.queueAt i ++ [frame])

variable {cfg : LineConfig}

section SetNode

variable {a : Action α} {j : ℕ} {node node' : StageNode α} {frame : α}

private theorem queueStep_kept (node' : StageNode α) (h : s.nodes[j]? = some node)
    (hs : s'.nodes = s.nodes.set j node')
    (hqueue : node'.queue.items = node.queue.items) (i : ℕ) : QueueStep a s s' i := by
  have hset := queueAt_set h hs i
  by_cases hi : j = i
  · subst hi
    rw [if_pos rfl, hqueue, ← queueAt_of_node h] at hset
    exact .kept hset
  · rw [if_neg hi] at hset
    exact .kept hset

private theorem queueStep_popped (h : s.nodes[j]? = some node)
    (hs : s'.nodes = s.nodes.set j node')
    (hqueue : node.queue.items = frame :: node'.queue.items) (i : ℕ) : QueueStep a s s' i := by
  have hset := queueAt_set h hs i
  by_cases hi : j = i
  · subst hi
    rw [if_pos rfl] at hset
    exact .popped frame (by rw [queueAt_of_node h, hqueue, hset])
  · rw [if_neg hi] at hset
    exact .kept hset

private theorem queueStep_pushed {p : Place} (h : s.nodes[j]? = some node)
    (hs : s'.nodes = s.nodes.set j node')
    (hqueue : node'.queue.items = node.queue.items ++ [frame]) (feeds : a.feedsQueue = true)
    (placed : (p, frame) ∈ s.placed) (level : p.level < (Place.queued j).level) (i : ℕ) :
    QueueStep a s s' i := by
  have hset := queueAt_set h hs i
  by_cases hi : j = i
  · subst hi
    rw [if_pos rfl, hqueue, ← queueAt_of_node h] at hset
    exact .pushed p frame feeds placed level hset
  · rw [if_neg hi] at hset
    exact .kept hset

end SetNode

/-- Every step leaves every queue, pops it or pushes to it. -/
theorem queueStep_of_step {a : Action α} (h : step cfg s a = some s') (i : ℕ) :
    QueueStep a s s' i := by
  cases stepTo_of_step h with
  | enter hframe hnode =>
    have hplaced := mem_placed_submitting.mpr (List.mem_of_getElem? hframe)
    exact queueStep_pushed hnode rfl rfl rfl hplaced (by simp [Place.level]) i
  | dequeue _ hnode hitems => exact queueStep_popped hnode rfl hitems i
  | @failed _ worker _ _ node _ _ hnode =>
    exact queueStep_kept { node with metrics := node.metrics.countFailed } hnode rfl rfl i
  | @passed _ worker frame wasExporting data =>
    exact .kept (queueAt_congr
      (sameFrames_processed s (cfg.typeAt worker.stage) wasExporting frame data).nodes i)
  | @publish _ stage frame data node _ hnode =>
    have hsame := sameFrames_published s cfg (cfg.typeAt stage) frame data
    refine queueStep_kept { node with metrics := node.metrics.countProcessed } hnode ?_ rfl i
    rw [← hsame.nodes]
    rfl
  | @deliver _ stage frame node hworker hnode =>
    have hplaced := mem_placed_of_load (List.mem_of_getElem? hworker)
      (show Worker.load ⟨stage, .delivering frame⟩ = some (.delivering stage, frame) from rfl)
    refine queueStep_pushed hnode rfl rfl rfl hplaced ?_ i
    simp only [Place.level]
    omega
  | forceDrain _ hnode hitems => exact queueStep_popped hnode rfl hitems i
  | _ => exact .kept rfl

end Queues

end SurfaceAi.Pipeline
