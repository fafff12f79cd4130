import Mathlib.Data.Multiset.Range
import Mathlib.Tactic.IntervalCases
import SurfaceAi.Pipeline.Placement

/-! The order in which frames leave. A queue keeps the order it is filled in; the workers of
one stage may overtake each other. Frames are named by their place in the order of
submission. -/

namespace SurfaceAi.Pipeline

/-! ### The result callback -/

/-- The frame id and the frame the result callback is called with in a step. -/
def reported {α : Type} (cfg : LineConfig) (s : PipelineState α) : Action α → Option (ℕ × α)
  | .publish w => do
    let worker ← s.workers[w]?
    match worker.phase with
    | .finished frame _ =>
      if cfg.typeAt worker.stage = some .exportStage ∧ cfg.callbackSet then
        some (s.frameCounter, frame)
      else none
    | _ => none
  | _ => none

/-- The frames `Submit` has been called with, in order. -/
def submitted {α : Type} (actions : List (Action α)) : List α :=
  actions.filterMap fun
    | .submit frame => some frame
    | _ => none

/-- The worker's frame is the earliest of those its stage holds. -/
def PipelineState.EarliestHeld (s : PipelineState ℕ) (w : ℕ) : Prop :=
  ∀ worker ∈ s.workers[w]?, ∀ held ∈ worker.load, ∀ other ∈ s.workers,
    other.stage = worker.stage → ∀ held' ∈ other.load, held.2 ≤ held'.2

/-- Neither a failure nor `Stop`, and the calls of `Submit` go through in order. -/
def Smooth : Action ℕ → Prop
  | .enter k => k = 0
  | .process _ .failed | .beginStop => False
  | _ => True

/-- No worker hands its frame on before an earlier one of its stage; the export workers hand
theirs to the callback. -/
def NoOvertaking (cfg : LineConfig) (s : PipelineState ℕ) : Action ℕ → Prop
  | .deliver w => s.EarliestHeld w
  | .publish w =>
    (∃ worker ∈ s.workers[w]?, cfg.typeAt worker.stage = some .exportStage) → s.EarliestHeld w
  | _ => True

instance (s : PipelineState ℕ) (w : ℕ) : Decidable (s.EarliestHeld w) :=
  inferInstanceAs (Decidable (∀ worker ∈ s.workers[w]?, ∀ held ∈ worker.load,
    ∀ other ∈ s.workers, other.stage = worker.stage → ∀ held' ∈ other.load, held.2 ≤ held'.2))

instance (a : Action ℕ) : Decidable (Smooth a) :=
  match a with
  | .enter k => inferInstanceAs (Decidable (k = 0))
  | .process _ .failed | .beginStop => .isFalse id
  | .process _ (.passed _) | .submit _ | .dequeue _ | .takeImage _ | .publish _ | .deliver _
  | .abandon _ | .exit _ | .requestStop | .join _ | .forceDrain | .drained => .isTrue trivial

instance (cfg : LineConfig) (s : PipelineState ℕ) (a : Action ℕ) :
    Decidable (NoOvertaking cfg s a) :=
  match a with
  | .deliver w => inferInstanceAs (Decidable (s.EarliestHeld w))
  | .publish w =>
    inferInstanceAs (Decidable ((∃ worker ∈ s.workers[w]?,
      cfg.typeAt worker.stage = some .exportStage) → s.EarliestHeld w))
  | .submit _ | .enter _ | .dequeue _ | .takeImage _ | .process _ _ | .abandon _ | .exit _
  | .beginStop | .requestStop | .join _ | .forceDrain | .drained => .isTrue trivial

/-! ### What a step leaves alone -/

section Frame

variable {α : Type} {cfg : LineConfig} {s s' : PipelineState α} {a : Action α}

theorem reported_publish {w : ℕ} {worker : Worker α} {frame : α} {data : Bool}
    (hworker : s.workers[w]? = some worker) (hphase : worker.phase = .finished frame data) :
    reported cfg s (.publish w) =
      if cfg.typeAt worker.stage = some .exportStage ∧ cfg.callbackSet then
        some (s.frameCounter, frame)
      else none := by
  simp [reported, hworker, hphase]

private theorem frameCounter_published {stage : ℕ} (frame : α) (data : Bool) :
    (s.published cfg (cfg.typeAt stage) frame data).frameCounter = s.frameCounter +
      if cfg.typeAt stage = some .exportStage ∧ cfg.callbackSet then 1 else 0 := by
  unfold PipelineState.published
  by_cases hpre : cfg.typeAt stage = some .preprocess
  · cases data <;> simp [hpre, PipelineState.setFrameImage]
  · by_cases hdet : cfg.typeAt stage = some .detect
    · cases data <;> simp [hdet, PipelineState.setAnomalyScores]
    · simp only [hpre, hdet, false_and, if_false]
      split_ifs <;> rfl

private theorem frameCounter_processed (stageType : Option StageType) (wasExporting : Bool)
    (frame : α) (data : Bool) :
    (s.processed stageType wasExporting frame data).frameCounter = s.frameCounter := by
  unfold PipelineState.processed
  split_ifs <;> rfl

/-- The pending calls of `Submit` after a step. -/
def submittingAfter (s : PipelineState α) : Action α → List α
  | .submit frame => s.submitting ++ [frame]
  | .enter k => s.submitting.eraseIdx k
  | _ => s.submitting

/-- The counter goes up with every call of the callback; only `Submit` itself changes its
pending calls. -/
theorem counter_of_step (hs : step cfg s a = some s') :
    s'.frameCounter = s.frameCounter + (if (reported cfg s a).isSome then 1 else 0) ∧
      s'.submitting = submittingAfter s a := by
  cases stepTo_of_step hs with
  | @passed _ worker frame wasExporting data =>
    exact ⟨frameCounter_processed _ _ _ _, (sameFrames_processed s _ _ _ _).submitting⟩
  | @publish _ stage frame data node hworker =>
    have hcount := @frameCounter_published _ cfg s stage frame data
    have hsame := sameFrames_published s cfg (cfg.typeAt stage) frame data
    rw [reported_publish hworker rfl]
    by_cases hreports : cfg.typeAt stage = some .exportStage ∧ cfg.callbackSet
    · rw [if_pos hreports] at hcount ⊢
      exact ⟨hcount, hsame.submitting⟩
    · rw [if_neg hreports] at hcount ⊢
      exact ⟨hcount, hsame.submitting⟩
  | _ => exact ⟨rfl, rfl⟩

end Frame

/-! ### The invariant -/

/-- The first `n` frames have been submitted: those the callback has not been given stand in
the pipeline, later ones further back. -/
structure Sequenced (cfg : LineConfig) (n : ℕ) (s : PipelineState ℕ) : Prop where
  running : s.running = true
  order : StopOrder s
  nodes : s.nodes.length = cfg.stages.length
  bounded : ∀ p f, (p, f) ∈ s.placed → p.level ≤ 2 * cfg.stages.length
  frames : Multiset.range n = Multiset.range s.frameCounter + s.placed.map Prod.snd
  levels : ∀ p f q g, (p, f) ∈ s.placed → (q, g) ∈ s.placed → p.level < q.level → g < f
  queues : ∀ i, (s.queueAt i).Pairwise (· < ·)
  submitting : s.submitting.Pairwise (· < ·)

theorem nodes_length_of_moved {α : Type} {s s' : PipelineState α} {frame : α}
    {src dst : Option Place} (h : Moved s s' frame src dst) : s'.nodes.length = s.nodes.length := by
  have := congrArg List.length h.dropCounts
  simpa [PipelineState.dropCounts] using this

/-- Queues stay in order: what is pushed comes from further back. -/
theorem queues_of_step {cfg : LineConfig} {n : ℕ} {s s' : PipelineState ℕ} {a : Action ℕ}
    (h : Sequenced cfg n s) (hs : step cfg s a = some s') (i : ℕ) :
    (s'.queueAt i).Pairwise (· < ·) := by
  have hbefore := h.queues i
  cases queueStep_of_step hs i with
  | kept hkept => rwa [hkept]
  | popped frame hpop =>
    rw [hpop] at hbefore
    exact hbefore.of_cons
  | pushed p frame feeds placed level hpush =>
    rw [hpush, List.pairwise_append]
    refine ⟨hbefore, List.pairwise_singleton _ _, ?_⟩
    intro x hx y hy
    obtain rfl := List.mem_singleton.mp hy
    exact h.levels p y (.queued i) x placed (mem_placed_queued.mpr hx) level

namespace Sequenced

variable {cfg : LineConfig} {n : ℕ} {s s' : PipelineState ℕ} {frame : ℕ} {p q : Place}

theorem start (cfg : LineConfig) : Sequenced cfg 0 (cfg.start : PipelineState ℕ) := by
  have hplaced : (cfg.start : PipelineState ℕ).placed = 0 := total_start cfg _
  refine ⟨rfl, fun _ => ⟨rfl, rfl⟩, ?_, ?_, ?_, ?_, ?_, List.Pairwise.nil⟩
  · simp [LineConfig.start]
  · simp [hplaced]
  · rw [hplaced]
    rfl
  · simp [hplaced]
  · intro i
    rw [(placed_eq_zero_iff.mp hplaced).2.1 i]
    exact List.Pairwise.nil

theorem nodup (h : Sequenced cfg n s) : (s.placed.map Prod.snd).Nodup := by
  have := Multiset.nodup_range n
  rw [h.frames, Multiset.nodup_add] at this
  exact this.2.1

/-- Beside a frame stand others. -/
theorem ne_of_mem_rest (h : Sequenced cfg n s) {r : Multiset (Place × ℕ)}
    (hr : s.placed = r + {(p, frame)}) {q : Place} {g : ℕ} (hg : (q, g) ∈ r) : g ≠ frame := by
  have hnodup := h.nodup
  rw [hr, Multiset.map_add, Multiset.map_singleton, Multiset.nodup_add] at hnodup
  rintro rfl
  have hmem : g ∈ r.map Prod.snd := Multiset.mem_map.mpr ⟨(q, g), hg, rfl⟩
  exact (Multiset.disjoint_left.mp hnodup.2.2) hmem (Multiset.mem_singleton_self g)

theorem lt_of_mem (h : Sequenced cfg n s) (hmem : (p, frame) ∈ s.placed) : frame < n := by
  have : frame ∈ Multiset.range n := by
    rw [h.frames, Multiset.mem_add]
    exact .inr (Multiset.mem_map.mpr ⟨(p, frame), hmem, rfl⟩)
  exact Multiset.mem_range.mp this

/-- The earliest frame in the pipeline is the next one to be reported. -/
theorem eq_frameCounter (h : Sequenced cfg n s) (hmem : (p, frame) ∈ s.placed)
    (hmin : ∀ q g, (q, g) ∈ s.placed → frame ≤ g) : frame = s.frameCounter := by
  have hnodup := Multiset.nodup_range n
  rw [h.frames, Multiset.nodup_add] at hnodup
  have hframe : frame ∈ s.placed.map Prod.snd := Multiset.mem_map.mpr ⟨(p, frame), hmem, rfl⟩
  have hge : ¬ frame < s.frameCounter := fun hlt =>
    (Multiset.disjoint_left.mp hnodup.2.2) (Multiset.mem_range.mpr hlt) hframe
  have hnext : s.frameCounter ∈ Multiset.range n :=
    Multiset.mem_range.mpr (lt_of_le_of_lt (not_lt.mp hge) (h.lt_of_mem hmem))
  rw [h.frames, Multiset.mem_add] at hnext
  rcases hnext with hnext | hnext
  · exact absurd (Multiset.mem_range.mp hnext) (lt_irrefl _)
  · obtain ⟨⟨q, g⟩, hg, hgeq⟩ := Multiset.mem_map.mp hnext
    obtain rfl : g = s.frameCounter := hgeq
    exact le_antisymm (hmin q _ hg) (not_lt.mp hge)

/-- A frame moves on, past none that was submitted before it. -/
theorem of_moved (h : Sequenced cfg n s) (hm : Moved s s' frame (some p) (some q))
    (hcount : s'.frameCounter = s.frameCounter) (hle : p.level ≤ q.level)
    (hbound : q.level ≤ 2 * cfg.stages.length)
    (hahead : ∀ p' g, (p', g) ∈ s.placed → (p', g) ∈ s'.placed → g ≠ frame →
      p.level ≤ p'.level → p'.level < q.level → frame < g)
    (hqueues : ∀ i, (s'.queueAt i).Pairwise (· < ·)) (hsub : s'.submitting.Pairwise (· < ·)) :
    Sequenced cfg n s' := by
  obtain ⟨r, hr, hr'⟩ := hm.placed
  rw [weightAt_some] at hr hr'
  have hmem : ∀ {x}, x ∈ r → x ∈ s.placed ∧ x ∈ s'.placed := by
    intro x hx
    rw [hr, hr']
    exact ⟨Multiset.mem_add.mpr (.inl hx), Multiset.mem_add.mpr (.inl hx)⟩
  have hcases : ∀ p' g, (p', g) ∈ s'.placed → (p', g) ∈ r ∨ p' = q ∧ g = frame := by
    intro p' g hg
    rw [hr', Multiset.mem_add, Multiset.mem_singleton, Prod.mk.injEq] at hg
    exact hg
  refine ⟨hm.running.trans h.running, ?_, (nodes_length_of_moved hm).trans h.nodes, ?_, ?_, ?_,
    hqueues, hsub⟩
  · rw [StopOrder, hm.running, hm.stopsSent, hm.toDrain]
    exact h.order
  · intro p' g hg
    rcases hcases p' g hg with hg | ⟨rfl, -⟩
    · exact h.bounded p' g (hmem hg).1
    · exact hbound
  · rw [hcount, h.frames, hr, hr', Multiset.map_add, Multiset.map_add, Multiset.map_singleton,
      Multiset.map_singleton]
  · intro p₁ f₁ p₂ f₂ h₁ h₂ hlt
    have hframe := hm.mem_src
    rcases hcases p₁ f₁ h₁ with h₁' | ⟨rfl, rfl⟩
    · rcases hcases p₂ f₂ h₂ with h₂' | ⟨rfl, rfl⟩
      · exact h.levels p₁ f₁ p₂ f₂ (hmem h₁').1 (hmem h₂').1 hlt
      · rcases Nat.lt_or_ge p₁.level p.level with hback | hsame
        · exact h.levels p₁ f₁ p f₂ (hmem h₁').1 hframe hback
        · exact hahead p₁ f₁ (hmem h₁').1 (hmem h₁').2 (h.ne_of_mem_rest hr h₁') hsame hlt
    · rcases hcases p₂ f₂ h₂ with h₂' | ⟨rfl, rfl⟩
      · exact h.levels p f₁ p₂ f₂ hframe (hmem h₂').1 (by omega)
      · omega

/-- A move between the places of one worker. -/
theorem of_moved_same (h : Sequenced cfg n s) (hm : Moved s s' frame (some p) (some q))
    (hcount : s'.frameCounter = s.frameCounter) (hsame : q.level = p.level)
    (hqueues : ∀ i, (s'.queueAt i).Pairwise (· < ·)) (hsub : s'.submitting.Pairwise (· < ·)) :
    Sequenced cfg n s' := by
  refine h.of_moved hm hcount hsame.ge ?_ ?_ hqueues hsub
  · rw [hsame]
    exact h.bounded p frame hm.mem_src
  · intro p' g _ _ _ hle hlt
    omega

/-- The first frame of a sorted list of frames at one place moves away. -/
theorem lt_of_first {l l' : List ℕ} {first : ℕ}
    (hl : l = first :: l') (hsorted : l.Pairwise (· < ·))
    (hbefore : ∀ g, (p, g) ∈ s.placed ↔ g ∈ l) (hafter : ∀ g, (p, g) ∈ s'.placed ↔ g ∈ l')
    (hm : Moved s s' frame (some p) (some q)) : ∀ g, (p, g) ∈ s'.placed → frame < g := by
  obtain ⟨r, hr, hr'⟩ := hm.placed
  rw [weightAt_some] at hr hr'
  rw [hl, List.pairwise_cons] at hsorted
  have hfirst : first = frame := by
    by_contra hne
    have hmem : (p, first) ∈ s.placed := (hbefore first).mpr (by simp [hl])
    rw [hr, Multiset.mem_add, Multiset.mem_singleton, Prod.mk.injEq] at hmem
    have hrest : (p, first) ∈ r := hmem.resolve_right fun heq => hne heq.2
    have hin : (p, first) ∈ s'.placed := by
      rw [hr']
      exact Multiset.mem_add.mpr (.inl hrest)
    exact lt_irrefl _ (hsorted.1 first ((hafter first).mp hin))
  intro g hg
  rw [← hfirst]
  exact hsorted.1 g ((hafter g).mp hg)

/-- The earliest frame leaves with the next id. -/
theorem of_left (h : Sequenced cfg n s) (hm : Moved s s' frame (some p) none)
    (hcount : s'.frameCounter = s.frameCounter + 1)
    (hmin : ∀ q g, (q, g) ∈ s.placed → frame ≤ g) (hqueues : ∀ i, (s'.queueAt i).Pairwise (· < ·))
    (hsub : s'.submitting.Pairwise (· < ·)) : Sequenced cfg n s' := by
  have hid := h.eq_frameCounter hm.mem_src hmin
  obtain ⟨r, hr, hr'⟩ := hm.placed
  rw [weightAt_some] at hr
  rw [weightAt_none, add_zero] at hr'
  have hmem : ∀ {x}, x ∈ s'.placed → x ∈ s.placed := by
    intro x hx
    rw [hr] at *
    exact Multiset.mem_add.mpr (.inl (hr' ▸ hx))
  refine ⟨hm.running.trans h.running, ?_, (nodes_length_of_moved hm).trans h.nodes, ?_, ?_, ?_,
    hqueues, hsub⟩
  · rw [StopOrder, hm.running, hm.stopsSent, hm.toDrain]
    exact h.order
  · exact fun p' g hg => h.bounded p' g (hmem hg)
  · rw [hcount, h.frames, hr, hr', Multiset.range_succ, Multiset.map_add, Multiset.map_singleton,
      ← hid, ← Multiset.singleton_add]
    abel
  · exact fun p₁ f₁ p₂ f₂ h₁ h₂ => h.levels p₁ f₁ p₂ f₂ (hmem h₁) (hmem h₂)

/-- The next frame is submitted. -/
theorem of_submitted (h : Sequenced cfg n s) (hm : Moved s s' n none (some .submitting))
    (hcount : s'.frameCounter = s.frameCounter)
    (hqueues : ∀ i, (s'.queueAt i).Pairwise (· < ·)) (hsub : s'.submitting.Pairwise (· < ·)) :
    Sequenced cfg (n + 1) s' := by
  obtain ⟨r, hr, hr'⟩ := hm.placed
  rw [weightAt_none, add_zero] at hr
  rw [weightAt_some] at hr'
  have hcases : ∀ p' g, (p', g) ∈ s'.placed →
      (p', g) ∈ s.placed ∨ p' = .submitting ∧ g = n := by
    intro p' g hg
    rw [hr', Multiset.mem_add, Multiset.mem_singleton, Prod.mk.injEq, ← hr] at hg
    exact hg
  refine ⟨hm.running.trans h.running, ?_, (nodes_length_of_moved hm).trans h.nodes, ?_, ?_, ?_,
    hqueues, hsub⟩
  · rw [StopOrder, hm.running, hm.stopsSent, hm.toDrain]
    exact h.order
  · intro p' g hg
    rcases hcases p' g hg with hg | ⟨rfl, -⟩
    · exact h.bounded p' g hg
    · exact Nat.zero_le _
  · rw [hcount, hr', ← hr, Multiset.map_add, Multiset.map_singleton, Multiset.range_succ, h.frames,
      ← Multiset.singleton_add]
    abel
  · intro p₁ f₁ p₂ f₂ h₁ h₂ hlt
    rcases hcases p₂ f₂ h₂ with h₂ | ⟨rfl, -⟩
    · rcases hcases p₁ f₁ h₁ with h₁ | ⟨rfl, rfl⟩
      · exact h.levels p₁ f₁ p₂ f₂ h₁ h₂ hlt
      · exact h.lt_of_mem h₂
    · simp [Place.level] at hlt

/-- While the pipeline runs, `Stop` does not go on. -/
theorem not_control (h : Sequenced cfg n s) {a : Action ℕ} (hs : step cfg s a = some s')
    (hsmooth : Smooth a) : a.isControl = false := by
  obtain ⟨hsent, hdrain⟩ := h.order h.running
  cases stepTo_of_step hs with
  | exit _ _ hstop => simp [PipelineState.stopSeen, hsent] at hstop
  | beginStop => exact hsmooth.elim
  | requestStop hstopped => simp [h.running] at hstopped
  | join hstopped => simp [h.running] at hstopped
  | drained hdraining => simp [hdrain] at hdraining
  | _ => rfl

/-- A worker takes the first frame of its queue. -/
theorem exists_first {a : Action ℕ} (h : Sequenced cfg n s) (hs : step cfg s a = some s') {i : ℕ}
    (hfeeds : a.feedsQueue = false)
    (hm : Moved s s' frame (some (.queued i)) (some (.taken i))) :
    ∃ first, s.queueAt i = first :: s'.queueAt i := by
  cases queueStep_of_step hs i with
  | popped first hpop => exact ⟨first, hpop⟩
  | pushed p f feeds =>
    rw [hfeeds] at feeds
    cases feeds
  | kept hkept =>
    obtain ⟨r, hr, hr'⟩ := hm.placed
    rw [weightAt_some] at hr hr'
    have hmem : (Place.queued i, frame) ∈ s'.placed := by
      rw [mem_placed_queued, hkept, ← mem_placed_queued]
      exact hm.mem_src
    rw [hr', Multiset.mem_add, Multiset.mem_singleton, Prod.mk.injEq] at hmem
    have hrest := hmem.resolve_right fun heq => nomatch heq.1
    exact absurd rfl (h.ne_of_mem_rest hr hrest)

/-- The earliest frame of a stage's workers has only later ones behind it. -/
theorem lt_of_earliest (h : Sequenced cfg n s) {w : ℕ} {worker : Worker ℕ}
    (hworker : s.workers[w]? = some worker) (hload : worker.load = some (p, frame))
    (hearly : s.EarliestHeld w) : ∀ q g, (q, g) ∈ s.placed → q.level ≤ p.level → frame ≤ g := by
  intro q g hg hle
  have hframe := mem_placed_of_load (List.mem_of_getElem? hworker) hload
  rcases Nat.lt_or_ge q.level p.level with hlt | hge
  · exact (h.levels q g p frame hg hframe hlt).le
  · have hlevel := level_of_load hload
    obtain ⟨other, hother, hstage, hload'⟩ := exists_worker_of_level hg
      (show q.level = 2 * worker.stage + 2 by omega)
    exact hearly worker hworker (p, frame) hload other hother hstage (q, g) hload'

theorem submitting_of_step {a : Action ℕ} (h : Sequenced cfg n s) (hs : step cfg s a = some s')
    (hnext : ∀ f, a = .submit f → f = n) : s'.submitting.Pairwise (· < ·) := by
  rw [(counter_of_step hs).2]
  cases a with
  | submit f =>
    obtain rfl := hnext f rfl
    rw [submittingAfter, List.pairwise_append]
    refine ⟨h.submitting, List.pairwise_singleton _ _, ?_⟩
    intro x hx y hy
    obtain rfl := List.mem_singleton.mp hy
    exact h.lt_of_mem (mem_placed_submitting.mpr hx)
  | enter k => exact h.submitting.sublist (List.eraseIdx_sublist ..)
  | _ => exact h.submitting

/-- Every step without failure, stop or overtaking keeps the sequence. -/
theorem step (hexport : ∀ i, cfg.typeAt i = some .exportStage ↔ i + 1 = cfg.stages.length)
    (hcallback : cfg.callbackSet = true) {a : Action ℕ} (h : Sequenced cfg n s)
    (hsmooth : Smooth a) (hpass : NoOvertaking cfg s a) (hs : step cfg s a = some s')
    (hnext : ∀ f, a = .submit f → f = n) :
    Sequenced cfg (if a.isSubmit then n + 1 else n) s' := by
  have hqueues := queues_of_step h hs
  have hsub := h.submitting_of_step hs hnext
  have hcount := (counter_of_step hs).1
  obtain ⟨hsent, hdrain⟩ := h.order h.running
  cases step_effect hs with
  | submit moved =>
    obtain rfl := hnext _ rfl
    exact h.of_submitted moved hcount hqueues hsub
  | @enter k frame moved =>
    obtain rfl : k = 0 := hsmooth
    have hnodes := lt_of_mem_queueAt (mem_placed_queued.mp moved.mem_dst)
    rw [nodes_length_of_moved moved, h.nodes] at hnodes
    obtain ⟨first, rest, hfirst⟩ :=
      List.exists_cons_of_ne_nil (List.ne_nil_of_mem (mem_placed_submitting.mp moved.mem_src))
    have hafter : s'.submitting = rest := by
      rw [(counter_of_step hs).2, submittingAfter, hfirst]
      rfl
    refine h.of_moved moved hcount (by simp [Place.level]) (by simp [Place.level]; omega) ?_
      hqueues hsub
    intro p' g hg hg' _ _ hlt
    have hp : p' = .submitting := by
      cases p' <;> simp [Place.level] at hlt
      rfl
    subst hp
    exact lt_of_first hfirst h.submitting (fun _ => mem_placed_submitting)
      (fun _ => by rw [mem_placed_submitting, hafter]) moved g hg'
  | @dequeue w worker frame moved =>
    have hnodes := lt_of_mem_queueAt (mem_placed_queued.mp moved.mem_src)
    rw [h.nodes] at hnodes
    obtain ⟨first, hfirst⟩ := h.exists_first hs rfl moved
    refine h.of_moved moved hcount (by simp [Place.level]) (by simp [Place.level]; omega) ?_
      hqueues hsub
    intro p' g hg hg' _ hle hlt
    have hp : p' = .queued worker.stage := by
      cases p' <;> simp only [Place.level] at hle hlt <;> first | omega | skip
      congr 1
      omega
    subst hp
    exact lt_of_first hfirst (h.queues _) (fun _ => mem_placed_queued)
      (fun _ => mem_placed_queued) moved g hg'
  | takeImage _ _ _ moved => exact h.of_moved_same moved hcount rfl hqueues hsub
  | failed => exact hsmooth.elim
  | @passed _ worker frame wasExporting _ _ _ moved =>
    refine h.of_moved_same moved hcount ?_ hqueues hsub
    cases wasExporting <;> rfl
  | @publish w worker frame data m hworker hphase moved _ hmetrics =>
    have hlen : s.metrics.length = cfg.stages.length := by
      rw [PipelineState.metrics, List.length_map, h.nodes]
    have hstage := (List.getElem?_eq_some_iff.mp hmetrics).1
    rw [hlen] at moved hstage
    rw [reported_publish hworker hphase] at hcount
    by_cases hlast : worker.stage + 1 = cfg.stages.length
    · -- the export worker reports the frame, and the frame is gone
      have htype := (hexport worker.stage).mpr hlast
      have hreports : cfg.typeAt worker.stage = some .exportStage ∧ cfg.callbackSet :=
        ⟨htype, hcallback⟩
      simp only [if_pos hreports, Option.isSome_some, if_true] at hcount
      rw [if_neg (by omega)] at moved
      have hload : worker.load = some (.finished worker.stage, frame) := by
        rw [Worker.load, hphase]
      refine h.of_left moved hcount (fun q g hg => ?_) hqueues hsub
      refine h.lt_of_earliest hworker hload (hpass ⟨worker, hworker, htype⟩) q g hg ?_
      have hbounded := h.bounded q g hg
      show q.level ≤ 2 * worker.stage + 2
      omega
    · have htype : cfg.typeAt worker.stage ≠ some .exportStage := fun htype =>
        hlast ((hexport worker.stage).mp htype)
      have hreports : ¬ (cfg.typeAt worker.stage = some .exportStage ∧ cfg.callbackSet) :=
        fun hboth => htype hboth.1
      simp only [if_neg hreports, Option.isSome_none, Bool.false_eq_true, if_false] at hcount
      rw [if_pos (by omega)] at moved
      exact h.of_moved_same moved hcount rfl hqueues hsub
  | deliver =>
    obtain ⟨worker, frame, hworker, hload, moved, -, -⟩ := moved_of_deliver (stepTo_of_step hs)
    have hnodes := lt_of_mem_queueAt (mem_placed_queued.mp moved.mem_dst)
    rw [nodes_length_of_moved moved, h.nodes] at hnodes
    refine h.of_moved moved hcount (by simp only [Place.level]; omega)
      (by simp only [Place.level]; omega) ?_ hqueues hsub
    intro p' g hg _ hne hle hlt
    have hearly := h.lt_of_earliest hworker hload hpass p' g hg
      (by simp only [Place.level] at hlt ⊢; omega)
    omega
  | abandon _ _ _ stopped => omega
  | forceDrain _ _ _ stopped => simp [hdrain] at stopped
  | control is_control =>
    rw [h.not_control hs hsmooth] at is_control
    cases is_control

end Sequenced

/-! ### Runs -/

theorem submitted_append {α : Type} (actions : List (Action α)) (a : Action α) :
    submitted (actions ++ [a]) = submitted actions ++ submitted [a] := by
  rw [submitted, List.filterMap_append]
  rfl

/-- A guarded run keeps the sequence. -/
theorem sequenced_of_run {cfg : LineConfig}
    (hexport : ∀ i, cfg.typeAt i = some .exportStage ↔ i + 1 = cfg.stages.length)
    (hcallback : cfg.callbackSet = true) {actions : List (Action ℕ)} {s : PipelineState ℕ}
    (h : Transition.Guarded (step cfg) (fun s a => Smooth a ∧ NoOvertaking cfg s a) cfg.start
      actions s) : ∀ n, submitted actions = List.range n → Sequenced cfg n s := by
  induction h with
  | start =>
    intro n hn
    obtain rfl : n = 0 := by simpa [submitted] using (congrArg List.length hn).symm
    exact .start cfg
  | @next actions s s' a _ hguard hs ih =>
    intro n hn
    rw [submitted_append] at hn
    have hother : ∀ m, submitted actions = List.range m → submitted [a] = [] → m = n →
        a.isSubmit = false → (∀ f, a = .submit f → f = m) → Sequenced cfg n s' := by
      rintro m hm - rfl ha hnext
      have hstep := (ih m hm).step hexport hcallback hguard.1 hguard.2 hs hnext
      rwa [ha] at hstep
    cases a with
    | submit f =>
      have hlen := congrArg List.length hn
      simp [submitted] at hlen
      obtain ⟨m, rfl⟩ : ∃ m, n = m + 1 := ⟨n - 1, by omega⟩
      rw [List.range_succ] at hn
      obtain ⟨hm, hf⟩ := List.append_inj' hn rfl
      obtain rfl : f = m := by simpa [submitted] using hf
      exact (ih f hm).step hexport hcallback hguard.1 hguard.2 hs fun g hg =>
        (Action.submit.inj hg).symm
    | _ =>
      refine hother n ?_ rfl rfl rfl nofun
      simpa [submitted] using hn

theorem inspection_export (i : ℕ) :
    LineConfig.inspection.typeAt i = some .exportStage ↔ i + 1 = 7 := by
  rcases Nat.lt_or_ge i 7 with hi | hi
  · interval_cases i <;> decide
  · have hnone : LineConfig.inspection.typeAt i = none :=
      congrArg (Option.map StageConfig.stageType) (List.getElem?_eq_none hi)
    rw [hnone]
    constructor
    · nofun
    · omega

/-- A worker of an inner stage takes a frame through its stage. -/
def passStage (w : ℕ) : List (Action ℕ) :=
  [.dequeue w, .process w (.passed false), .publish w, .deliver w]

/-- From the queue of the second stage to the callback. -/
def passRest : List (Action ℕ) :=
  ([2, 4, 5, 6, 8].map passStage).flatten ++ [.dequeue 10, .takeImage 10, .process 10 (.passed false)]

end SurfaceAi.Pipeline
