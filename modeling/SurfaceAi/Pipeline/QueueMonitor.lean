import SurfaceAi.Library.Monitor
import SurfaceAi.Pipeline.RingBuffer

/-! A stage queue as a monitor: its blocking calls are critical sections on the mutex and
wait on one condition variable, pushers and poppers alike. -/

namespace SurfaceAi.Pipeline

open Monitor

namespace RingBuffer

variable {α : Type}

inductive QueueCall (α : Type) where
  | pushBlocking (item : α)
  | pushBlockingWithStop (item : α)
  | popBlocking
  | popBlockingWithStop
  deriving DecidableEq

/-- The call as an operation of the queue, with no stop requested. -/
def QueueCall.toOp : QueueCall α → QueueOp α
  | .pushBlocking item => .pushBlocking item
  | .pushBlockingWithStop item => .pushBlockingWithStop item false
  | .popBlocking => .popBlocking
  | .popBlockingWithStop => .popBlockingWithStop false

/-- The wait predicates, and what is done once they hold. -/
def queueOps : Ops (RingBuffer α) (QueueCall α) where
  ready
    | .pushBlocking _, r | .pushBlockingWithStop _, r => !r.isFull
    | .popBlocking, r | .popBlockingWithStop, r => !r.isEmpty
  perform
    | .pushBlocking item, r | .pushBlockingWithStop item, r => (r.tryPush item).2
    | .popBlocking, r | .popBlockingWithStop, r => r.tryPop.2

/-- The critical section is the operation of the queue. -/
theorem step_toOp (call : QueueCall α) (r : RingBuffer α) :
    r.step call.toOp =
      if queueOps.ready call r then some (queueOps.perform call r) else none := by
  cases call with
  | pushBlocking item => cases h : r.isFull <;> simp [step, QueueCall.toOp, queueOps, pushBlocking, h]
  | pushBlockingWithStop item =>
    cases h : r.isFull <;> simp [step, QueueCall.toOp, queueOps, pushBlockingWithStop, h]
  | popBlocking => cases h : r.isEmpty <;> simp [step, QueueCall.toOp, queueOps, popBlocking, h]
  | popBlockingWithStop =>
    cases h : r.isEmpty <;> simp [step, QueueCall.toOp, queueOps, popBlockingWithStop, h]

inductive Side where
  | push | pop
  deriving DecidableEq

def side : QueueCall α → Side
  | .pushBlocking _ | .pushBlockingWithStop _ => .push
  | .popBlocking | .popBlockingWithStop => .pop

/-- A push makes room for pops and the other way round. -/
def frees : QueueCall α → Side
  | .pushBlocking _ | .pushBlockingWithStop _ => .pop
  | .popBlocking | .popBlockingWithStop => .push

/-- How many calls of a side can be performed one after the other. -/
def slack : Side → RingBuffer α → ℕ
  | .push, r => r.logicalCapacity - r.depth
  | .pop, r => r.depth

/-- The ring holds some list of items and has room for one. -/
def Sound (r : RingBuffer α) : Prop := 0 < r.logicalCapacity ∧ ∃ q, r.Represents q

theorem Sound.of_create {capacity : ℕ} {policy : BackpressurePolicy} {start : RingBuffer α}
    (h : createQueue capacity policy = .ok start) : start.Sound := by
  obtain ⟨hpos, rfl⟩ := createQueue_eq_ok h
  exact ⟨hpos, _, create_represents capacity policy⟩

namespace Sound

variable {r : RingBuffer α}

theorem depth_le (h : r.Sound) : r.depth ≤ r.logicalCapacity := by
  obtain ⟨-, q, hq⟩ := h
  rw [hq.depth_eq]
  exact hq.length_le

theorem isFull_iff (h : r.Sound) : r.isFull = true ↔ r.depth = r.logicalCapacity := by
  have hle := h.depth_le
  obtain ⟨-, q, hq⟩ := h
  rw [hq.isFull_eq, q.isFull_iff, ← hq.capacity, hq.depth_eq] at *
  exact ⟨fun hfull => le_antisymm hle hfull, fun heq => heq.ge⟩

theorem isEmpty_iff (h : r.Sound) : r.isEmpty = true ↔ r.depth = 0 := by
  obtain ⟨-, q, hq⟩ := h
  rw [hq.isEmpty_eq, hq.depth_eq, StageQueue.isEmpty, StageQueue.depth, List.isEmpty_iff,
    List.length_eq_zero_iff]

/-- A push that is not refused adds one item. -/
theorem push (h : r.Sound) (hroom : ¬ r.isFull = true) (item : α) :
    (r.tryPush item).2.Sound ∧ (r.tryPush item).2.depth = r.depth + 1 ∧
      (r.tryPush item).2.logicalCapacity = r.logicalCapacity := by
  obtain ⟨hpos, q, hq⟩ := h
  have hpush := (hq.tryPush hpos item).2
  have hq' : (q.tryPush item).2 = { q with items := q.items ++ [item] } := by
    rw [StageQueue.tryPush, if_neg (by rwa [← hq.isFull_eq])]
  rw [hq'] at hpush
  have hcap : (r.tryPush item).2.logicalCapacity = r.logicalCapacity :=
    hpush.capacity.trans hq.capacity.symm
  refine ⟨⟨by rwa [hcap], _, hpush⟩, ?_, hcap⟩
  rw [hpush.depth_eq, hq.depth_eq]
  simp [StageQueue.depth]

/-- A pop that finds an item takes one. -/
theorem pop (h : r.Sound) (hitem : ¬ r.isEmpty = true) :
    r.tryPop.2.Sound ∧ r.tryPop.2.depth + 1 = r.depth ∧
      r.tryPop.2.logicalCapacity = r.logicalCapacity := by
  obtain ⟨hpos, q, hq⟩ := h
  obtain ⟨first, items, hitems⟩ : ∃ first items, q.items = first :: items := by
    apply List.exists_cons_of_ne_nil
    intro hnil
    rw [hq.isEmpty_eq, StageQueue.isEmpty, hnil] at hitem
    exact hitem rfl
  have hpop := (hq.tryPop_cons hitems).2
  have hcap : r.tryPop.2.logicalCapacity = r.logicalCapacity :=
    hpop.capacity.trans hq.capacity.symm
  refine ⟨⟨by rwa [hcap], _, hpop⟩, ?_, hcap⟩
  rw [hpop.depth_eq, hq.depth_eq]
  simp [StageQueue.depth, hitems]

end Sound

theorem ready_iff (call : QueueCall α) {r : RingBuffer α} (h : r.Sound) :
    queueOps.ready call r = true ↔ 0 < slack (side call) r := by
  have hpush : (!r.isFull) = true ↔ 0 < r.logicalCapacity - r.depth := by
    have := h.depth_le
    rw [Bool.not_eq_true', ← Bool.not_eq_true, h.isFull_iff]
    omega
  have hpop : (!r.isEmpty) = true ↔ 0 < r.depth := by
    rw [Bool.not_eq_true', ← Bool.not_eq_true, h.isEmpty_iff]
    omega
  cases call with
  | pushBlocking item => exact hpush
  | pushBlockingWithStop item => exact hpush
  | popBlocking => exact hpop
  | popBlockingWithStop => exact hpop

/-- A push takes one place and adds one item; a pop the other way round. -/
theorem perform_effect (call : QueueCall α) {r : RingBuffer α} (h : r.Sound)
    (hready : queueOps.ready call r = true) :
    (queueOps.perform call r).Sound ∧
      slack (side call) (queueOps.perform call r) + 1 = slack (side call) r ∧
      slack (frees call) (queueOps.perform call r) = slack (frees call) r + 1 := by
  have hpush : ∀ item, (!r.isFull) = true → (r.tryPush item).2.Sound ∧
      slack .push (r.tryPush item).2 + 1 = slack .push r ∧
      slack .pop (r.tryPush item).2 = slack .pop r + 1 := by
    intro item hready
    obtain ⟨hsound, hdepth, hcap⟩ := h.push (by simpa using hready) item
    have := hsound.depth_le
    refine ⟨hsound, ?_, hdepth⟩
    simp only [slack]
    omega
  have hpop : (!r.isEmpty) = true → r.tryPop.2.Sound ∧
      slack .pop r.tryPop.2 + 1 = slack .pop r ∧ slack .push r.tryPop.2 = slack .push r + 1 := by
    intro hready
    obtain ⟨hsound, hdepth, hcap⟩ := h.pop (by simpa using hready)
    have := h.depth_le
    refine ⟨hsound, hdepth, ?_⟩
    simp only [slack]
    omega
  cases call with
  | pushBlocking item => exact hpush item hready
  | pushBlockingWithStop item => exact hpush item hready
  | popBlocking => exact hpop hready
  | popBlockingWithStop => exact hpop hready

theorem frees_ne_side (call : QueueCall α) : frees call ≠ side call := by
  cases call <;> nofun

theorem queueOps_counted : Counted (queueOps (α := α)) Sound side frees slack where
  good_perform call r h hready := (perform_effect call h hready).1
  ready_iff call r h := ready_iff call h
  frees_ne := frees_ne_side
  own call r h hready := (perform_effect call h hready).2.1.le
  freed call r h hready := (perform_effect call h hready).2.2.le
  other call r k h hready hside hfrees := by
    cases call <;> cases k <;> first | exact absurd rfl hside | exact absurd rfl hfrees

/-- Any number of threads on a queue of any capacity: as long as every notification wakes a
thread that waits for what the operation has made possible, if there is one, the queue is
never left with all threads asleep and one of them able to go on. -/
theorem no_wakeup_lost {capacity : ℕ} {policy : BackpressurePolicy} {start : RingBuffer α}
    (hcreate : createQueue capacity policy = .ok start) (threads : ℕ)
    {s : State (RingBuffer α) (QueueCall α)}
    (h : Transition.Reachable (State.step queueOps) (MatchedAction side frees)
      ⟨start, List.replicate threads .idle⟩ s) : ¬ s.Stalled queueOps :=
  not_stalled_of_reachable queueOps_counted (Sound.of_create hcreate) threads h

/-- A consumer waits, a producer pushes and wakes it. -/
theorem no_wakeup_lost_pair :
    ¬ (⟨(create 1 .block).append 4, [.idle, .woken .popBlocking]⟩ :
      State (RingBuffer ℕ) (QueueCall ℕ)).Stalled queueOps := by
  have hcreate : createQueue 1 .block = .ok (create 1 .block : RingBuffer ℕ) := rfl
  refine no_wakeup_lost hcreate 2 ?_
  refine .next (a := .call 0 (.pushBlocking 4) (some 1))
    (.next (a := .call 1 .popBlocking none) .start ?_ rfl) ?_ rfl
  · exact fun _ _ htarget => nomatch htarget
  · rintro u op htarget hu -
    obtain rfl := Option.some.inj htarget
    obtain rfl := Phase.waiting.inj (Option.some.inj hu)
    rfl

/-- One producer and two consumers on a queue for one item. The second pop wakes the other
consumer instead of the producer; the queue is empty and all three wait. -/
theorem wakeup_lost :
    ¬ ∀ s : State (RingBuffer ℕ) (QueueCall ℕ),
      Transition.Reachable (State.step queueOps) (fun _ _ => True)
        ⟨create 1 .block, List.replicate 3 .idle⟩ s → ¬ s.Stalled queueOps := by
  intro h
  refine h ⟨⟨1, .block, [none, none], 1, 1, 0⟩,
    [.waiting (.pushBlocking 5), .waiting .popBlocking, .waiting .popBlocking]⟩ ?_ ?_
  · exact .of_run _ [.call 1 .popBlocking none, .call 2 .popBlocking none,
      .call 0 (.pushBlocking 4) (some 1), .call 0 (.pushBlocking 5) none, .resume 1 (some 2),
      .resume 2 none, .call 1 .popBlocking none] rfl
  · exact ⟨by simp, .pushBlocking 5, by simp, rfl⟩

end RingBuffer

end SurfaceAi.Pipeline
