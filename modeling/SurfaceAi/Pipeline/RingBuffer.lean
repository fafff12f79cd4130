import SurfaceAi.Library.Ring
import SurfaceAi.Library.Transition
import SurfaceAi.Pipeline.Stage

/-! The ring buffer under a stage queue, and the blocking operations over it. The mutex of
the queue makes each of them one step; run alone, they act on the ring as the operations of
`StageQueue` act on its list. -/

namespace SurfaceAi.Pipeline

structure RingBuffer (α : Type) where
  logicalCapacity : ℕ
  policy : BackpressurePolicy
  buffer : List (Option α)
  head : ℕ
  tail : ℕ
  droppedCount : ℕ
  deriving DecidableEq

namespace RingBuffer

variable {α : Type}

/-- One slot more than the capacity tells a full ring from an empty one. -/
def create (capacity : ℕ) (policy : BackpressurePolicy) : RingBuffer α where
  logicalCapacity := capacity
  policy := policy
  buffer := List.replicate (capacity + 1) none
  head := 0
  tail := 0
  droppedCount := 0

variable (r : RingBuffer α)

/-- The slot after this one. -/
def next (i : ℕ) : ℕ := (i + 1) % (r.logicalCapacity + 1)

/-- What stands in a slot. -/
def slot (i : ℕ) : Option α := r.buffer[i]?.join

def writeSlot (i : ℕ) (v : Option α) : RingBuffer α := { r with buffer := r.buffer.set i v }

def depth : ℕ :=
  if r.head ≤ r.tail then r.tail - r.head else r.logicalCapacity + 1 - r.head + r.tail

def isFull : Bool := r.next r.tail = r.head

def isEmpty : Bool := r.head = r.tail

/-- The head moves past the oldest item. -/
def dropOldest : RingBuffer α :=
  { r with head := r.next r.head, droppedCount := r.droppedCount + 1 }

/-- Write at the tail and publish the slot. -/
def append (item : α) : RingBuffer α :=
  { r.writeSlot r.tail (some item) with tail := r.next r.tail }

def tryPush (item : α) : Bool × RingBuffer α :=
  if r.isFull then
    if r.policy = .dropOldest then (true, r.dropOldest.append item) else (false, r)
  else (true, r.append item)

/-- The slot is moved out of. -/
def tryPop : Option α × RingBuffer α :=
  if r.isEmpty then (none, r)
  else (r.slot r.head, { r.writeSlot r.head none with head := r.next r.head })

/-! ### The stage queue -/

/-- `StageQueue::Create`. -/
def createQueue (capacity : ℕ) (policy : BackpressurePolicy) : Result (RingBuffer α) :=
  if capacity = 0 then fail .schedulerQueueCreateFailed "Queue capacity must be > 0"
  else .ok (create capacity policy)

/-- `PushBlocking` once the ring is not full. -/
def pushBlocking (item : α) : Option (RingBuffer α) :=
  if r.isFull then none else some (r.tryPush item).2

/-- `PushBlockingWithStop`: a requested stop ends the wait and leaves the item unpushed. -/
def pushBlockingWithStop (item : α) (stop : Bool) : Option (Bool × RingBuffer α) :=
  if r.isFull then if stop then some (false, r) else none
  else some (true, (r.tryPush item).2)

def popBlocking : Option (Option α × RingBuffer α) :=
  if r.isEmpty then none else some r.tryPop

def popBlockingWithStop (stop : Bool) : Option (Option α × RingBuffer α) :=
  if r.isEmpty then if stop then some (none, r) else none
  else some r.tryPop

/-- What the ring holds, from the oldest on. -/
def contents : List (Option α) := Ring.stored r.buffer r.head r.depth

/-- The ring holds what the queue lists. -/
structure Represents (q : StageQueue α) : Prop where
  capacity : r.logicalCapacity = q.capacity
  policy : r.policy = q.policy
  dropped : r.droppedCount = q.droppedCount
  slots : r.buffer.length = r.logicalCapacity + 1
  head_lt : r.head < r.logicalCapacity + 1
  tail_eq : r.tail = (r.head + q.items.length) % (r.logicalCapacity + 1)
  holds : Ring.Holds r.buffer r.head q.items

/-! ### The ring and the list -/

section Represents

variable {r} {q : StageQueue α}

theorem create_represents (capacity : ℕ) (policy : BackpressurePolicy) :
    (create capacity policy : RingBuffer α).Represents (.create capacity policy) where
  capacity := rfl
  policy := rfl
  dropped := rfl
  slots := by simp [create]
  head_lt := Nat.succ_pos _
  tail_eq := by simp [create, StageQueue.create]
  holds := .nil _ (by simp [create])

namespace Represents

theorem length_le (h : r.Represents q) : q.items.length ≤ r.logicalCapacity := by
  have := h.holds.room
  rw [h.slots] at this
  omega

theorem depth_eq (h : r.Represents q) : r.depth = q.depth := by
  have hlen := h.holds.length_eq (by rw [h.slots]; exact h.head_lt)
  rw [h.slots, ← h.tail_eq] at hlen
  rw [depth, StageQueue.depth, hlen]

theorem contents_eq (h : r.Represents q) : r.contents = q.items.map some := by
  rw [contents, h.depth_eq]
  exact h.holds.stored_eq

theorem next_tail (h : r.Represents q) :
    r.next r.tail = (r.head + q.items.length + 1) % (r.logicalCapacity + 1) := by
  rw [next, h.tail_eq, Nat.mod_add_mod]

theorem isFull_eq (h : r.Represents q) : r.isFull = q.isFull := by
  have hfull := h.holds.next_eq_head_iff
  rw [h.slots, ← h.next_tail, Nat.mod_eq_of_lt h.head_lt] at hfull
  have := h.length_le
  rw [isFull, StageQueue.isFull, StageQueue.depth, ← h.capacity, decide_eq_decide, hfull]
  omega

theorem isEmpty_eq (h : r.Represents q) : r.isEmpty = q.isEmpty := by
  have hempty := h.holds.back_eq_head_iff
  rw [h.slots, ← h.tail_eq, Nat.mod_eq_of_lt h.head_lt] at hempty
  rw [isEmpty, StageQueue.isEmpty, Bool.eq_iff_iff, List.isEmpty_iff, ← hempty]
  simp [eq_comm]

/-- An item written behind the last one. -/
theorem append (h : r.Represents q) (item : α) (hroom : q.items.length < r.logicalCapacity) :
    (r.append item).Represents { q with items := q.items ++ [item] } where
  capacity := h.capacity
  policy := h.policy
  dropped := h.dropped
  slots := by simpa [RingBuffer.append, writeSlot] using h.slots
  head_lt := h.head_lt
  tail_eq := by
    show r.next r.tail = _
    rw [h.next_tail]
    simp [RingBuffer.append, writeSlot, Nat.add_assoc]
  holds := by
    have hroom : q.items.length + 1 < r.buffer.length := by rw [h.slots]; omega
    have := h.holds.push hroom item
    rwa [h.slots, ← h.tail_eq] at this

theorem dropOldest (h : r.Represents q) {first : α} {items : List α}
    (hitems : q.items = first :: items) :
    r.dropOldest.Represents { q with items := items, droppedCount := q.droppedCount + 1 } where
  capacity := h.capacity
  policy := h.policy
  dropped := congrArg (· + 1) h.dropped
  slots := h.slots
  head_lt := Nat.mod_lt _ (Nat.succ_pos _)
  tail_eq := by
    show r.tail = ((r.head + 1) % (r.logicalCapacity + 1) + items.length) %
      (r.logicalCapacity + 1)
    rw [h.tail_eq, hitems, Ring.slot_succ, List.length_cons]
  holds := by
    have := h.holds
    rw [hitems] at this
    have htail := Ring.Holds.mod_head_iff.mpr this.tail
    rwa [h.slots] at htail

theorem tryPush (h : r.Represents q) (hc : 0 < r.logicalCapacity) (item : α) :
    (r.tryPush item).1 = (q.tryPush item).1 ∧
      (r.tryPush item).2.Represents (q.tryPush item).2 := by
  have hle := h.length_le
  unfold RingBuffer.tryPush StageQueue.tryPush
  rw [h.isFull_eq, h.policy]
  by_cases hfull : q.isFull
  · rw [if_pos hfull, if_pos hfull]
    by_cases hdrop : q.policy = .dropOldest
    · rw [if_pos hdrop, if_pos hdrop]
      have hlen : q.capacity ≤ q.items.length := q.isFull_iff.mp hfull
      have := h.capacity
      obtain ⟨first, items, hitems⟩ : ∃ first items, q.items = first :: items :=
        List.exists_cons_of_length_pos (by omega)
      refine ⟨rfl, ?_⟩
      rw [hitems]
      apply (h.dropOldest hitems).append
      simp [hitems] at hle
      exact hle
    · rw [if_neg hdrop, if_neg hdrop]
      exact ⟨rfl, h⟩
  · rw [if_neg hfull, if_neg hfull]
    rw [q.isFull_iff, ← h.capacity] at hfull
    exact ⟨rfl, h.append item (by omega)⟩

theorem tryPop_nil (h : r.Represents q) (hitems : q.items = []) : r.tryPop = (none, r) := by
  have : r.isEmpty = true := by simp [h.isEmpty_eq, StageQueue.isEmpty, hitems]
  rw [tryPop, if_pos this]

theorem tryPop_cons (h : r.Represents q) {first : α} {items : List α}
    (hitems : q.items = first :: items) :
    r.tryPop.1 = some first ∧ r.tryPop.2.Represents { q with items := items } := by
  have hne : ¬ r.isEmpty = true := by simp [h.isEmpty_eq, StageQueue.isEmpty, hitems]
  have hholds := h.holds
  rw [hitems] at hholds
  have hfirst := hholds.first
  rw [h.slots, Nat.mod_eq_of_lt h.head_lt] at hfirst
  rw [tryPop, if_neg hne]
  refine ⟨by simp [slot, hfirst], ?_⟩
  have hdrop := h.dropOldest hitems
  refine ⟨h.capacity, h.policy, h.dropped, ?_, hdrop.head_lt, hdrop.tail_eq, ?_⟩
  · simpa [writeSlot] using h.slots
  · -- the slot moved out of is the one behind the queue that is left
    apply hdrop.holds.write
    intro i hi
    show (r.next r.head + i) % r.buffer.length ≠ r.head
    rw [h.slots, next, Ring.slot_succ]
    have := h.length_le
    have hne := Ring.slot_ne_head (n := r.logicalCapacity + 1) r.head (Nat.succ_pos i)
      (by simp [hitems] at this; simp at hi; omega)
    rwa [Nat.mod_eq_of_lt h.head_lt] at hne

end Represents

end Represents

/-! ### Runs of queue operations -/

inductive QueueOp (α : Type) where
  | tryPush (item : α)
  | pushBlocking (item : α)
  | pushBlockingWithStop (item : α) (stop : Bool)
  | tryPop
  | popBlocking
  | popBlockingWithStop (stop : Bool)

/-- One operation; absent while it waits. -/
def step : QueueOp α → Option (RingBuffer α)
  | .tryPush item => some (r.tryPush item).2
  | .pushBlocking item => r.pushBlocking item
  | .pushBlockingWithStop item stop => (r.pushBlockingWithStop item stop).map Prod.snd
  | .tryPop => some r.tryPop.2
  | .popBlocking => r.popBlocking.map Prod.snd
  | .popBlockingWithStop stop => (r.popBlockingWithStop stop).map Prod.snd

/-- The operations of the pipeline's threads: pushes wait for room. -/
def QueueOp.waitsForRoom : QueueOp α → Prop
  | .tryPush _ => False
  | _ => True

section Runs

variable {r} {r' : RingBuffer α} {q : StageQueue α}

/-- What an operation does to the ring: nothing, a push, or a pop. -/
theorem step_cases {op : QueueOp α} (h : r.step op = some r') :
    r' = r ∨ r' = r.tryPop.2 ∨
      ∃ item, r' = (r.tryPush item).2 ∧ (op.waitsForRoom → r.isFull = false) := by
  cases op with
  | tryPush item =>
    obtain rfl := Option.some.inj h
    exact .inr (.inr ⟨item, rfl, False.elim⟩)
  | pushBlocking item =>
    simp only [step, pushBlocking, Option.ite_none_left_eq_some] at h
    exact .inr (.inr ⟨item, (Option.some.inj h.2).symm, fun _ => by simpa using h.1⟩)
  | pushBlockingWithStop item stop =>
    simp only [step, pushBlockingWithStop] at h
    split_ifs at h with hfull hstop
    · exact .inl (Option.some.inj h).symm
    · cases h
    · exact .inr (.inr ⟨item, (Option.some.inj h).symm, fun _ => by simpa using hfull⟩)
  | tryPop => exact .inr (.inl (Option.some.inj h).symm)
  | popBlocking =>
    simp only [step, popBlocking] at h
    split_ifs at h with hempty
    · cases h
    · exact .inr (.inl (Option.some.inj h).symm)
  | popBlockingWithStop stop =>
    simp only [step, popBlockingWithStop] at h
    split_ifs at h with hempty hstop
    · exact .inl (Option.some.inj h).symm
    · cases h
    · exact .inr (.inl (Option.some.inj h).symm)

theorem Represents.pop (h : r.Represents q) :
    ∃ q', r.tryPop.2.Represents q' ∧ q'.capacity = q.capacity ∧ q'.policy = q.policy := by
  cases hitems : q.items with
  | nil =>
    rw [h.tryPop_nil hitems]
    exact ⟨q, h, rfl, rfl⟩
  | cons first items => exact ⟨_, (h.tryPop_cons hitems).2, rfl, rfl⟩

theorem tryPush_capacity (q : StageQueue α) (item : α) :
    (q.tryPush item).2.capacity = q.capacity ∧ (q.tryPush item).2.policy = q.policy := by
  unfold StageQueue.tryPush
  split_ifs <;> exact ⟨rfl, rfl⟩

theorem Represents.step (h : r.Represents q) (hc : 0 < q.capacity) {op : QueueOp α}
    (hs : r.step op = some r') :
    ∃ q', r'.Represents q' ∧ q'.capacity = q.capacity ∧ q'.policy = q.policy := by
  rcases step_cases hs with rfl | rfl | ⟨item, rfl, -⟩
  · exact ⟨q, h, rfl, rfl⟩
  · exact h.pop
  · have hc' : 0 < r.logicalCapacity := by rw [h.capacity]; exact hc
    exact ⟨_, (h.tryPush hc' item).2, tryPush_capacity q item⟩

theorem createQueue_eq_ok {capacity : ℕ} {policy : BackpressurePolicy} {start : RingBuffer α}
    (h : createQueue capacity policy = .ok start) :
    0 < capacity ∧ start = create capacity policy := by
  unfold createQueue at h
  split_ifs at h with hzero
  · cases h
  · exact ⟨Nat.pos_of_ne_zero hzero, (Except.ok.inj h).symm⟩

/-- Whatever is done to a created queue, its ring holds some list of items. -/
theorem represents_of_reachable {capacity : ℕ} {policy : BackpressurePolicy}
    {start : RingBuffer α} (hcreate : createQueue capacity policy = .ok start)
    {guard : RingBuffer α → QueueOp α → Prop}
    (h : Transition.Reachable step guard start r) :
    ∃ q : StageQueue α, r.Represents q ∧ q.capacity = capacity ∧ q.policy = policy := by
  obtain ⟨hc, rfl⟩ := createQueue_eq_ok hcreate
  apply h.invariant
  · exact ⟨_, create_represents capacity policy, rfl, rfl⟩
  · intro s op s' ⟨q, hq, hcap, hpol⟩ _ hs
    obtain ⟨q', hq', hcap', hpol'⟩ := hq.step (hcap ▸ hc) hs
    exact ⟨q', hq', hcap'.trans hcap, hpol'.trans hpol⟩

/-- The pipeline's own pushes never drop a frame. -/
theorem droppedCount_eq_zero {capacity : ℕ} {policy : BackpressurePolicy}
    {start : RingBuffer α} (hcreate : createQueue capacity policy = .ok start)
    (h : Transition.Reachable step (fun _ op => op.waitsForRoom) start r) :
    r.droppedCount = 0 := by
  obtain ⟨-, rfl⟩ := createQueue_eq_ok hcreate
  apply h.invariant
  · rfl
  · intro s op s' hzero hwaits hs
    rcases step_cases hs with rfl | rfl | ⟨item, rfl, hroom⟩
    · exact hzero
    · unfold tryPop
      split_ifs <;> exact hzero
    · rw [tryPush, hroom hwaits]
      exact hzero

end Runs

/-- The push goes through at once, and on a full ring it takes the place of the oldest
item, which is counted as dropped. -/
def DropsOldest (push : RingBuffer α → Option (RingBuffer α)) (item : α) : Prop :=
  ∃ r', push r = some r' ∧ (r.isFull = true →
    r'.contents = r.contents.tail ++ [some item] ∧ r'.droppedCount = r.droppedCount + 1)

/-- A push that waits for room, or gives up without pushing, drops nothing from a full
ring. -/
theorem dropsOldest_iff {push : RingBuffer α → Option (RingBuffer α)} {item : α}
    (hroom : r.isFull = false → (push r).isSome)
    (hfull : r.isFull = true → ∀ r', push r = some r' → r' = r) :
    r.DropsOldest push item ↔ r.isFull = false := by
  constructor
  · rintro ⟨r', hpush, hdrop⟩
    by_contra hne
    have hisFull : r.isFull = true := by simpa using hne
    have hcount := (hdrop hisFull).2
    rw [hfull hisFull r' hpush] at hcount
    omega
  · intro hnot
    obtain ⟨r', hpush⟩ := Option.isSome_iff_exists.mp (hroom hnot)
    exact ⟨r', hpush, fun hisFull => by simp [hnot] at hisFull⟩

/-- The pushes of `Submit` and of `EnqueueOutputs` on a queue created to drop its oldest
frame do so exactly while it holds fewer frames than its capacity: on a full queue they
wait. -/
theorem push_drops_oldest_iff {capacity : ℕ} {start r : RingBuffer α}
    (hcreate : createQueue capacity .dropOldest = .ok start)
    (h : Transition.Reachable step (fun _ _ => True) start r) (item : α) (stop : Bool) :
    (r.DropsOldest (fun r => r.step (.pushBlocking item)) item ↔ r.depth < capacity) ∧
      (r.DropsOldest (fun r => r.step (.pushBlockingWithStop item stop)) item ↔
        r.depth < capacity) := by
  obtain ⟨q, hq, hcap, -⟩ := represents_of_reachable hcreate h
  have hdepth : r.isFull = false ↔ r.depth < capacity := by
    rw [hq.isFull_eq, hq.depth_eq, ← hcap, ← Bool.not_eq_true, q.isFull_iff, not_le]
    rfl
  rw [← hdepth]
  constructor
  · apply dropsOldest_iff
    · intro hnot
      simp [step, pushBlocking, hnot]
    · intro hfull r' hpush
      simp [step, pushBlocking, hfull] at hpush
  · apply dropsOldest_iff
    · intro hnot
      simp [step, pushBlockingWithStop, hnot]
    · intro hfull r' hpush
      cases stop <;> simp [step, pushBlockingWithStop, hfull] at hpush
      exact hpush.symm

/-- One frame in a queue for two. -/
theorem push_drops_oldest_half_full :
    (RingBuffer.create 2 .dropOldest |>.append 0).DropsOldest
      (fun r => r.step (.pushBlocking 1)) 1 ↔ 1 < 2 := by
  have hcreate : createQueue 2 .dropOldest = .ok (create 2 .dropOldest : RingBuffer ℕ) := rfl
  exact (push_drops_oldest_iff hcreate (.next (a := .pushBlocking 0) .start trivial rfl) 1 false).1

/-- A queue for one frame that drops its oldest holds one: the next push waits. -/
theorem full_queue_push_waits :
    ¬ ∀ start r : RingBuffer ℕ, createQueue 1 .dropOldest = .ok start →
      Transition.Reachable step (fun _ _ => True) start r →
        r.DropsOldest (fun r => r.step (.pushBlocking 1)) 1 := by
  intro h
  obtain ⟨r', hpush, -⟩ := h (create 1 .dropOldest) ((create 1 .dropOldest).append 0) rfl
    (.next (a := .pushBlocking 0) .start trivial rfl)
  have hwaits : ((create 1 .dropOldest).append 0).step (.pushBlocking 1) = none := by decide
  exact absurd (hwaits.symm.trans hpush) (by simp)

end RingBuffer

end SurfaceAi.Pipeline
