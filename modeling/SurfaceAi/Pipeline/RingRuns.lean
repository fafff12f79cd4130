import SurfaceAi.Pipeline.RingBuffer

/-! The ring buffer under calls made one at a time, beside the list it stands for. The weak
exchange of `TryPop` may fail and is tried again. The one of `TryPush` on a full ring that drops
its oldest item is not: when it fails, the tail is moved up to a head that has not moved, and the
ring is empty. -/

namespace SurfaceAi.Pipeline

namespace RingBuffer

variable {α : Type} (r : RingBuffer α)

/-- `TryPush`, whose weak exchange may fail although the head has not moved. -/
def tryPushWeak (item : α) (spurious : Bool) : Bool × RingBuffer α :=
  if r.isFull then
    if r.policy = .dropOldest then
      (true, (if spurious then r else r.dropOldest).append item)
    else (false, r)
  else (true, r.append item)

/-- The loop of `TryPop` from the head `h` it has loaded, when the exchange fails this often. -/
def popLoop : ℕ → ℕ → Option α × RingBuffer α
  | 0, h =>
    if h = r.tail then (none, r)
    else (r.slot h, { r.writeSlot h none with head := r.next h })
  | failures + 1, h => if h = r.tail then (none, r) else popLoop failures r.head

def tryPopWeak (failures : ℕ) : Option α × RingBuffer α := r.popLoop failures r.head

/-- A push whose exchange does not fail. -/
theorem tryPushWeak_false (item : α) : r.tryPushWeak item false = r.tryPush item := by
  simp [tryPushWeak, tryPush]

/-- However often the exchange of a pop fails, the pop does what one without failures does. -/
theorem tryPopWeak_eq (failures : ℕ) : r.tryPopWeak failures = r.tryPop := by
  unfold tryPopWeak
  induction failures with
  | zero => simp [popLoop, tryPop, isEmpty]
  | succ failures ih =>
    rw [popLoop, ih]
    split_ifs with hempty
    · simp [tryPop, isEmpty, hempty]
    · rfl

end RingBuffer

/-- A call on the queue, with the failures of its exchange. -/
inductive RingCall (α : Type) where
  | tryPush (item : α) (spurious : Bool)
  | tryPop (failures : ℕ)

inductive RingReply (α : Type) where
  | pushed (accepted : Bool)
  | popped (item : Option α)
  deriving DecidableEq

/-- The ring and the list after the same calls, with the pushes the ring accepted and the items
it popped. -/
structure SideBySide (α : Type) where
  ring : RingBuffer α
  queue : StageQueue α
  accepted : ℕ
  popped : ℕ

namespace SideBySide

variable {α : Type}

def created (capacity : ℕ) (policy : BackpressurePolicy) : SideBySide α :=
  ⟨.create capacity policy, .create capacity policy, 0, 0⟩

variable (s : SideBySide α)

/-- What the ring replies. -/
def ringReply : RingCall α → RingReply α
  | .tryPush item spurious => .pushed (s.ring.tryPushWeak item spurious).1
  | .tryPop failures => .popped (s.ring.tryPopWeak failures).1

/-- What the list replies. -/
def queueReply : RingCall α → RingReply α
  | .tryPush item _ => .pushed (s.queue.tryPush item).1
  | .tryPop _ => .popped (s.queue.tryPop.map Prod.fst)

def next : RingCall α → SideBySide α
  | .tryPush item spurious =>
    { ring := (s.ring.tryPushWeak item spurious).2
      queue := (s.queue.tryPush item).2
      accepted := s.accepted + (s.ring.tryPushWeak item spurious).1.toNat
      popped := s.popped }
  | .tryPop failures =>
    { ring := (s.ring.tryPopWeak failures).2
      queue := (s.queue.tryPop.map Prod.snd).getD s.queue
      accepted := s.accepted
      popped := s.popped + (s.ring.tryPopWeak failures).1.isSome.toNat }

def step (call : RingCall α) : Option (SideBySide α) := some (s.next call)

/-- The ring looks like the list, which is no longer than the capacity, and every accepted item
was popped, was dropped or is there. -/
structure Alike (capacity : ℕ) (s : SideBySide α) : Prop where
  bounded : s.queue.items.length ≤ capacity
  contents : s.ring.contents = s.queue.items.map some
  depth : s.ring.depth = s.queue.items.length
  full : s.ring.isFull = true ↔ s.queue.items.length = capacity
  empty : s.ring.isEmpty = true ↔ s.queue.items = []
  dropped : s.ring.droppedCount = s.queue.droppedCount
  accounted : s.accepted = s.popped + s.ring.droppedCount + s.ring.depth

/-- The call is answered as the list answers it, and leaves the ring like the list. -/
def AnsweredAlike (capacity : ℕ) (s : SideBySide α) (call : RingCall α) (s' : SideBySide α) : Prop :=
  s.ringReply call = s.queueReply call ∧ Alike capacity s'

/-- The call is no push on a full ring that is to drop its oldest item and whose exchange
fails. -/
def DropSucceeds (s : SideBySide α) (call : RingCall α) (_ : SideBySide α) : Prop :=
  ∀ item spurious, call = .tryPush item spurious → s.ring.isFull = true →
    s.ring.policy = .dropOldest → spurious = false

/-- The ring holds what the list does, and every accepted item is accounted for. -/
structure Sound (capacity : ℕ) (s : SideBySide α) : Prop where
  capacity_eq : s.queue.capacity = capacity
  represents : s.ring.Represents s.queue
  accounted : s.accepted = s.popped + s.queue.droppedCount + s.queue.items.length

variable {capacity : ℕ} {s}

theorem Sound.alike (h : Sound capacity s) : Alike capacity s where
  bounded := by
    have hle := h.represents.length_le
    rwa [h.represents.capacity, h.capacity_eq] at hle
  contents := h.represents.contents_eq
  depth := h.represents.depth_eq
  full := by
    have hle := h.represents.length_le
    rw [h.represents.capacity, h.capacity_eq] at hle
    rw [h.represents.isFull_eq, s.queue.isFull_iff, h.capacity_eq]
    omega
  empty := by rw [h.represents.isEmpty_eq, StageQueue.isEmpty, List.isEmpty_iff]
  dropped := h.represents.dropped
  accounted := by rw [h.represents.dropped, h.represents.depth_eq, h.accounted, StageQueue.depth]

theorem sound_created (capacity : ℕ) (policy : BackpressurePolicy) :
    Sound capacity (created capacity policy : SideBySide α) :=
  ⟨rfl, RingBuffer.create_represents capacity policy, rfl⟩

/-- A push whose exchange, if it comes to one, succeeds. -/
theorem Sound.push (h : Sound capacity s) (hc : 0 < capacity) {item : α} {spurious : Bool}
    (hexchange : s.ring.isFull = true → s.ring.policy = .dropOldest → spurious = false) :
    s.ringReply (.tryPush item spurious) = s.queueReply (.tryPush item spurious) ∧
      Sound capacity (s.next (.tryPush item spurious)) := by
  have hpush : s.ring.tryPushWeak item spurious = s.ring.tryPush item := by
    unfold RingBuffer.tryPushWeak RingBuffer.tryPush
    by_cases hfull : s.ring.isFull = true
    · by_cases hdrop : s.ring.policy = .dropOldest
      · simp [hfull, hdrop, hexchange hfull hdrop]
      · simp [hfull, hdrop]
    · simp [hfull]
  have hc' : 0 < s.ring.logicalCapacity := by rw [h.represents.capacity, h.capacity_eq]; exact hc
  obtain ⟨hreply, hrepresents⟩ := h.represents.tryPush hc' item
  refine ⟨?_, ?_, ?_, ?_⟩
  · simp only [ringReply, queueReply, hpush, hreply]
  · exact (RingBuffer.tryPush_capacity s.queue item).1.trans h.capacity_eq
  · simpa only [next, hpush] using hrepresents
  · have haccounted := h.accounted
    have hlen : s.queue.capacity ≤ s.queue.items.length → 0 < s.queue.items.length := by
      rw [h.capacity_eq]
      omega
    simp only [next, hpush, hreply]
    unfold StageQueue.tryPush
    split_ifs with hfull hdrop
    · have hpos := hlen (s.queue.isFull_iff.mp hfull)
      simp
      omega
    · simpa using haccounted
    · simp
      omega

theorem Sound.pop (h : Sound capacity s) (failures : ℕ) :
    s.ringReply (.tryPop failures) = s.queueReply (.tryPop failures) ∧
      Sound capacity (s.next (.tryPop failures)) := by
  have haccounted := h.accounted
  simp only [ringReply, queueReply, next, RingBuffer.tryPopWeak_eq]
  unfold StageQueue.tryPop
  cases hitems : s.queue.items with
  | nil =>
    rw [h.represents.tryPop_nil hitems]
    exact ⟨rfl, h.capacity_eq, h.represents, haccounted⟩
  | cons first items =>
    obtain ⟨hreply, hrepresents⟩ := h.represents.tryPop_cons hitems
    rw [hreply]
    refine ⟨rfl, h.capacity_eq, hrepresents, ?_⟩
    rw [hitems, List.length_cons] at haccounted
    simp
    omega

/-- A push that drops nothing publishes a tail that has caught up with the head: the ring is
empty, and the list is not. -/
theorem Sound.not_alike (h : Sound capacity s) {item : α} (hfull : s.ring.isFull = true)
    (hdrop : s.ring.policy = .dropOldest) :
    ¬Alike capacity (s.next (.tryPush item true)) := by
  intro halike
  have hring : (s.ring.tryPushWeak item true).2 = s.ring.append item := by
    simp [RingBuffer.tryPushWeak, hfull, hdrop]
  have hcaught : s.ring.next s.ring.tail = s.ring.head := of_decide_eq_true hfull
  have hempty : (s.ring.append item).depth = 0 := by
    simp [RingBuffer.depth, RingBuffer.append, RingBuffer.writeSlot, hcaught]
  have hitems : (s.queue.tryPush item).2.items = s.queue.items.tail ++ [item] := by
    have hfull' : s.queue.isFull = true := h.represents.isFull_eq ▸ hfull
    have hdrop' : s.queue.policy = .dropOldest := h.represents.policy ▸ hdrop
    simp [StageQueue.tryPush, hfull', hdrop']
  have hdepth : (s.ring.tryPushWeak item true).2.depth = (s.queue.tryPush item).2.items.length :=
    halike.depth
  rw [hring, hempty, hitems] at hdepth
  simp at hdepth

theorem Sound.answered_iff (h : Sound capacity s) (hc : 0 < capacity) (call : RingCall α) :
    AnsweredAlike capacity s call (s.next call) ↔ DropSucceeds s call (s.next call) := by
  cases call with
  | tryPop failures =>
    have hpop := h.pop failures
    exact iff_of_true ⟨hpop.1, hpop.2.alike⟩ (fun _ _ heq => by cases heq)
  | tryPush item spurious =>
    constructor
    · rintro ⟨-, halike⟩ _ _ heq hfull hdrop
      obtain ⟨rfl, rfl⟩ := RingCall.tryPush.inj heq
      by_contra hfails
      rw [Bool.not_eq_false] at hfails
      subst hfails
      exact h.not_alike hfull hdrop halike
    · intro hexchange
      obtain ⟨hreply, hsound⟩ : s.ringReply (.tryPush item spurious) =
          s.queueReply (.tryPush item spurious) ∧ Sound capacity (s.next (.tryPush item spurious)) :=
        h.push hc (hexchange item spurious rfl)
      exact ⟨hreply, hsound.alike⟩

theorem Sound.next (h : Sound capacity s) (hc : 0 < capacity) {call : RingCall α}
    (hexchange : DropSucceeds s call (s.next call)) : Sound capacity (s.next call) := by
  cases call with
  | tryPop failures => exact (h.pop failures).2
  | tryPush item spurious => exact (h.push hc (hexchange item spurious rfl)).2

/-- Calls made one at a time are answered as the list answers them, and leave the ring like the
list after each of them, exactly if no exchange fails in a push on a full ring that is to drop
its oldest item. -/
theorem runs_alike_iff (capacity : ℕ) (hc : 0 < capacity) (policy : BackpressurePolicy)
    (calls : List (RingCall α)) :
    (Alike capacity (created capacity policy : SideBySide α) ∧
        Transition.Along step (AnsweredAlike capacity) (created capacity policy) calls) ↔
      Transition.Along step DropSucceeds (created capacity policy) calls := by
  have hstart := sound_created (α := α) capacity policy
  have hiff : Transition.Along step (AnsweredAlike capacity) (created capacity policy) calls ↔
      Transition.Along step DropSucceeds (created capacity policy : SideBySide α) calls := by
    refine Transition.along_iff (I := Sound capacity) ?_ ?_ hstart calls
    · intro s call s' hs hstep
      obtain rfl := Option.some.inj hstep
      exact hs.answered_iff hc call
    · intro s call s' hs hstep hanswered
      obtain rfl := Option.some.inj hstep
      exact hs.next hc ((hs.answered_iff hc call).mp hanswered)
  rw [hiff]
  exact and_iff_right hstart.alike

theorem runs_alike_pushAndPop :
    (Alike 1 (created 1 .dropOldest : SideBySide ℕ) ∧
        Transition.Along step (AnsweredAlike 1) (created 1 .dropOldest)
          [.tryPush 4 false, .tryPush 5 false, .tryPop 2]) ↔
      Transition.Along step DropSucceeds (created 1 .dropOldest)
        [.tryPush 4 false, .tryPush 5 false, .tryPop 2] :=
  runs_alike_iff 1 (by decide) .dropOldest _

/-- A queue for one item that drops its oldest: the second push replaces nothing, and both items
are gone. -/
theorem failed_drop_empties_ring :
    ¬∀ (capacity : ℕ) (policy : BackpressurePolicy) (calls : List (RingCall ℕ)), 0 < capacity →
      Alike capacity (created capacity policy : SideBySide ℕ) ∧
        Transition.Along step (AnsweredAlike capacity) (created capacity policy) calls := by
  intro h
  have hrun := (h 1 .dropOldest [.tryPush 4 false, .tryPush 5 true] (by decide)).2
  obtain ⟨-, hrest⟩ := hrun _ rfl
  obtain ⟨⟨-, halike⟩, -⟩ := hrest _ rfl
  exact absurd halike.depth (by decide)

end SideBySide

end SurfaceAi.Pipeline
