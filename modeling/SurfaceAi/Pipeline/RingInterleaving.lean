import SurfaceAi.Pipeline.RingBuffer

/-! One thread in `TryPush` and one in `TryPop` on the same ring, interleaved at every access
to it. A pop owns its slot from the exchange it wins to the moment it moves the item out; a
push that drops the oldest item moves the head itself. -/

namespace SurfaceAi.Pipeline

namespace RingBuffer

/-- Where `TryPush` is. From `full` to `dropped` it is in the branch that drops the oldest
item. -/
inductive PushPhase (α : Type) where
  | idle
  | tailLoaded (item : α) (currentTail : ℕ)
  | full (item : α) (currentTail : ℕ)
  | headLoaded (item : α) (currentTail h : ℕ)
  | dropped (item : α) (currentTail : ℕ)
  | room (item : α) (currentTail : ℕ)
  | written (item : α) (currentTail : ℕ)
  deriving DecidableEq

/-- Where `TryPop` is. -/
inductive PopPhase where
  | idle
  | headLoaded (h : ℕ)
  | nonEmpty (h : ℕ)
  | claimed (h : ℕ)
  deriving DecidableEq

/-- The ring with the two threads, the items of the pushes that returned true, and what the
pops that won their exchange returned. -/
structure Threads (α : Type) where
  ring : RingBuffer α
  pusher : PushPhase α
  popper : PopPhase
  pushed : List α
  popped : List (Option α)
  deriving DecidableEq

/-- The accesses of `TryPush`, then those of `TryPop`. A weak exchange may fail although the
head is the one expected. -/
inductive Access (α : Type) where
  | loadTail (item : α)
  | loadHead
  | reloadHead
  | exchangeHead (spurious : Bool)
  | countDrop
  | writeSlot
  | storeTail
  | popLoadHead
  | popLoadTail
  | popExchange (spurious : Bool)
  | moveOut

namespace Threads

variable {α : Type}

def start (capacity : ℕ) (policy : BackpressurePolicy) : Threads α :=
  ⟨create capacity policy, .idle, .idle, [], []⟩

variable (s : Threads α)

/-- Both operations have returned. -/
def Idle : Prop := s.pusher = .idle ∧ s.popper = .idle

def setHead (h : ℕ) : Threads α := { s with ring := { s.ring with head := h } }

def setPusher (phase : PushPhase α) : Threads α := { s with pusher := phase }

def setPopper (phase : PopPhase) : Threads α := { s with popper := phase }

/-- One access of one of the threads. -/
def step : Access α → Option (Threads α)
  | .loadTail item =>
    match s.pusher with
    | .idle => some (s.setPusher (.tailLoaded item s.ring.tail))
    | _ => none
  | .loadHead =>
    match s.pusher with
    | .tailLoaded item t =>
      if s.ring.next t = s.ring.head then
        if s.ring.policy = .dropOldest then some (s.setPusher (.full item t))
        else some (s.setPusher .idle)
      else some (s.setPusher (.room item t))
    | _ => none
  | .reloadHead =>
    match s.pusher with
    | .full item t => some (s.setPusher (.headLoaded item t s.ring.head))
    | _ => none
  | .exchangeHead spurious =>
    match s.pusher with
    | .headLoaded item t h =>
      if s.ring.head = h ∧ spurious = false then
        some ((s.setHead (s.ring.next h)).setPusher (.dropped item t))
      else some (s.setPusher (.room item t))
    | _ => none
  | .countDrop =>
    match s.pusher with
    | .dropped item t =>
      some { s with
        ring := { s.ring with droppedCount := s.ring.droppedCount + 1 }
        pusher := .room item t }
    | _ => none
  | .writeSlot =>
    match s.pusher with
    | .room item t =>
      some { s with ring := s.ring.writeSlot t (some item), pusher := .written item t }
    | _ => none
  | .storeTail =>
    match s.pusher with
    | .written item t =>
      some { s with
        ring := { s.ring with tail := s.ring.next t }
        pusher := .idle
        pushed := s.pushed ++ [item] }
    | _ => none
  | .popLoadHead =>
    match s.popper with
    | .idle => some (s.setPopper (.headLoaded s.ring.head))
    | _ => none
  | .popLoadTail =>
    match s.popper with
    | .headLoaded h =>
      if h = s.ring.tail then some (s.setPopper .idle) else some (s.setPopper (.nonEmpty h))
    | _ => none
  | .popExchange spurious =>
    match s.popper with
    | .nonEmpty h =>
      if s.ring.head = h ∧ spurious = false then
        some ((s.setHead (s.ring.next h)).setPopper (.claimed h))
      else some (s.setPopper (.headLoaded s.ring.head))
    | _ => none
  | .moveOut =>
    match s.popper with
    | .claimed h =>
      some { s with
        ring := s.ring.writeSlot h none
        popper := .idle
        popped := s.popped ++ [s.ring.slot h] }
    | _ => none

/-- What the accesses rely on. An exchange that drops the oldest item, with the head it
expects, does not fail and still finds an item; a slot is not written while the pop that
claimed it has not moved it out; and with a single slot in use a pop that finds the head it
expects still finds an item. -/
def Orderly : Access α → Prop
  | .exchangeHead spurious =>
    match s.pusher with
    | .headLoaded _ _ h => s.ring.head = h → spurious = false ∧ s.ring.isEmpty = false
    | _ => True
  | .writeSlot =>
    match s.pusher with
    | .room _ t => s.popper ≠ .claimed t
    | _ => True
  | .popExchange _ =>
    match s.popper with
    | .nonEmpty h =>
      s.ring.logicalCapacity = 1 → s.ring.head = h → s.ring.isEmpty = false
    | _ => True
  | _ => True

instance (a : Access α) : Decidable (s.Orderly a) :=
  match a with
  | .exchangeHead spurious =>
    match h : s.pusher with
    | .headLoaded _ _ hd =>
      decidable_of_iff (s.ring.head = hd → spurious = false ∧ s.ring.isEmpty = false)
        (by simp [Orderly, h])
    | .idle | .tailLoaded _ _ | .full _ _ | .dropped _ _ | .room _ _ | .written _ _ =>
      .isTrue (by simp [Orderly, h])
  | .writeSlot =>
    match h : s.pusher with
    | .room _ t => decidable_of_iff (s.popper ≠ .claimed t) (by simp [Orderly, h])
    | .idle | .tailLoaded _ _ | .full _ _ | .dropped _ _ | .headLoaded _ _ _ | .written _ _ =>
      .isTrue (by simp [Orderly, h])
  | .popExchange _ =>
    match h : s.popper with
    | .nonEmpty hd =>
      decidable_of_iff
        (s.ring.logicalCapacity = 1 → s.ring.head = hd → s.ring.isEmpty = false)
        (by simp [Orderly, h])
    | .idle | .headLoaded _ | .claimed _ => .isTrue (by simp [Orderly, h])
  | .loadTail _ | .loadHead | .reloadHead | .countDrop | .storeTail | .popLoadHead
  | .popLoadTail | .moveOut => .isTrue trivial

/-- A push that nothing interrupts does what `tryPush` says. -/
theorem run_tryPush (r : RingBuffer α) (popper : PopPhase) (pushed : List α)
    (popped : List (Option α)) (item : α) :
    ∃ accesses, Transition.run step ⟨r, .idle, popper, pushed, popped⟩ accesses =
      some ⟨(r.tryPush item).2, .idle, popper,
        if (r.tryPush item).1 then pushed ++ [item] else pushed, popped⟩ := by
  by_cases hfull : (r.tail + 1) % (r.logicalCapacity + 1) = r.head
  · by_cases hdrop : r.policy = .dropOldest
    · exact ⟨[.loadTail item, .loadHead, .reloadHead, .exchangeHead false, .countDrop,
        .writeSlot, .storeTail], by
        simp [step, setPusher, setHead, tryPush, isFull, hfull, hdrop, append, dropOldest,
          writeSlot, next]⟩
    · exact ⟨[.loadTail item, .loadHead], by
        simp [step, setPusher, tryPush, isFull, hfull, hdrop, next]⟩
  · exact ⟨[.loadTail item, .loadHead, .writeSlot, .storeTail], by
      simp [step, setPusher, tryPush, isFull, hfull, append, writeSlot, next]⟩

/-- A pop that nothing interrupts does what `tryPop` says. -/
theorem run_tryPop (r : RingBuffer α) (pusher : PushPhase α) (pushed : List α)
    (popped : List (Option α)) :
    ∃ accesses, Transition.run step ⟨r, pusher, .idle, pushed, popped⟩ accesses =
      some ⟨r.tryPop.2, pusher, .idle, pushed,
        if r.isEmpty then popped else popped ++ [r.tryPop.1]⟩ := by
  by_cases hempty : r.head = r.tail
  · exact ⟨[.popLoadHead, .popLoadTail], by
      simp [step, setPopper, tryPop, isEmpty, hempty]⟩
  · exact ⟨[.popLoadHead, .popLoadTail, .popExchange false, .moveOut], by
      simp [step, setPopper, setHead, tryPop, isEmpty, hempty, slot, writeSlot, next]⟩

end Threads

/-! ### The account of the pushed items -/

/-- What became of an item that has left the ring. -/
inductive Fate where
  | returned | dropped
  deriving DecidableEq

section Account

variable {α : Type}

/-- What the pops returned, in the order of the pushes. -/
def returned (taken : List (α × Fate)) : List (Option α) :=
  (taken.filter fun e => e.2 = .returned).map fun e => some e.1

def dropped (taken : List (α × Fate)) : ℕ := taken.countP fun e => e.2 = .dropped

@[simp] theorem returned_append_returned (taken : List (α × Fate)) (x : α) :
    returned (taken ++ [(x, .returned)]) = returned taken ++ [some x] := by simp [returned]

@[simp] theorem returned_append_dropped (taken : List (α × Fate)) (x : α) :
    returned (taken ++ [(x, .dropped)]) = returned taken := by simp [returned]

@[simp] theorem dropped_append_returned (taken : List (α × Fate)) (x : α) :
    dropped (taken ++ [(x, .returned)]) = dropped taken := by simp [dropped]

@[simp] theorem dropped_append_dropped (taken : List (α × Fate)) (x : α) :
    dropped (taken ++ [(x, .dropped)]) = dropped taken + 1 := by simp [dropped]

theorem isSome_of_mem_returned {taken : List (α × Fate)} {r : Option α}
    (h : r ∈ returned taken) : r.isSome := by
  obtain ⟨e, -, rfl⟩ := List.mem_map.mp h
  rfl

/-- Every pushed item is one a pop returned, one counted as dropped, or one still stored:
in the order of the pushes, first those that have left the ring, each with its fate. -/
structure Accounted (s : Threads α) (taken : List (α × Fate)) (live : List α) : Prop where
  pushed : s.pushed = taken.map Prod.fst ++ live
  popped : s.popped = returned taken
  dropped : s.ring.droppedCount = dropped taken
  stored : s.ring.contents = live.map some

end Account

/-! ### What each position knows -/

section Knowledge

variable {α : Type}

/-- A drop that has moved the head and is not counted yet. -/
def PushPhase.pendingDrops : PushPhase α → ℕ
  | .dropped _ _ => 1
  | _ => 0

/-- The push has found the ring full and not yet tried to drop an item. -/
def PushPhase.seesFull : PushPhase α → Prop
  | .full _ _ | .headLoaded _ _ _ => True
  | _ => False

def PushPhase.Knows (s : Threads α) (cap : ℕ) (live : List α) : PushPhase α → Prop
  | .idle => True
  | .tailLoaded _ t | .full _ t => t = s.ring.tail
  | .headLoaded _ t h => t = s.ring.tail ∧ (s.ring.head = h ∨ live.length < cap)
  | .dropped _ t | .room _ t => t = s.ring.tail ∧ live.length < cap
  | .written item t =>
    t = s.ring.tail ∧ live.length < cap ∧ s.ring.buffer[t]? = some (some item) ∧
      s.popper ≠ .claimed t

/-- A pop has loaded the head, and `drops` items have been dropped since. From the second
drop on the ring was full before it. -/
structure Window (cap : ℕ) (seesFull : Prop) (taken : List (α × Fate)) (live : List α)
    (h drops : ℕ) : Prop where
  le : drops ≤ taken.length
  loaded : h = (taken.length - drops) % (cap + 1)
  refilled : 2 ≤ drops → cap ≤ live.length + 1
  full : 1 ≤ drops → seesFull → live.length = cap

def PopPhase.Knows (s : Threads α) (cap : ℕ) (taken : List (α × Fate)) (live : List α) :
    PopPhase → Prop
  | .idle => returned taken = s.popped
  | .headLoaded h =>
    returned taken = s.popped ∧ ∃ drops, Window cap s.pusher.seesFull taken live h drops
  | .nonEmpty h =>
    returned taken = s.popped ∧ ∃ drops, Window cap s.pusher.seesFull taken live h drops ∧
      (drops = 0 → live ≠ [])
  | .claimed h =>
    ∃ x, returned taken = s.popped ++ [some x] ∧ s.ring.buffer[h]? = some (some x) ∧
      ∀ i < live.length, (taken.length + i) % (cap + 1) ≠ h

/-- The items taken out of the ring stand before those it holds, and both ends follow
their numbers. -/
structure Inv (cap : ℕ) (s : Threads α) (taken : List (α × Fate)) (live : List α) : Prop where
  capacity : s.ring.logicalCapacity = cap
  slots : s.ring.buffer.length = cap + 1
  pushed : s.pushed = taken.map Prod.fst ++ live
  head : s.ring.head = taken.length % (cap + 1)
  tail : s.ring.tail = (taken.length + live.length) % (cap + 1)
  holds : Ring.Holds s.ring.buffer taken.length live
  drops : s.ring.droppedCount + s.pusher.pendingDrops = dropped taken
  pusher : s.pusher.Knows s cap live
  popper : s.popper.Knows s cap taken live

theorem Window.mono {cap : ℕ} {seesFull seesFull' : Prop} {taken : List (α × Fate)}
    {live : List α} {h drops : ℕ} (w : Window cap seesFull taken live h drops)
    (hfull : seesFull' → seesFull ∨ live.length = cap) :
    Window cap seesFull' taken live h drops where
  le := w.le
  loaded := w.loaded
  refilled := w.refilled
  full := by
    intro hpos hsees
    rcases hfull hsees with hsees | hlen
    · exact w.full hpos hsees
    · exact hlen

/-- A step of the other thread leaves the pop what it knows. -/
theorem PopPhase.Knows.frame {s s' : Threads α} {cap : ℕ} {taken : List (α × Fate)}
    {live : List α} {phase : PopPhase} (h : phase.Knows s cap taken live)
    (hpopped : s'.popped = s.popped)
    (hfull : s'.pusher.seesFull → s.pusher.seesFull ∨ live.length = cap)
    (hslot : ∀ l, phase = .claimed l → s'.ring.buffer[l]? = s.ring.buffer[l]?) :
    phase.Knows s' cap taken live := by
  cases phase with
  | idle => exact h.trans hpopped.symm
  | headLoaded l =>
    obtain ⟨hret, drops, w⟩ := h
    exact ⟨hret.trans hpopped.symm, drops, w.mono hfull⟩
  | nonEmpty l =>
    obtain ⟨hret, drops, w, hzero⟩ := h
    exact ⟨hret.trans hpopped.symm, drops, w.mono hfull, hzero⟩
  | claimed l =>
    obtain ⟨x, hret, hx, hfree⟩ := h
    exact ⟨x, by rw [hret, hpopped], (hslot l rfl).trans hx, hfree⟩

/-- A step of the pop that takes no item leaves the push what it knows. -/
theorem PushPhase.Knows.frame {s s' : Threads α} {cap : ℕ} {live : List α} {phase : PushPhase α}
    (h : phase.Knows s cap live) (hhead : s'.ring.head = s.ring.head)
    (htail : s'.ring.tail = s.ring.tail)
    (hslot : ∀ item t, phase = .written item t → s'.popper ≠ .claimed t ∧
      s'.ring.buffer[t]? = s.ring.buffer[t]?) : phase.Knows s' cap live := by
  cases phase with
  | idle => trivial
  | tailLoaded item t => exact h.trans htail.symm
  | full item t => exact h.trans htail.symm
  | headLoaded item t l =>
    refine ⟨h.1.trans htail.symm, ?_⟩
    rw [hhead]
    exact h.2
  | dropped item t => exact ⟨h.1.trans htail.symm, h.2⟩
  | room item t => exact ⟨h.1.trans htail.symm, h.2⟩
  | written item t =>
    obtain ⟨ht, hlen, hx, -⟩ := h
    obtain ⟨hclaim, hsame⟩ := hslot item t rfl
    exact ⟨ht.trans htail.symm, hlen, hsame.trans hx, hclaim⟩

end Knowledge

namespace Inv

variable {α : Type} {cap : ℕ} {s : Threads α} {taken : List (α × Fate)} {live : List α}

theorem start (capacity : ℕ) (policy : BackpressurePolicy) :
    Inv capacity (Threads.start capacity policy : Threads α) [] [] where
  capacity := rfl
  slots := by simp [Threads.start, create]
  pushed := rfl
  head := by simp [Threads.start, create]
  tail := by simp [Threads.start, create]
  holds := .nil _ (by simp [Threads.start, create])
  drops := rfl
  pusher := trivial
  popper := rfl

theorem pusher_at (h : Inv cap s taken live) {phase : PushPhase α} (hphase : s.pusher = phase) :
    phase.Knows s cap live := hphase ▸ h.pusher

theorem popper_at (h : Inv cap s taken live) {phase : PopPhase} (hphase : s.popper = phase) :
    phase.Knows s cap taken live := hphase ▸ h.popper

theorem length_le (h : Inv cap s taken live) : live.length ≤ cap := by
  have := h.holds.room
  rw [h.slots] at this
  omega

theorem represents (h : Inv cap s taken live) :
    s.ring.Represents ⟨cap, s.ring.policy, live, s.ring.droppedCount⟩ where
  capacity := h.capacity
  policy := rfl
  dropped := rfl
  slots := by rw [h.slots, h.capacity]
  head_lt := by rw [h.head, h.capacity]; exact Nat.mod_lt _ (Nat.succ_pos cap)
  tail_eq := by rw [h.head, h.tail, h.capacity, Nat.mod_add_mod]
  holds := by
    rw [h.head, ← h.slots]
    exact Ring.Holds.mod_head_iff.mpr h.holds

theorem isEmpty_iff (h : Inv cap s taken live) : s.ring.isEmpty = true ↔ live = [] := by
  rw [h.represents.isEmpty_eq]
  exact List.isEmpty_iff

theorem next_eq (h : Inv cap s taken live) (i : ℕ) : s.ring.next i = (i + 1) % (cap + 1) := by
  rw [next, h.capacity]

theorem isFull_iff (h : Inv cap s taken live) :
    s.ring.next s.ring.tail = s.ring.head ↔ live.length = cap := by
  have hfull := h.represents.isFull_eq
  have hle := h.length_le
  rw [isFull, Bool.eq_iff_iff, decide_eq_true_iff, StageQueue.isFull_iff] at hfull
  rw [hfull]
  show cap ≤ live.length ↔ live.length = cap
  omega

/-- The push moves on without touching the ring. -/
theorem setPusher (h : Inv cap s taken live) {phase : PushPhase α}
    (hknows : phase.Knows s cap live) (hdrops : phase.pendingDrops = s.pusher.pendingDrops)
    (hfull : phase.seesFull → s.pusher.seesFull ∨ live.length = cap) :
    Inv cap (s.setPusher phase) taken live where
  capacity := h.capacity
  slots := h.slots
  pushed := h.pushed
  head := h.head
  tail := h.tail
  holds := h.holds
  drops := by
    show s.ring.droppedCount + phase.pendingDrops = _
    rw [hdrops]
    exact h.drops
  pusher := by cases phase <;> exact hknows
  popper := h.popper.frame rfl hfull fun _ _ => rfl

/-- The pop moves on without touching the ring and claims nothing. -/
theorem setPopper (h : Inv cap s taken live) {phase : PopPhase}
    (hknows : phase.Knows s cap taken live) (hclaim : ∀ hd, phase ≠ .claimed hd) :
    Inv cap (s.setPopper phase) taken live where
  capacity := h.capacity
  slots := h.slots
  pushed := h.pushed
  head := h.head
  tail := h.tail
  holds := h.holds
  drops := h.drops
  pusher := h.pusher.frame rfl rfl fun _ t _ => ⟨hclaim t, rfl⟩
  popper := by cases phase <;> exact hknows

/-- The oldest item is dropped: one more of the taken ones. -/
theorem drop (h : Inv cap s taken live) {item x : α} {t hd : ℕ} {rest : List α}
    (hphase : s.pusher = .headLoaded item t hd) (hhead : s.ring.head = hd)
    (hlive : live = x :: rest) :
    Inv cap ((s.setHead (s.ring.next hd)).setPusher (.dropped item t))
      (taken ++ [(x, .dropped)]) rest where
  capacity := h.capacity
  slots := h.slots
  pushed := by
    show s.pushed = _
    rw [h.pushed, hlive]
    simp
  head := by
    show s.ring.next hd = _
    rw [h.next_eq, ← hhead, h.head, Nat.mod_add_mod]
    simp
  tail := by
    show s.ring.tail = _
    rw [h.tail, hlive]
    congr 1
    simp
    omega
  holds := by
    have := h.holds
    rw [hlive] at this
    rw [List.length_append]
    exact this.tail
  drops := by
    have := h.drops
    rw [hphase] at this
    simp only [dropped_append_dropped, ← this]
    rfl
  pusher := by
    have hpusher := h.pusher_at hphase
    have := h.length_le
    refine ⟨hpusher.1, ?_⟩
    simp [hlive] at this
    exact this
  popper := by
    have hsees : s.pusher.seesFull := by rw [hphase]; trivial
    have hle := h.length_le
    rw [hlive, List.length_cons] at hle
    have hwindow : ∀ l drops, Window cap s.pusher.seesFull taken live l drops →
        Window cap (PushPhase.dropped item t).seesFull (taken ++ [(x, .dropped)]) rest l
          (drops + 1) := by
      intro l drops w
      refine ⟨?_, ?_, ?_, fun _ => False.elim⟩
      · have := w.le
        simp
        exact this
      · rw [w.loaded]
        simp
      · intro htwo
        have := w.full (by omega) hsees
        rw [hlive, List.length_cons] at this
        omega
    have hpopper := h.popper
    show s.popper.Knows _ cap _ rest
    cases hpop : s.popper with
    | idle =>
      rw [hpop] at hpopper
      exact (returned_append_dropped taken x).trans hpopper
    | headLoaded l =>
      rw [hpop] at hpopper
      obtain ⟨hret, drops, w⟩ := hpopper
      exact ⟨(returned_append_dropped taken x).trans hret, drops + 1, hwindow l drops w⟩
    | nonEmpty l =>
      rw [hpop] at hpopper
      obtain ⟨hret, drops, w, -⟩ := hpopper
      exact ⟨(returned_append_dropped taken x).trans hret, drops + 1, hwindow l drops w, nofun⟩
    | claimed l =>
      rw [hpop] at hpopper
      obtain ⟨y, hret, hslot, hfree⟩ := hpopper
      refine ⟨y, (returned_append_dropped taken x).trans hret, hslot, ?_⟩
      intro i hi
      have := hfree (i + 1) (by rw [hlive]; simpa using hi)
      rwa [List.length_append, List.length_singleton,
        show taken.length + 1 + i = taken.length + (i + 1) by omega]

/-- The drop is counted. -/
theorem count (h : Inv cap s taken live) {item : α} {t : ℕ} (hphase : s.pusher = .dropped item t) :
    Inv cap
      { s with
        ring := { s.ring with droppedCount := s.ring.droppedCount + 1 }
        pusher := .room item t }
      taken live where
  capacity := h.capacity
  slots := h.slots
  pushed := h.pushed
  head := h.head
  tail := h.tail
  holds := h.holds
  drops := by
    have := h.drops
    rwa [hphase] at this
  pusher := by
    have := h.pusher
    rwa [hphase] at this
  popper := h.popper.frame rfl False.elim fun _ _ => rfl

/-- The slot behind the ring is written; no pop has a claim on it. -/
theorem write (h : Inv cap s taken live) {item : α} {t : ℕ} (hphase : s.pusher = .room item t)
    (hclaim : s.popper ≠ .claimed t) :
    Inv cap { s with ring := s.ring.writeSlot t (some item), pusher := .written item t }
      taken live := by
  obtain ⟨ht, hlen⟩ := h.pusher_at hphase
  have htail : t = (taken.length + live.length) % (cap + 1) := ht.trans h.tail
  refine ⟨h.capacity, ?_, h.pushed, h.head, h.tail, ?_, ?_, ?_, ?_⟩
  · simpa [writeSlot] using h.slots
  · apply h.holds.write
    intro i hi
    rw [htail, ← h.slots]
    exact h.holds.back_ne i hi
  · have := h.drops
    rwa [hphase] at this
  · refine ⟨ht, hlen, ?_, hclaim⟩
    have hlt : t < s.ring.buffer.length := by
      rw [h.slots, htail]
      exact Nat.mod_lt _ (Nat.succ_pos cap)
    simp [writeSlot, hlt]
  · refine h.popper.frame rfl False.elim ?_
    intro l hl
    have hne : t ≠ l := fun heq => hclaim (by rw [hl, heq])
    exact List.getElem?_set_ne hne

/-- The tail takes the written slot in: the item is pushed. -/
theorem publish (h : Inv cap s taken live) {item : α} {t : ℕ}
    (hphase : s.pusher = .written item t) :
    Inv cap
      { s with
        ring := { s.ring with tail := s.ring.next t }
        pusher := .idle
        pushed := s.pushed ++ [item] }
      taken (live ++ [item]) := by
  obtain ⟨ht, hlen, hslot, hclaim⟩ := h.pusher_at hphase
  have htail : t = (taken.length + live.length) % (cap + 1) := ht.trans h.tail
  refine ⟨h.capacity, h.slots, ?_, h.head, ?_, ?_, ?_, trivial, ?_⟩
  · show s.pushed ++ [item] = _
    rw [h.pushed, List.append_assoc]
  · show s.ring.next t = _
    rw [h.next_eq, htail, Nat.mod_add_mod, List.length_append]
    rfl
  · apply h.holds.append
    · rw [h.slots]
      omega
    · rwa [h.slots, ← htail]
  · have := h.drops
    rwa [hphase] at this
  · have hwindow : ∀ l drops, Window cap s.pusher.seesFull taken live l drops →
        Window cap (PushPhase.idle : PushPhase α).seesFull taken (live ++ [item]) l drops := by
      intro l drops w
      refine ⟨w.le, w.loaded, ?_, fun _ => False.elim⟩
      intro htwo
      have := w.refilled htwo
      simp
      omega
    have hpopper := h.popper
    show s.popper.Knows _ cap taken _
    cases hpop : s.popper with
    | idle => rwa [hpop] at hpopper
    | headLoaded l =>
      rw [hpop] at hpopper
      obtain ⟨hret, drops, w⟩ := hpopper
      exact ⟨hret, drops, hwindow l drops w⟩
    | nonEmpty l =>
      rw [hpop] at hpopper
      obtain ⟨hret, drops, w, -⟩ := hpopper
      exact ⟨hret, drops, hwindow l drops w, by simp⟩
    | claimed l =>
      rw [hpop] at hpopper
      obtain ⟨y, hret, hyslot, hfree⟩ := hpopper
      refine ⟨y, hret, hyslot, ?_⟩
      intro i hi
      rcases Nat.lt_or_ge i live.length with hlt | hge
      · exact hfree i hlt
      · have hi : i = live.length := by simp at hi; omega
        rw [hi, ← htail]
        intro heq
        exact hclaim (by rw [hpop, heq])

/-- The pop wins its exchange: the oldest item is its own. -/
theorem claim (h : Inv cap s taken live) {x : α} {hd : ℕ} {rest : List α}
    (hphase : s.popper = .nonEmpty hd) (hhead : s.ring.head = hd) (hlive : live = x :: rest) :
    Inv cap ((s.setHead (s.ring.next hd)).setPopper (.claimed hd))
      (taken ++ [(x, .returned)]) rest := by
  have hle := h.length_le
  have htail := h.tail
  have hholds := h.holds
  rw [hlive, List.length_cons] at hle htail
  rw [hlive] at hholds
  have hhd : hd = taken.length % (cap + 1) := hhead.symm.trans h.head
  have hne : ∀ i < rest.length + 1, (taken.length + (i + 1)) % (cap + 1) ≠ hd := by
    intro i hi
    rw [hhd]
    exact Ring.slot_ne_head _ (Nat.succ_pos i) (by omega)
  have hshrink : ∀ {n}, live.length < n → rest.length < n := by
    intro n hn
    rw [hlive, List.length_cons] at hn
    omega
  refine ⟨h.capacity, h.slots, ?_, ?_, ?_, ?_, ?_, ?_, ?_⟩
  · show s.pushed = _
    rw [h.pushed, hlive]
    simp
  · show s.ring.next hd = _
    rw [h.next_eq, hhd, Nat.mod_add_mod]
    simp
  · show s.ring.tail = _
    rw [htail]
    congr 1
    simp
    omega
  · rw [List.length_append]
    exact hholds.tail
  · rw [dropped_append_returned]
    exact h.drops
  · have hpusher := h.pusher
    show s.pusher.Knows _ cap rest
    cases hpush : s.pusher with
    | headLoaded item t l =>
      rw [hpush] at hpusher
      exact ⟨hpusher.1, .inr (by omega)⟩
    | dropped item t =>
      rw [hpush] at hpusher
      exact ⟨hpusher.1, hshrink hpusher.2⟩
    | room item t =>
      rw [hpush] at hpusher
      exact ⟨hpusher.1, hshrink hpusher.2⟩
    | written item t =>
      rw [hpush] at hpusher
      obtain ⟨ht, hlen, hslot, -⟩ := hpusher
      refine ⟨ht, hshrink hlen, hslot, ?_⟩
      intro heq
      apply hne rest.length (Nat.lt_succ_self _)
      rw [← htail, ← ht]
      exact (PopPhase.claimed.inj heq).symm
    | _ => rwa [hpush] at hpusher
  · have hpopper := h.popper_at hphase
    refine ⟨x, ?_, ?_, ?_⟩
    · rw [returned_append_returned, hpopper.1]
      rfl
    · have := hholds.first
      rwa [h.slots, ← hhd] at this
    · intro i hi
      have := hne i (by omega)
      rwa [List.length_append, List.length_singleton,
        show taken.length + 1 + i = taken.length + (i + 1) by omega]

/-- The claimed item is moved out of its slot. -/
theorem moveOut (h : Inv cap s taken live) {hd : ℕ} (hphase : s.popper = .claimed hd) :
    Inv cap
      { s with
        ring := s.ring.writeSlot hd none
        popper := .idle
        popped := s.popped ++ [s.ring.slot hd] }
      taken live := by
  obtain ⟨x, hret, hslot, hfree⟩ := h.popper_at hphase
  refine ⟨h.capacity, ?_, h.pushed, h.head, h.tail, ?_, h.drops, ?_, ?_⟩
  · simpa [writeSlot] using h.slots
  · apply h.holds.write
    intro i hi
    rw [h.slots]
    exact hfree i hi
  · refine h.pusher.frame rfl rfl ?_
    intro item t hwritten
    have hpusher := h.pusher
    rw [hwritten] at hpusher
    have hne : hd ≠ t := fun heq => hpusher.2.2.2 (by rw [hphase, heq])
    exact ⟨by simp, List.getElem?_set_ne hne⟩
  · show returned taken = s.popped ++ [s.ring.slot hd]
    rw [hret, slot, hslot]
    rfl

/-- A pop that finds the head it loaded finds an item: the head comes round to the same slot
only through drops, and before all of these but the first the ring was full. -/
theorem ne_nil_of_head_eq (h : Inv cap s taken live) (hcap : 1 ≤ cap) {hd : ℕ}
    (hphase : s.popper = .nonEmpty hd) (hhead : s.ring.head = hd)
    (hsingle : cap = 1 → s.ring.isEmpty = false) : live ≠ [] := by
  obtain ⟨-, drops, w, hzero⟩ := h.popper_at hphase
  rcases Nat.eq_zero_or_pos drops with hdrops | hdrops
  · exact hzero hdrops
  · have hle := w.le
    have hturn : cap + 1 ≤ drops := by
      by_contra hlt
      have hne := Ring.slot_ne_head (taken.length - drops) hdrops (not_le.mp hlt)
      rw [← w.loaded, Nat.sub_add_cancel hle, ← h.head] at hne
      exact hne hhead
    rintro rfl
    have hsmall := w.refilled (by omega)
    have hone : cap = 1 := by simp at hsmall; omega
    have := hsingle hone
    rw [h.isEmpty_iff.mpr rfl] at this
    cases this

/-- Every access that keeps to the guard keeps the account. -/
theorem step (h : Inv cap s taken live) (hcap : 1 ≤ cap) {a : Access α} {s' : Threads α}
    (hok : s.Orderly a) (hs : s.step a = some s') :
    ∃ taken' live', Inv cap s' taken' live' := by
  cases a with
  | loadTail item =>
    simp only [Threads.step] at hs
    split at hs <;> try cases hs
    next hphase =>
      exact ⟨taken, live, h.setPusher rfl (by rw [hphase]; rfl) False.elim⟩
  | loadHead =>
    simp only [Threads.step] at hs
    split at hs <;> try cases hs
    next item t hphase =>
      have hdrops : s.pusher.pendingDrops = 0 := by rw [hphase]; rfl
      have ht : t = s.ring.tail := h.pusher_at hphase
      split_ifs at hs with hfull hpolicy
      · obtain rfl := Option.some.inj hs
        rw [ht, h.isFull_iff] at hfull
        exact ⟨taken, live, h.setPusher ht hdrops.symm fun _ => .inr hfull⟩
      · obtain rfl := Option.some.inj hs
        exact ⟨taken, live, h.setPusher trivial hdrops.symm False.elim⟩
      · obtain rfl := Option.some.inj hs
        rw [ht, h.isFull_iff] at hfull
        have := h.length_le
        exact ⟨taken, live, h.setPusher ⟨ht, by omega⟩ hdrops.symm False.elim⟩
  | reloadHead =>
    simp only [Threads.step] at hs
    split at hs <;> try cases hs
    next item t hphase =>
      have hpusher := h.pusher_at hphase
      refine ⟨taken, live, h.setPusher ⟨hpusher, .inl rfl⟩ (by rw [hphase]; rfl) fun _ => ?_⟩
      rw [hphase]
      exact .inl trivial
  | exchangeHead spurious =>
    simp only [Threads.step] at hs
    split at hs <;> try cases hs
    next item t hd hphase =>
      have hguard : s.ring.head = hd → spurious = false ∧ s.ring.isEmpty = false := by
        simpa [Threads.Orderly, hphase] using hok
      have hpusher := h.pusher_at hphase
      split_ifs at hs with hwon
      · obtain rfl := Option.some.inj hs
        have hne : live ≠ [] := by
          intro hnil
          have := (hguard hwon.1).2
          rw [h.isEmpty_iff.mpr hnil] at this
          cases this
        obtain ⟨x, rest, hlive⟩ := List.exists_cons_of_ne_nil hne
        exact ⟨_, rest, h.drop hphase hwon.1 hlive⟩
      · obtain rfl := Option.some.inj hs
        have hroom : live.length < cap := by
          rcases hpusher.2 with hhead | hlen
          · exact absurd ⟨hhead, (hguard hhead).1⟩ hwon
          · exact hlen
        exact ⟨taken, live,
          h.setPusher ⟨hpusher.1, hroom⟩ (by rw [hphase]; rfl) False.elim⟩
  | countDrop =>
    simp only [Threads.step] at hs
    split at hs <;> try cases hs
    next item t hphase => exact ⟨taken, live, h.count hphase⟩
  | writeSlot =>
    simp only [Threads.step] at hs
    split at hs <;> try cases hs
    next item t hphase =>
      have hclaim : s.popper ≠ .claimed t := by simpa [Threads.Orderly, hphase] using hok
      exact ⟨taken, live, h.write hphase hclaim⟩
  | storeTail =>
    simp only [Threads.step] at hs
    split at hs <;> try cases hs
    next item t hphase => exact ⟨taken, _, h.publish hphase⟩
  | popLoadHead =>
    simp only [Threads.step] at hs
    split at hs <;> try cases hs
    next hphase =>
      have hpopper := h.popper_at hphase
      have w : Window cap s.pusher.seesFull taken live s.ring.head 0 :=
        ⟨Nat.zero_le _, h.head, by omega, by omega⟩
      exact ⟨taken, live, h.setPopper ⟨hpopper, 0, w⟩ nofun⟩
  | popLoadTail =>
    simp only [Threads.step] at hs
    split at hs <;> try cases hs
    next hd hphase =>
      obtain ⟨hret, drops, w⟩ := h.popper_at hphase
      split_ifs at hs with hempty
      · obtain rfl := Option.some.inj hs
        exact ⟨taken, live, h.setPopper hret nofun⟩
      · obtain rfl := Option.some.inj hs
        refine ⟨taken, live, h.setPopper ⟨hret, drops, w, ?_⟩ nofun⟩
        rintro rfl rfl
        exact hempty (w.loaded.trans h.tail.symm)
  | popExchange spurious =>
    simp only [Threads.step] at hs
    split at hs <;> try cases hs
    next hd hphase =>
      have hguard : s.ring.logicalCapacity = 1 → s.ring.head = hd → s.ring.isEmpty = false := by
        simpa [Threads.Orderly, hphase] using hok
      split_ifs at hs with hwon
      · obtain rfl := Option.some.inj hs
        have hne : live ≠ [] := h.ne_nil_of_head_eq hcap hphase hwon.1
          fun hone => hguard (h.capacity.trans hone) hwon.1
        obtain ⟨x, rest, hlive⟩ := List.exists_cons_of_ne_nil hne
        exact ⟨_, rest, h.claim hphase hwon.1 hlive⟩
      · obtain rfl := Option.some.inj hs
        have hpopper := h.popper_at hphase
        have w : Window cap s.pusher.seesFull taken live s.ring.head 0 :=
          ⟨Nat.zero_le _, h.head, by omega, by omega⟩
        exact ⟨taken, live, h.setPopper ⟨hpopper.1, 0, w⟩ nofun⟩
  | moveOut =>
    simp only [Threads.step] at hs
    split at hs <;> try cases hs
    next hd hphase => exact ⟨taken, live, h.moveOut hphase⟩

theorem isSome_of_mem_popped (h : Inv cap s taken live) {r : Option α} (hr : r ∈ s.popped) :
    r.isSome := by
  apply @isSome_of_mem_returned _ taken
  cases hphase : s.popper with
  | idle => exact h.popper_at hphase ▸ hr
  | headLoaded l => exact (h.popper_at hphase).1 ▸ hr
  | nonEmpty l => exact (h.popper_at hphase).1 ▸ hr
  | claimed l =>
    obtain ⟨x, hret, -⟩ := h.popper_at hphase
    rw [hret]
    exact List.mem_append_left _ hr

theorem accounted (h : Inv cap s taken live) (hidle : s.Idle) : Accounted s taken live where
  pushed := h.pushed
  popped := by
    have := h.popper
    rw [hidle.2] at this
    exact this.symm
  dropped := by
    have := h.drops
    rwa [hidle.1] at this
  stored := h.represents.contents_eq

end Inv

/-- Under either policy, as long as no access breaks the guard, no pop returns an empty slot,
and with both threads idle every pushed item is accounted for once. -/
theorem ring_items_accounted {α : Type} {capacity : ℕ} (hcap : 1 ≤ capacity)
    (policy : BackpressurePolicy) {s : Threads α}
    (h : Transition.Reachable Threads.step Threads.Orderly (.start capacity policy) s) :
    (∀ r ∈ s.popped, r.isSome) ∧ (s.Idle → ∃ taken live, Accounted s taken live) := by
  have hinv : ∃ taken live, Inv capacity s taken live := by
    apply h.invariant
    · exact ⟨[], [], .start capacity policy⟩
    · intro s a s' ⟨taken, live, hinv⟩ hok hs
      exact hinv.step hcap hok hs
  obtain ⟨taken, live, hinv⟩ := hinv
  exact ⟨fun r => hinv.isSome_of_mem_popped, fun hidle => ⟨taken, live, hinv.accounted hidle⟩⟩

/-- A push that drops the oldest item between two pops. -/
theorem ring_items_accounted_drop :
    ∃ taken live, Accounted (α := ℕ)
      ⟨⟨1, .dropOldest, [some 4, none], 0, 0, 1⟩, .idle, .idle, [4, 5], [some 5]⟩ taken live := by
  have hrun : Transition.Reachable Threads.step Threads.Orderly (Threads.start 1 .dropOldest)
      ⟨⟨1, .dropOldest, [some 4, none], 0, 0, 1⟩, .idle, .idle, [4, 5], [some 5]⟩ :=
    Transition.Reachable.of_run _ [.loadTail 4, .loadHead, .writeSlot, .storeTail, .loadTail 5, .loadHead, .reloadHead,
      .exchangeHead false, .countDrop, .writeSlot, .storeTail, .popLoadHead, .popLoadTail,
      .popExchange false, .moveOut] (by decide)
  exact (ring_items_accounted le_rfl .dropOldest hrun).2 ⟨rfl, rfl⟩

/-- The pop that claimed the first item is overtaken by two pushes. The second drops the
oldest item and writes the claimed slot: the pop returns the third item, which is also
between head and tail, and the first one is gone. -/
theorem claimed_slot_overwritten :
    ¬ ∀ s : Threads ℕ,
      Transition.Reachable Threads.step (fun _ _ => True) (.start 1 .dropOldest) s →
        (∀ r ∈ s.popped, r.isSome) ∧ (s.Idle → ∃ taken live, Accounted s taken live) := by
  intro h
  have hrun : Transition.Reachable Threads.step (fun _ _ => True) (Threads.start 1 .dropOldest)
      ⟨⟨1, .dropOldest, [none, some 5], 0, 1, 1⟩, .idle, .idle, [4, 5, 6], [some 6]⟩ :=
    Transition.Reachable.of_run _ [.loadTail 4, .loadHead, .writeSlot, .storeTail, .popLoadHead, .popLoadTail,
      .popExchange false, .loadTail 5, .loadHead, .writeSlot, .storeTail, .loadTail 6,
      .loadHead, .reloadHead, .exchangeHead false, .countDrop, .writeSlot, .storeTail,
      .moveOut] (by decide)
  obtain ⟨taken, live, hacc⟩ := (h _ hrun).2 ⟨rfl, rfl⟩
  have hstored : [none] = live.map some := hacc.stored
  have : none ∈ live.map some := hstored ▸ List.mem_singleton_self _
  simp at this

end RingBuffer

end SurfaceAi.Pipeline
