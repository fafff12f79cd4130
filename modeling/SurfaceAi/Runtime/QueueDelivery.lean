import SurfaceAi.Runtime.CompletionQueue

/-! What the completion queue delivers. The positions from the first one that `Pop` has not
released to the end of one turn each have their own cell; its sequence is the position while the
cell is free or being written, and the position after it once the event is whole. -/

namespace SurfaceAi.Runtime

/-! ### The capacity -/

theorem growCapacity_zero {capacity : ℕ} (h : 0 < capacity) (rounds : ℕ) :
    growCapacity capacity rounds 0 = none := by
  induction rounds with
  | zero => rfl
  | succ rounds ih => rw [growCapacity, if_pos h, Nat.zero_mul, Nat.zero_mod, ih]

/-- A loop that ends has found a power of two that is large enough. -/
theorem growCapacity_eq_some {capacity rounds k cap : ℕ} (hk : k < 64)
    (h : growCapacity capacity rounds (2 ^ k) = some cap) :
    ∃ j, k ≤ j ∧ cap = 2 ^ j ∧ capacity ≤ cap := by
  induction rounds generalizing k with
  | zero => cases h
  | succ rounds ih =>
    rw [growCapacity] at h
    split_ifs at h with hsmall
    · rw [← Nat.pow_succ] at h
      by_cases hlast : k + 1 < 64
      · rw [Nat.mod_eq_of_lt (Nat.pow_lt_pow_right (by omega) hlast)] at h
        obtain ⟨j, hj, hcap, hle⟩ := ih hlast h
        exact ⟨j, by omega, hcap, hle⟩
      · obtain rfl : k = 63 := by omega
        rw [show 2 ^ Nat.succ 63 % 2 ^ 64 = 0 from Nat.mod_self _,
          growCapacity_zero (by omega)] at h
        cases h
    · obtain rfl := Option.some.inj h
      exact ⟨k, le_rfl, rfl, by omega⟩

/-- The loop ends for every capacity up to half of what a size can be. -/
theorem growCapacity_isSome {capacity rounds k : ℕ} (hrounds : rounds + k = 65) (hk : k < 64)
    (hcapacity : capacity ≤ 2 ^ 63) : (growCapacity capacity rounds (2 ^ k)).isSome := by
  induction rounds generalizing k with
  | zero => omega
  | succ rounds ih =>
    rw [growCapacity]
    split_ifs with hsmall
    · have hlast : k + 1 < 64 := by
        by_contra hc
        obtain rfl : k = 63 := by omega
        omega
      rw [← Nat.pow_succ, Nat.mod_eq_of_lt (Nat.pow_lt_pow_right (by omega) hlast)]
      exact ih (by omega) hlast
    · rfl

namespace CompletionQueue

variable {H S : Type*} {q : CompletionQueue H S} {capacity pos pos' : ℕ} {c : Cell H S}

/-- The ring has two to some positive power cells. -/
def Sized (q : CompletionQueue H S) : Prop := ∃ k, 0 < k ∧ q.cells = 2 ^ k

theorem init_isSome (h : capacity ≤ 2 ^ 63) :
    (init (H := H) (S := S) capacity).isSome := by
  rw [init, Option.isSome_map]
  exact growCapacity_isSome (k := 1) rfl (by omega) h

theorem sized_init (h : init capacity = some q) : q.Sized ∧ capacity ≤ q.cells := by
  obtain ⟨cap, hcap, rfl⟩ := Option.map_eq_some_iff.mp h
  obtain ⟨j, hj, rfl, hle⟩ := growCapacity_eq_some (k := 1) (by omega) hcap
  have hpos : 0 < 2 ^ j := Nat.two_pow_pos j
  have hcells : 2 ^ j - 1 + 1 = 2 ^ j := by omega
  exact ⟨⟨j, hj, hcells⟩, by rw [cells, hcells]; exact hle⟩

theorem Sized.two_le (h : q.Sized) : 2 ≤ q.cells := by
  obtain ⟨k, hk, hcells⟩ := h
  rw [hcells]
  exact Nat.le_self_pow (by omega) 2

/-- The mask takes the remainder. -/
theorem Sized.index (h : q.Sized) (pos : ℕ) : pos &&& q.mask = pos % q.cells := by
  obtain ⟨k, -, hcells⟩ := h
  have hmask : q.mask = 2 ^ k - 1 := by
    rw [← hcells]
    rfl
  rw [hmask, Nat.and_two_pow_sub_one_eq_mod, hcells]

/-- Two positions less than a turn apart have their own cells. -/
theorem Sized.index_ne (h : q.Sized) (hne : pos ≠ pos') (hlt : pos < pos' + q.cells)
    (hlt' : pos' < pos + q.cells) : pos &&& q.mask ≠ pos' &&& q.mask := by
  rw [h.index, h.index]
  rcases Nat.lt_or_gt_of_ne hne with hpos | hpos
  · have := Ring.slot_ne 0 hpos hlt'
    simpa using this
  · have := Ring.slot_ne 0 hpos hlt
    simpa using this.symm

@[simp] theorem setCell_mask : (q.setCell pos c).mask = q.mask := rfl

@[simp] theorem cell_setCell_self : (q.setCell pos c).cell pos = c := Function.update_self ..

theorem cell_setCell_ne (h : pos' &&& q.mask ≠ pos &&& q.mask) :
    (q.setCell pos c).cell pos' = q.cell pos' := Function.update_of_ne h ..

/-- A write that keeps the sequence of the cell keeps every sequence. -/
theorem sequence_setCell (h : c.sequence = (q.cell pos).sequence) (pos' : ℕ) :
    ((q.setCell pos c).cell pos').sequence = (q.cell pos').sequence := by
  by_cases hindex : pos' &&& q.mask = pos &&& q.mask
  · have hself : (q.setCell pos c).cell pos' = c := by
      rw [cell, setCell_mask, hindex]
      exact cell_setCell_self
    rw [hself, h, cell, cell, hindex]
  · rw [cell_setCell_ne hindex]

end CompletionQueue

/-! ### The invariant -/

namespace PushPhase

variable {H S : Type*}

/-- The position whose cell is being written. -/
def writing : PushPhase H S → Option ℕ
  | .claimed _ pos | .halfWritten _ pos | .written _ pos => some pos
  | _ => none

/-- The position that was claimed, with its event. -/
def position : PushPhase H S → Option (ℕ × GpuCompletionEvent H S)
  | .claimed event pos | .halfWritten event pos | .written event pos | .published event pos
  | .ticketed event pos => some (pos, event)
  | _ => none

theorem position_of_writing {phase : PushPhase H S} {pos : ℕ} (h : phase.writing = some pos) :
    ∃ event, phase.position = some (pos, event) := by
  cases phase <;> cases h <;> exact ⟨_, rfl⟩

end PushPhase

namespace QueueThreads

variable {T H S : Type*} (s : QueueThreads T H S)

/-- The event of the position is whole in its cell. -/
def Full (pos : ℕ) : Prop := pos < s.claimed.length ∧ ∀ t, (s.producer t).writing ≠ some pos

/-- What a producer relies on. -/
def PushFact : PushPhase H S → Prop
  | .idle | .stale _ => True
  | .loaded _ pos => pos ≤ s.claimed.length
  | .matched _ pos => pos < s.popped.length + s.queue.cells
  | .claimed event pos => s.claimed[pos]? = some event ∧ s.popped.length ≤ pos ∧
      (s.queue.cell pos).sequence = pos
  | .halfWritten event pos => s.claimed[pos]? = some event ∧ s.popped.length ≤ pos ∧
      (s.queue.cell pos).sequence = pos ∧ (s.queue.cell pos).handle = some event.handle
  | .written event pos => s.claimed[pos]? = some event ∧ s.popped.length ≤ pos ∧
      (s.queue.cell pos).sequence = pos ∧ (s.queue.cell pos).handle = some event.handle ∧
      (s.queue.cell pos).status = some event.status
  | .published event pos | .ticketed event pos => s.claimed[pos]? = some event

/-- What the consumer relies on, which is always at the first position not released. -/
def PopFact : PopPhase H S → Prop
  | .idle | .stale => s.queue.dequeuePos = s.popped.length
  | .loaded pos => s.queue.dequeuePos = s.popped.length ∧ pos = s.popped.length
  | .matched pos => s.queue.dequeuePos = s.popped.length ∧ pos = s.popped.length ∧ s.Full pos
  | .claimed pos => s.queue.dequeuePos = s.popped.length + 1 ∧ pos = s.popped.length ∧ s.Full pos
  | .halfRead pos handle => s.queue.dequeuePos = s.popped.length + 1 ∧ pos = s.popped.length ∧
      s.Full pos ∧ ∀ e, s.claimed[pos]? = some e → handle = some e.handle
  | .read pos handle status => s.queue.dequeuePos = s.popped.length + 1 ∧ pos = s.popped.length ∧
      s.Full pos ∧ ∀ e, s.claimed[pos]? = some e → handle = some e.handle ∧ status = some e.status

/-- The cells of one turn from the first position not released. -/
structure Cells : Prop where
  free : ∀ pos, s.claimed.length ≤ pos → pos < s.popped.length + s.queue.cells →
    (s.queue.cell pos).sequence = pos
  full : ∀ pos e, s.popped.length ≤ pos → s.Full pos → s.claimed[pos]? = some e →
    s.queue.cell pos = ⟨pos + 1, some e.handle, some e.status⟩

structure Inv : Prop extends s.Cells where
  sized : s.queue.Sized
  enqueuePos : s.queue.enqueuePos = s.claimed.length
  room : s.claimed.length ≤ s.popped.length + s.queue.cells
  producers : ∀ t, s.PushFact (s.producer t)
  distinct : ∀ t t' pos e e', (s.producer t).position = some (pos, e) →
    (s.producer t').position = some (pos, e') → t = t'
  consumer : s.PopFact s.consumer
  popped : s.popped = (s.claimed.take s.popped.length).map fun e => (some e.handle, some e.status)
  returned : ∀ r ∈ s.returned, s.claimed[r.1]? = some r.2 ∧
    ∀ t, (s.producer t).position ≠ some r
  once : (s.returned.map Prod.fst).Nodup
  rejected : ∀ n ∈ s.rejections, n = s.queue.cells

section Facts

variable {s} {t : T} {pos : ℕ} {e : GpuCompletionEvent H S}

theorem Inv.producer_at (h : s.Inv) {phase : PushPhase H S} (hphase : s.producer t = phase) :
    s.PushFact phase := hphase ▸ h.producers t

theorem Inv.consumer_at (h : s.Inv) {phase : PopPhase H S} (hphase : s.consumer = phase) :
    s.PopFact phase := hphase ▸ h.consumer

/-- What was claimed stays where it was. -/
theorem claimed_of_position {phase : PushPhase H S} (h : s.PushFact phase)
    (hpos : phase.position = some (pos, e)) : s.claimed[pos]? = some e := by
  cases phase with
  | idle => cases hpos
  | loaded event p => cases hpos
  | stale event => cases hpos
  | matched event p => cases hpos
  | claimed event p => cases hpos; exact h.1
  | halfWritten event p => cases hpos; exact h.1
  | written event p => cases hpos; exact h.1
  | published event p => cases hpos; exact h
  | ticketed event p => cases hpos; exact h

theorem writing_fact {phase : PushPhase H S} (h : s.PushFact phase)
    (hpos : phase.writing = some pos) :
    pos < s.claimed.length ∧ s.popped.length ≤ pos ∧ (s.queue.cell pos).sequence = pos := by
  have hlt : ∀ {event}, s.claimed[pos]? = some event → pos < s.claimed.length := fun hc =>
    (List.getElem?_eq_some_iff.mp hc).1
  cases phase with
  | idle => cases hpos
  | loaded event p => cases hpos
  | stale event => cases hpos
  | matched event p => cases hpos
  | claimed event p => cases hpos; exact ⟨hlt h.1, h.2⟩
  | halfWritten event p => cases hpos; exact ⟨hlt h.1, h.2.1, h.2.2.1⟩
  | written event p => cases hpos; exact ⟨hlt h.1, h.2.1, h.2.2.1⟩
  | published event p => cases hpos
  | ticketed event p => cases hpos

theorem Inv.released_le (h : s.Inv) : s.popped.length ≤ s.claimed.length := by
  have hlength := congrArg List.length h.popped
  rw [List.length_map, List.length_take] at hlength
  omega

/-- The sequence of a cell in the turn. -/
theorem Inv.sequence (h : s.Inv) (hpos : s.popped.length ≤ pos)
    (hturn : pos < s.popped.length + s.queue.cells) :
    (s.queue.cell pos).sequence = pos ∨ s.Full pos ∧ (s.queue.cell pos).sequence = pos + 1 := by
  by_cases hclaimed : pos < s.claimed.length
  · by_cases hfull : s.Full pos
    · have hcell := h.full pos _ hpos hfull (List.getElem?_eq_getElem hclaimed)
      exact .inr ⟨hfull, by rw [hcell]⟩
    · obtain ⟨t, ht⟩ : ∃ t, (s.producer t).writing = some pos := by
        by_contra hc
        exact hfull ⟨hclaimed, fun t ht => hc ⟨t, ht⟩⟩
      exact .inl (writing_fact (h.producers t) ht).2.2
  · exact .inl (h.free pos (by omega) hturn)

/-- A producer that reads its position in the cell is less than a turn ahead. -/
theorem Inv.turn_of_sequence (h : s.Inv) (hpos : pos ≤ s.claimed.length)
    (hseq : (s.queue.cell pos).sequence = pos) : pos < s.popped.length + s.queue.cells := by
  by_contra hc
  have hroom := h.room
  have htwo := h.sized.two_le
  obtain rfl : pos = s.popped.length + s.queue.cells := by omega
  have hindex : (s.popped.length + s.queue.cells) &&& s.queue.mask =
      s.popped.length &&& s.queue.mask := by
    rw [h.sized.index, h.sized.index, Nat.add_mod_right]
  have hcell : s.queue.cell (s.popped.length + s.queue.cells) = s.queue.cell s.popped.length := by
    rw [CompletionQueue.cell, CompletionQueue.cell, hindex]
  rw [hcell] at hseq
  rcases h.sequence le_rfl (by omega) with hs | ⟨-, hs⟩ <;> omega

/-- A producer that reads less than its position has found the ring full. -/
theorem Inv.full_of_sequence (h : s.Inv) (hpos : pos ≤ s.claimed.length)
    (hseq : (s.queue.cell pos).sequence < pos) : s.outstanding = s.queue.cells := by
  have hroom := h.room
  have hreleased := h.released_le
  have htwo := h.sized.two_le
  by_cases hturn : pos < s.popped.length + s.queue.cells
  · by_cases hlate : s.popped.length ≤ pos
    · rcases h.sequence hlate hturn with hs | ⟨-, hs⟩ <;> omega
    · -- the cell was released for a later position since
      obtain ⟨i, hi, hslot⟩ := Ring.exists_slot_eq (by omega : 0 < s.queue.cells) s.popped.length pos
      have hcell : s.queue.cell (s.popped.length + i) = s.queue.cell pos := by
        rw [CompletionQueue.cell, CompletionQueue.cell, h.sized.index, h.sized.index, hslot]
      rw [← hcell] at hseq
      have hlate : s.popped.length ≤ s.popped.length + i := by omega
      rcases h.sequence hlate (by omega) with hs | ⟨-, hs⟩ <;> omega
  · rw [outstanding]
    omega

/-- What a producer relies on is not touched by the others. -/
theorem PushFact.mono {s' : QueueThreads T H S} {phase : PushPhase H S} (h : s.PushFact phase)
    (hclaimed : ∀ (pos : ℕ) e, s.claimed[pos]? = some e → s'.claimed[pos]? = some e)
    (hlength : s.claimed.length ≤ s'.claimed.length)
    (hpopped : s.popped.length ≤ s'.popped.length) (hcells : s'.queue.cells = s.queue.cells)
    (hcell : ∀ pos, phase.writing = some pos →
      s'.popped.length ≤ pos ∧ s'.queue.cell pos = s.queue.cell pos) : s'.PushFact phase := by
  cases phase with
  | idle => trivial
  | stale event => trivial
  | loaded event pos => exact Nat.le_trans h hlength
  | matched event pos =>
    have hturn : pos < s.popped.length + s.queue.cells := h
    show pos < s'.popped.length + s'.queue.cells
    omega
  | claimed event pos =>
    obtain ⟨hreleased, hsame⟩ := hcell pos rfl
    exact ⟨hclaimed _ _ h.1, hreleased, by rw [hsame]; exact h.2.2⟩
  | halfWritten event pos =>
    obtain ⟨hreleased, hsame⟩ := hcell pos rfl
    exact ⟨hclaimed _ _ h.1, hreleased, by rw [hsame]; exact h.2.2⟩
  | written event pos =>
    obtain ⟨hreleased, hsame⟩ := hcell pos rfl
    exact ⟨hclaimed _ _ h.1, hreleased, by rw [hsame]; exact h.2.2⟩
  | published event pos => exact hclaimed _ _ h
  | ticketed event pos => exact hclaimed _ _ h

/-- What the consumer relies on is not touched by the producers. -/
theorem PopFact.mono {s' : QueueThreads T H S} {phase : PopPhase H S} (h : s.PopFact phase)
    (hdequeue : s'.queue.dequeuePos = s.queue.dequeuePos) (hpopped : s'.popped = s.popped)
    (hfull : ∀ pos, s.Full pos → s'.Full pos)
    (hclaimed : ∀ pos, s.Full pos → s'.claimed[pos]? = s.claimed[pos]?) : s'.PopFact phase := by
  cases phase with
  | idle => exact hdequeue.trans (h.trans (by rw [hpopped]))
  | stale => exact hdequeue.trans (h.trans (by rw [hpopped]))
  | loaded pos =>
    obtain ⟨hd, hp⟩ := h
    exact ⟨by rw [hdequeue, hpopped, hd], by rw [hpopped, hp]⟩
  | matched pos =>
    obtain ⟨hd, hp, hf⟩ := h
    exact ⟨by rw [hdequeue, hpopped, hd], by rw [hpopped, hp], hfull _ hf⟩
  | claimed pos =>
    obtain ⟨hd, hp, hf⟩ := h
    exact ⟨by rw [hdequeue, hpopped, hd], by rw [hpopped, hp], hfull _ hf⟩
  | halfRead pos handle =>
    obtain ⟨hd, hp, hf, hread⟩ := h
    refine ⟨by rw [hdequeue, hpopped, hd], by rw [hpopped, hp], hfull _ hf, fun e he => ?_⟩
    exact hread e (by rw [← hclaimed pos hf]; exact he)
  | read pos handle status =>
    obtain ⟨hd, hp, hf, hread⟩ := h
    refine ⟨by rw [hdequeue, hpopped, hd], by rw [hpopped, hp], hfull _ hf, fun e he => ?_⟩
    exact hread e (by rw [← hclaimed pos hf]; exact he)

theorem Inv.bumpTicket (h : s.Inv) : s.bumpTicket.Inv where
  free := h.free
  full := h.full
  sized := h.sized
  enqueuePos := h.enqueuePos
  room := h.room
  producers := h.producers
  distinct := h.distinct
  consumer := h.consumer
  popped := h.popped
  returned := h.returned
  once := h.once
  rejected := h.rejected

theorem Inv.reject (h : s.Inv) (hfull : s.outstanding = s.queue.cells) :
    ({ s with rejections := s.outstanding :: s.rejections } : QueueThreads T H S).Inv where
  free := h.free
  full := h.full
  sized := h.sized
  enqueuePos := h.enqueuePos
  room := h.room
  producers := h.producers
  distinct := h.distinct
  consumer := h.consumer
  popped := h.popped
  returned := h.returned
  once := h.once
  rejected n hn := by
    rcases List.mem_cons.mp hn with rfl | hn
    · exact hfull
    · exact h.rejected n hn

/-- A write to a cell of the turn leaves the others. -/
theorem Inv.cell_setCell_ne (h : s.Inv) {c : Cell H S} {pos' : ℕ}
    (hpos : s.popped.length ≤ pos) (hturn : pos < s.popped.length + s.queue.cells)
    (hpos' : s.popped.length ≤ pos') (hturn' : pos' < s.popped.length + s.queue.cells)
    (hne : pos' ≠ pos) : (s.queue.setCell pos c).cell pos' = s.queue.cell pos' :=
  CompletionQueue.cell_setCell_ne (h.sized.index_ne hne (by omega) (by omega))

end Facts

/-! ### The producers -/

section Producers

variable [DecidableEq T] {s} {t t' : T} {pos : ℕ} {e : GpuCompletionEvent H S}
  {phase : PushPhase H S}

@[simp] theorem producer_setProducer_self : (s.setProducer t phase).producer t = phase :=
  Function.update_self ..

theorem producer_setProducer_ne (h : t' ≠ t) :
    (s.setProducer t phase).producer t' = s.producer t' := Function.update_of_ne h ..

/-- A phase that is about the same position. -/
theorem position_setProducer (h : phase.position = (s.producer t).position) (t' : T) :
    ((s.setProducer t phase).producer t').position = (s.producer t').position := by
  by_cases ht : t' = t
  · rw [ht, producer_setProducer_self, h]
  · rw [producer_setProducer_ne ht]

theorem full_setProducer (h : phase.writing = (s.producer t).writing) :
    (s.setProducer t phase).Full pos ↔ s.Full pos := by
  refine and_congr_right fun _ => forall_congr' fun t' => ?_
  by_cases ht : t' = t
  · rw [ht, producer_setProducer_self, h]
  · rw [producer_setProducer_ne ht]

/-- A step of a producer that neither claims a position nor touches a cell. -/
theorem Inv.setProducer (h : s.Inv) (hposition : phase.position = (s.producer t).position)
    (hwriting : phase.writing = (s.producer t).writing) (hfact : s.PushFact phase) :
    (s.setProducer t phase).Inv where
  free := h.free
  full pos e hpos hfull := h.full pos e hpos ((full_setProducer hwriting).mp hfull)
  sized := h.sized
  enqueuePos := h.enqueuePos
  room := h.room
  producers t' := by
    by_cases ht : t' = t
    · rw [ht, producer_setProducer_self]
      exact hfact
    · rw [producer_setProducer_ne ht]
      exact h.producers t'
  distinct t₁ t₂ pos e e' h₁ h₂ := by
    rw [position_setProducer hposition] at h₁ h₂
    exact h.distinct t₁ t₂ pos e e' h₁ h₂
  consumer := h.consumer.mono rfl rfl (fun _ => (full_setProducer hwriting).mpr) fun _ _ => rfl
  popped := h.popped
  returned r hr := by
    obtain ⟨hclaimed, hnone⟩ := h.returned r hr
    exact ⟨hclaimed, fun t' => by rw [position_setProducer hposition]; exact hnone t'⟩
  once := h.once
  rejected := h.rejected

/-- A `Push` returns true: its position is reported once. -/
theorem Inv.pushReturn (h : s.Inv) (hphase : s.producer t = .ticketed e pos) :
    ({ s with returned := (pos, e) :: s.returned }.setProducer t .idle).Inv := by
  have hfact := h.producer_at hphase
  have hwriting : (.idle : PushPhase H S).writing = (s.producer t).writing := by rw [hphase]; rfl
  have hothers : ∀ t' r, ((s.setProducer t .idle).producer t').position = some r →
      t' ≠ t ∧ (s.producer t').position = some r := by
    intro t' r hr
    by_cases ht : t' = t
    · rw [ht, producer_setProducer_self] at hr
      cases hr
    · rw [producer_setProducer_ne ht] at hr
      exact ⟨ht, hr⟩
  have hmine : (s.producer t).position = some (pos, e) := by rw [hphase]; rfl
  refine ⟨⟨h.free, fun p e' hp hfull => h.full p e' hp ((full_setProducer hwriting).mp hfull)⟩,
    h.sized, h.enqueuePos, h.room, fun t' => ?_, fun t₁ t₂ p e₁ e₂ h₁ h₂ => ?_,
    h.consumer.mono rfl rfl (fun _ => (full_setProducer hwriting).mpr) fun _ _ => rfl, h.popped,
    fun r hr => ?_, ?_, h.rejected⟩
  · by_cases ht : t' = t
    · rw [ht]
      show s.PushFact ((s.setProducer t .idle).producer t)
      rw [producer_setProducer_self]
      trivial
    · show s.PushFact ((s.setProducer t .idle).producer t')
      rw [producer_setProducer_ne ht]
      exact h.producers t'
  · exact h.distinct t₁ t₂ p e₁ e₂ (hothers t₁ _ h₁).2 (hothers t₂ _ h₂).2
  · rcases List.mem_cons.mp hr with rfl | hr
    · refine ⟨hfact, fun t' ht' => ?_⟩
      obtain ⟨hne, hpos⟩ := hothers t' _ ht'
      exact hne (h.distinct t' t pos e e hpos hmine)
    · exact ⟨(h.returned r hr).1, fun t' ht' => (h.returned r hr).2 t' (hothers t' _ ht').2⟩
  · show (pos :: s.returned.map Prod.fst).Nodup
    refine List.nodup_cons.mpr ⟨fun hmem => ?_, h.once⟩
    obtain ⟨⟨p, e'⟩, hr, rfl⟩ := List.mem_map.mp hmem
    obtain ⟨hclaimed, hnone⟩ := h.returned _ hr
    obtain rfl := Option.some.inj (hclaimed.symm.trans hfact)
    exact hnone t hmine

/-- A producer that wins its exchange claims a position whose cell is free. -/
theorem Inv.claim (h : s.Inv) (hphase : s.producer t = .matched e pos)
    (henqueue : s.queue.enqueuePos = pos) :
    ({ s with
      queue := { s.queue with enqueuePos := pos + 1 }
      claimed := s.claimed ++ [e] }.setProducer t (.claimed e pos)).Inv := by
  have hturn : pos < s.popped.length + s.queue.cells := by
    have hfact := h.producer_at hphase
    exact hfact
  obtain rfl : s.claimed.length = pos := h.enqueuePos.symm.trans henqueue
  set s' : QueueThreads T H S := { s with
    queue := { s.queue with enqueuePos := s.claimed.length + 1 }
    claimed := s.claimed ++ [e] }.setProducer t (.claimed e s.claimed.length)
  have hlength : s'.claimed.length = s.claimed.length + 1 := List.length_append
  have hold : ∀ {p : ℕ} {e' : GpuCompletionEvent H S}, s.claimed[p]? = some e' →
      s'.claimed[p]? = some e' := fun {p e'} hp => by
    show (s.claimed ++ [e])[p]? = _
    rw [List.getElem?_append_left (List.getElem?_eq_some_iff.mp hp).1, hp]
  have hself : s'.producer t = .claimed e s.claimed.length := producer_setProducer_self
  have hother : ∀ t' ≠ t, s'.producer t' = s.producer t' := fun t' ht =>
    producer_setProducer_ne ht
  -- nobody wrote the new position before, and the others write where they wrote
  have hfull : ∀ {p : ℕ}, p < s.claimed.length → (s'.Full p ↔ s.Full p) := by
    intro p hp
    constructor
    · rintro ⟨-, hw⟩
      refine ⟨hp, fun t' ht' => ?_⟩
      by_cases ht : t' = t
      · rw [ht, hphase] at ht'
        cases ht'
      · exact hw t' (by rw [hother t' ht]; exact ht')
    · rintro ⟨-, hw⟩
      refine ⟨by omega, fun t' ht' => ?_⟩
      by_cases ht : t' = t
      · rw [ht, hself] at ht'
        obtain rfl := Option.some.inj ht'
        omega
      · rw [hother t' ht] at ht'
        exact hw t' ht'
  have hbelow : ∀ {t' : T} {p : ℕ} {e' : GpuCompletionEvent H S},
      (s.producer t').position = some (p, e') → p < s.claimed.length := fun hp =>
    (List.getElem?_eq_some_iff.mp (claimed_of_position (h.producers _) hp)).1
  refine ⟨⟨fun p hp hp' => h.free p (by omega) hp', fun p e' hp hf he' => ?_⟩, h.sized, ?_, ?_,
    fun t' => ?_, fun t₁ t₂ p e₁ e₂ h₁ h₂ => ?_, ?_, ?_, fun r hr => ?_, h.once, h.rejected⟩
  · have hlt : p < s.claimed.length := by
      have hle := hf.1
      rcases Nat.lt_or_eq_of_le (Nat.le_of_lt_succ (hlength ▸ hle)) with hlt | rfl
      · exact hlt
      · exact absurd (by rw [hself]; rfl) (hf.2 t)
    refine h.full p e' hp ((hfull hlt).mp hf) ?_
    rw [← he']
    exact (List.getElem?_append_left hlt).symm
  · exact hlength.symm
  · show s'.claimed.length ≤ s.popped.length + s.queue.cells
    omega
  · by_cases ht : t' = t
    · rw [ht, hself]
      refine ⟨List.getElem?_concat_length, h.released_le, ?_⟩
      exact h.free _ le_rfl hturn
    · rw [hother t' ht]
      exact (h.producers t').mono (fun p e' => hold) (by omega) le_rfl rfl fun p hp =>
        ⟨(writing_fact (h.producers t') hp).2.1, rfl⟩
  · by_cases ht₁ : t₁ = t
    · by_cases ht₂ : t₂ = t
      · rw [ht₁, ht₂]
      · rw [ht₁, hself] at h₁
        rw [hother t₂ ht₂] at h₂
        have := hbelow h₂
        cases h₁
        omega
    · rw [hother t₁ ht₁] at h₁
      by_cases ht₂ : t₂ = t
      · rw [ht₂, hself] at h₂
        have := hbelow h₁
        cases h₂
        omega
      · rw [hother t₂ ht₂] at h₂
        exact h.distinct t₁ t₂ p e₁ e₂ h₁ h₂
  · exact h.consumer.mono rfl rfl (fun p hp => (hfull hp.1).mpr hp) fun p hp =>
      List.getElem?_append_left hp.1
  · show s.popped = ((s.claimed ++ [e]).take s.popped.length).map _
    rw [List.take_append_of_le_length h.released_le]
    exact h.popped
  · obtain ⟨hclaimed, hnone⟩ := h.returned r hr
    refine ⟨hold hclaimed, fun t' ht' => ?_⟩
    by_cases ht : t' = t
    · rw [ht, hself] at ht'
      obtain rfl := Option.some.inj ht'
      have := (List.getElem?_eq_some_iff.mp hclaimed).1
      omega
    · rw [hother t' ht] at ht'
      exact hnone t' ht'

omit [DecidableEq T] in
/-- Two producers write different positions. -/
theorem Inv.writing_ne (h : s.Inv) {pos' : ℕ} (ht : t' ≠ t)
    (hpos : (s.producer t).writing = some pos) (hpos' : (s.producer t').writing = some pos') :
    pos' ≠ pos := by
  rintro rfl
  obtain ⟨e, he⟩ := PushPhase.position_of_writing hpos
  obtain ⟨e', he'⟩ := PushPhase.position_of_writing hpos'
  exact ht (h.distinct t' t _ _ _ he' he)

/-- A producer writes half of its event. -/
theorem Inv.write (h : s.Inv) {c : Cell H S} (hold : (s.producer t).writing = some pos)
    (hnew : phase.writing = some pos) (hposition : phase.position = (s.producer t).position)
    (hsequence : c.sequence = (s.queue.cell pos).sequence)
    (hfact : (s.setCell pos c).PushFact phase) :
    ((s.setCell pos c).setProducer t phase).Inv := by
  have hwriting : phase.writing = ((s.setCell pos c).producer t).writing := hnew.trans hold.symm
  obtain ⟨hlt, hreleased, -⟩ := writing_fact (h.producers t) hold
  have hroom := h.room
  have hseq := CompletionQueue.sequence_setCell (q := s.queue) hsequence
  have hsame := position_setProducer (s := s.setCell pos c) hposition
  refine ⟨⟨fun p hp hp' => (hseq p).trans (h.free p hp hp'), fun p e hp hf he => ?_⟩, h.sized,
    h.enqueuePos, h.room, fun t' => ?_, fun t₁ t₂ p e₁ e₂ h₁ h₂ => ?_, ?_, h.popped,
    fun r hr => ?_, h.once, h.rejected⟩
  · have hfull : s.Full p := (full_setProducer hwriting).mp hf
    have hne : p ≠ pos := by
      rintro rfl
      exact hfull.2 t hold
    have hlt' := hfull.1
    exact (h.cell_setCell_ne hreleased (by omega) hp (by omega) hne).trans (h.full p e hp hfull he)
  · by_cases ht : t' = t
    · rw [ht, producer_setProducer_self]
      exact hfact
    · rw [producer_setProducer_ne ht]
      refine (h.producers t').mono (fun _ _ hc => hc) le_rfl le_rfl rfl fun p hp => ?_
      obtain ⟨hlt', hreleased', -⟩ := writing_fact (h.producers t') hp
      exact ⟨hreleased', h.cell_setCell_ne hreleased (by omega) hreleased' (by omega)
        (h.writing_ne ht hold hp)⟩
  · exact h.distinct t₁ t₂ p e₁ e₂ ((hsame t₁).symm.trans h₁) ((hsame t₂).symm.trans h₂)
  · exact h.consumer.mono rfl rfl (fun _ => (full_setProducer hwriting).mpr) fun _ _ => rfl
  · obtain ⟨hclaimed, hnone⟩ := h.returned r hr
    exact ⟨hclaimed, fun t' ht' => hnone t' ((hsame t').symm.trans ht')⟩

/-- A producer publishes its event. -/
theorem Inv.publish (h : s.Inv) (hphase : s.producer t = .written e pos) :
    ((s.setCell pos { s.queue.cell pos with sequence := pos + 1 }).setProducer t
      (.published e pos)).Inv := by
  obtain ⟨hclaimed, hreleased, -, hhandle, hstatus⟩ := h.producer_at hphase
  have hlt := (List.getElem?_eq_some_iff.mp hclaimed).1
  have hroom := h.room
  have hwrites : (s.producer t).writing = some pos := by rw [hphase]; rfl
  have hposition : (.published e pos : PushPhase H S).position = (s.producer t).position := by
    rw [hphase]
    rfl
  set c : Cell H S := { s.queue.cell pos with sequence := pos + 1 } with hc
  have hwhole : c = ⟨pos + 1, some e.handle, some e.status⟩ := by simp [hc, hhandle, hstatus]
  set s' := (s.setCell pos c).setProducer t (.published e pos)
  have hsame : ∀ t', (s'.producer t').position = (s.producer t').position :=
    position_setProducer (s := s.setCell pos c) hposition
  have hself : s'.producer t = .published e pos := producer_setProducer_self
  have hother : ∀ t' ≠ t, s'.producer t' = s.producer t' := fun t' ht =>
    producer_setProducer_ne ht
  have hfull : ∀ {p : ℕ}, s'.Full p ↔ p = pos ∨ s.Full p := by
    intro p
    constructor
    · rintro ⟨hp, hw⟩
      by_cases hpos : p = pos
      · exact .inl hpos
      refine .inr ⟨hp, fun t' ht' => ?_⟩
      by_cases ht : t' = t
      · rw [ht, hwrites] at ht'
        exact hpos (Option.some.inj ht').symm
      · exact hw t' (by rw [hother t' ht]; exact ht')
    · rintro (rfl | hp)
      · refine ⟨hlt, fun t' ht' => ?_⟩
        by_cases ht : t' = t
        · rw [ht, hself] at ht'
          cases ht'
        · rw [hother t' ht] at ht'
          exact h.writing_ne ht hwrites ht' rfl
      · refine ⟨hp.1, fun t' ht' => ?_⟩
        by_cases ht : t' = t
        · rw [ht, hself] at ht'
          cases ht'
        · rw [hother t' ht] at ht'
          exact hp.2 t' ht'
  refine ⟨⟨fun p hp hp' => ?_, fun p e' hp hf he' => ?_⟩, h.sized,
    h.enqueuePos, h.room, fun t' => ?_, fun t₁ t₂ p e₁ e₂ h₁ h₂ => ?_, ?_, h.popped,
    fun r hr => ?_, h.once, h.rejected⟩
  · have hp' : p < s.popped.length + s.queue.cells := hp'
    have hp : s.claimed.length ≤ p := hp
    show ((s.queue.setCell pos c).cell p).sequence = p
    rw [h.cell_setCell_ne hreleased (by omega) (by omega) hp' (by omega)]
    exact h.free p hp hp'
  · show (s.queue.setCell pos c).cell p = _
    rcases hfull.mp hf with rfl | hfull'
    · obtain rfl := Option.some.inj (hclaimed.symm.trans he')
      rw [CompletionQueue.cell_setCell_self, hwhole]
    · have hne : p ≠ pos := by
        rintro rfl
        exact hfull'.2 t hwrites
      have hlt' := hfull'.1
      rw [h.cell_setCell_ne hreleased (by omega) hp (by omega) hne]
      exact h.full p e' hp hfull' he'
  · by_cases ht : t' = t
    · rw [ht, hself]
      exact hclaimed
    · rw [hother t' ht]
      refine (h.producers t').mono (fun _ _ hc => hc) le_rfl le_rfl rfl fun p hp => ?_
      obtain ⟨hlt', hreleased', -⟩ := writing_fact (h.producers t') hp
      exact ⟨hreleased', h.cell_setCell_ne hreleased (by omega) hreleased' (by omega)
        (h.writing_ne ht hwrites hp)⟩
  · exact h.distinct t₁ t₂ p e₁ e₂ ((hsame t₁).symm.trans h₁) ((hsame t₂).symm.trans h₂)
  · exact h.consumer.mono rfl rfl (fun _ hp => hfull.mpr (.inr hp)) fun _ _ => rfl
  · obtain ⟨hcl, hnone⟩ := h.returned r hr
    exact ⟨hcl, fun t' ht' => hnone t' ((hsame t').symm.trans ht')⟩

end Producers

/-! ### The consumer -/

section Consumer

variable {s} {pos : ℕ} {e : GpuCompletionEvent H S} {phase : PopPhase H S}

/-- A step of the consumer that changes nothing but where it is. -/
theorem Inv.setConsumer (h : s.Inv) (hfact : s.PopFact phase) :
    ({ s with consumer := phase } : QueueThreads T H S).Inv where
  free := h.free
  full := h.full
  sized := h.sized
  enqueuePos := h.enqueuePos
  room := h.room
  producers := h.producers
  distinct := h.distinct
  consumer := hfact
  popped := h.popped
  returned := h.returned
  once := h.once
  rejected := h.rejected

theorem Inv.popExchange (h : s.Inv) (hphase : s.consumer = .matched pos) :
    ({ s with
      queue := { s.queue with dequeuePos := pos + 1 }
      consumer := .claimed pos } : QueueThreads T H S).Inv := by
  obtain ⟨-, hpos, hfull⟩ := h.consumer_at hphase
  exact ⟨⟨h.free, h.full⟩, h.sized, h.enqueuePos, h.room, h.producers, h.distinct,
    ⟨congrArg (· + 1) hpos, hpos, hfull⟩, h.popped, h.returned, h.once, h.rejected⟩

/-- The consumer gives the cell to the next turn. -/
theorem Inv.popRelease (h : s.Inv) {handle : Option H} {status : Option S}
    (hphase : s.consumer = .read pos handle status) :
    ({ s.setCell pos { s.queue.cell pos with sequence := pos + s.queue.mask + 1 } with
      consumer := .idle
      popped := s.popped ++ [(handle, status)] } : QueueThreads T H S).Inv := by
  obtain ⟨hdequeue, hpos, hfull, hread⟩ := h.consumer_at hphase
  subst hpos
  have hlt := hfull.1
  have hroom := h.room
  have htwo := h.sized.two_le
  set c : Cell H S :=
    { s.queue.cell s.popped.length with sequence := s.popped.length + s.queue.mask + 1 } with hc
  have hlength : (s.popped ++ [(handle, status)]).length = s.popped.length + 1 :=
    List.length_append
  have hne : ∀ {p : ℕ}, s.popped.length < p → p < s.popped.length + s.queue.cells →
      (s.queue.setCell s.popped.length c).cell p = s.queue.cell p := fun hp hp' =>
    h.cell_setCell_ne le_rfl (by omega) (by omega) hp' (by omega)
  have hlater : ∀ {t : T} {p : ℕ}, (s.producer t).writing = some p → s.popped.length < p := by
    intro t p hp
    refine Nat.lt_of_le_of_ne (writing_fact (h.producers t) hp).2.1 ?_
    rintro rfl
    exact hfull.2 t hp
  refine ⟨⟨fun p hp hp' => ?_, fun p e' hp hf he' => ?_⟩, h.sized, h.enqueuePos, ?_, fun t => ?_,
    h.distinct, ?_, ?_, h.returned, h.once, h.rejected⟩
  · have hp : s.claimed.length ≤ p := hp
    have hp' : p < (s.popped ++ [(handle, status)]).length + s.queue.cells := hp'
    show ((s.queue.setCell s.popped.length c).cell p).sequence = p
    by_cases hturn : p < s.popped.length + s.queue.cells
    · rw [hne (by omega) hturn]
      exact h.free p hp hturn
    · -- the position that is a turn ahead has the cell of the one released
      obtain rfl : p = s.popped.length + s.queue.cells := by omega
      have hindex : (s.popped.length + s.queue.cells) &&& s.queue.mask =
          s.popped.length &&& s.queue.mask := by
        rw [h.sized.index, h.sized.index, Nat.add_mod_right]
      have hcell : (s.queue.setCell s.popped.length c).cell (s.popped.length + s.queue.cells) =
          (s.queue.setCell s.popped.length c).cell s.popped.length := by
        rw [CompletionQueue.cell, CompletionQueue.cell, CompletionQueue.setCell_mask, hindex]
      rw [hcell, CompletionQueue.cell_setCell_self]
      rfl
  · have hp : (s.popped ++ [(handle, status)]).length ≤ p := hp
    have hf : s.Full p := hf
    have hlt' := hf.1
    show (s.queue.setCell s.popped.length c).cell p = _
    rw [hne (by omega) (by omega)]
    exact h.full p e' (by omega) hf he'
  · show s.claimed.length ≤ (s.popped ++ [(handle, status)]).length + s.queue.cells
    omega
  · have hmore : s.popped.length ≤ (s.popped ++ [(handle, status)]).length := by omega
    refine (h.producers t).mono (fun _ _ hcl => hcl) le_rfl hmore rfl fun p hp => ?_
    have hp' := hlater hp
    have hlt' := (writing_fact (h.producers t) hp).1
    exact ⟨hlength ▸ hp', hne hp' (by omega)⟩
  · exact hdequeue.trans hlength.symm
  · show s.popped ++ [(handle, status)] =
      (s.claimed.take (s.popped ++ [(handle, status)]).length).map _
    rw [hlength, List.take_succ_eq_append_getElem hlt, List.map_append, ← h.popped]
    obtain ⟨rfl, rfl⟩ := hread _ (List.getElem?_eq_getElem hlt)
    rfl

end Consumer

/-! ### Every run -/

section Runs

variable [DecidableEq T] {s s' : QueueThreads T H S} {access : QueueAccess T H S}
  {q : CompletionQueue H S} {capacity : ℕ}

omit [DecidableEq T] in
theorem inv_start (h : CompletionQueue.init capacity = some q) :
    (start q : QueueThreads T H S).Inv := by
  have hsized := (CompletionQueue.sized_init h).1
  obtain ⟨cap, -, rfl⟩ := Option.map_eq_some_iff.mp h
  refine ⟨⟨fun pos _ hpos => ?_, fun pos e _ hfull => absurd hfull.1 (Nat.not_lt_zero _)⟩, hsized,
    rfl, Nat.zero_le _, fun _ => trivial, fun _ _ _ _ _ h₁ => (by cases h₁), rfl, rfl,
    fun _ hr => (by cases hr), List.nodup_nil, fun _ hn => (by cases hn)⟩
  exact (hsized.index pos).trans (Nat.mod_eq_of_lt (by simpa [start] using hpos))

theorem Inv.step (h : s.Inv) (hstep : s.step access = some s') : s'.Inv := by
  cases steps_of_step hstep with
  | pushLoad hphase =>
    exact h.setProducer (by rw [hphase]; rfl) (by rw [hphase]; rfl) h.enqueuePos.le
  | pushMatches hphase hsame =>
    exact h.setProducer (by rw [hphase]; rfl) (by rw [hphase]; rfl)
      (h.turn_of_sequence (h.producer_at hphase) hsame)
  | pushFails hphase hless =>
    have hfull := h.full_of_sequence (h.producer_at hphase) hless
    exact (h.reject hfull).setProducer (by simp only [hphase]; rfl) (by simp only [hphase]; rfl)
      trivial
  | pushLags hphase =>
    exact h.setProducer (by rw [hphase]; rfl) (by rw [hphase]; rfl) trivial
  | pushReload hphase =>
    exact h.setProducer (by rw [hphase]; rfl) (by rw [hphase]; rfl) h.enqueuePos.le
  | pushWins hphase hwins => exact h.claim hphase hwins
  | pushLoses hphase =>
    exact h.setProducer (by rw [hphase]; rfl) (by rw [hphase]; rfl) h.enqueuePos.le
  | pushHandle hphase =>
    obtain ⟨hclaimed, hreleased, hseq⟩ := h.producer_at hphase
    refine h.write (by rw [hphase]; rfl) rfl (by rw [hphase]; rfl) rfl ⟨hclaimed, hreleased, ?_⟩
    simp [setCell, hseq]
  | pushStatus hphase =>
    obtain ⟨hclaimed, hreleased, hseq, hhandle⟩ := h.producer_at hphase
    refine h.write (by rw [hphase]; rfl) rfl (by rw [hphase]; rfl) rfl ⟨hclaimed, hreleased, ?_⟩
    simp [setCell, hseq, hhandle]
  | pushPublish hphase => exact h.publish hphase
  | pushTicket hphase =>
    exact h.bumpTicket.setProducer (by simp only [QueueThreads.bumpTicket, hphase]; rfl)
      (by simp only [QueueThreads.bumpTicket, hphase]; rfl) (h.producer_at hphase)
  | pushReturn hphase => exact h.pushReturn hphase
  | popLoad hphase =>
    have hdequeue := h.consumer_at hphase
    exact h.setConsumer ⟨hdequeue, hdequeue⟩
  | popMatches hphase hsame =>
    obtain ⟨hdequeue, rfl⟩ := h.consumer_at hphase
    have htwo := h.sized.two_le
    rcases h.sequence le_rfl (by omega) with hs | ⟨hfull, -⟩
    · omega
    · exact h.setConsumer ⟨hdequeue, rfl, hfull⟩
  | popFails hphase => exact h.setConsumer (h.consumer_at hphase).1
  | popLags hphase => exact h.setConsumer (h.consumer_at hphase).1
  | popReload hphase =>
    have hdequeue := h.consumer_at hphase
    exact h.setConsumer ⟨hdequeue, hdequeue⟩
  | popWins hphase => exact h.popExchange hphase
  | popLoses hphase =>
    obtain ⟨hdequeue, -⟩ := h.consumer_at hphase
    exact h.setConsumer ⟨hdequeue, hdequeue⟩
  | popHandle hphase =>
    obtain ⟨hdequeue, hpos, hfull⟩ := h.consumer_at hphase
    refine h.setConsumer ⟨hdequeue, hpos, hfull, fun e he => ?_⟩
    rw [h.full _ e hpos.ge hfull he]
  | popStatus hphase =>
    obtain ⟨hdequeue, hpos, hfull, hread⟩ := h.consumer_at hphase
    refine h.setConsumer ⟨hdequeue, hpos, hfull, fun e he => ⟨hread e he, ?_⟩⟩
    rw [h.full _ e hpos.ge hfull he]
  | popRelease hphase => exact h.popRelease hphase
  | wakeAll => exact h.bumpTicket

omit [DecidableEq T] in
theorem Inv.delivers (h : s.Inv) : s.Delivers where
  popped := h.popped
  returned r hr := (h.returned r hr).1
  once := h.once
  intact r hr hpos := by
    obtain ⟨hclaimed, hnone⟩ := h.returned r hr
    have hfull : s.Full r.1 := by
      refine ⟨(List.getElem?_eq_some_iff.mp hclaimed).1, fun t ht => ?_⟩
      obtain ⟨e, he⟩ := PushPhase.position_of_writing ht
      obtain rfl := Option.some.inj ((claimed_of_position (h.producers t) he).symm.trans hclaimed)
      exact hnone t he
    have hcell := h.full r.1 r.2 hpos hfull hclaimed
    exact ⟨by rw [hcell], by rw [hcell]⟩
  rejected := h.rejected

/-- What a step says of the ring and of the pushes that returned false. -/
theorem step_frame (hstep : s.step access = some s') : s'.queue.cells = s.queue.cells ∧
    (s'.rejections = s.rejections ∨ s'.rejections = s.outstanding :: s.rejections) := by
  cases access <;> simp only [step] at hstep <;>
    grind [setProducer, setCell, bumpTicket, CompletionQueue.setCell, CompletionQueue.cells]

/-- In every run every event is delivered once, and as long as no more events are outstanding
than there are slabs, a queue that was made for them refuses none. -/
theorem completionQueue_delivers (hinit : CompletionQueue.init capacity = some q) :
    (∀ accesses s, Transition.run step (start q : QueueThreads T H S) accesses = some s →
      s.Delivers) ∧
    ∀ slabCount, capacity = slabCount + 1 → ∀ s, Transition.Reachable step
      (fun s _ => s.outstanding ≤ slabCount) (start q : QueueThreads T H S) s →
        s.rejections = [] := by
  refine ⟨fun accesses s hrun => ?_, ?_⟩
  · exact (Transition.run_induction step (P := fun _ s => s.Inv) (inv_start hinit)
      (fun _ _ _ _ hinv hstep => hinv.step hstep) hrun).delivers
  · rintro slabCount rfl s hreach
    have hcells : slabCount + 1 ≤ q.cells := (CompletionQueue.sized_init hinit).2
    obtain ⟨-, -, hnone⟩ := hreach.invariant
      (P := fun s => s.Inv ∧ s.queue.cells = q.cells ∧ s.rejections = [])
      ⟨inv_start hinit, rfl, rfl⟩ fun s access s' ⟨hinv, hsize, hnone⟩ hfew hstep => by
        obtain ⟨hsize', hrejections⟩ := step_frame hstep
        have hinv' := hinv.step hstep
        refine ⟨hinv', hsize'.trans hsize, ?_⟩
        rcases hrejections with hsame | hmore
        · rw [hsame, hnone]
        · -- a refusal would mean that all cells are taken
          have hfull := hinv'.rejected s.outstanding (by rw [hmore]; exact List.mem_cons_self)
          omega
    exact hnone

/-- One event through a queue for one slab, with an exchange that fails for no reason. -/
def pushThenPop : List (QueueAccess Unit ℕ ℕ) :=
  [.pushLoad () ⟨5, 0⟩, .pushSequence (), .pushExchange () true, .pushSequence (),
    .pushExchange () false, .pushHandle (), .pushStatus (), .pushPublish (), .pushTicket (),
    .pushReturn (), .popLoad, .popSequence, .popExchange false, .popHandle, .popStatus,
    .popRelease]

theorem completionQueue_delivers_pushThenPop :
    ∃ (q : CompletionQueue ℕ ℕ) (s : QueueThreads Unit ℕ ℕ), CompletionQueue.init 2 = some q ∧
      Transition.run step (start q) pushThenPop = some s ∧ s.popped = [(some 5, some 0)] ∧
      s.returned = [(0, ⟨5, 0⟩)] ∧ s.Delivers ∧ s.rejections = [] := by
  obtain ⟨q, hinit⟩ : ∃ q : CompletionQueue ℕ ℕ, CompletionQueue.init 2 = some q := ⟨_, rfl⟩
  obtain ⟨hdelivers, hrejects⟩ := completionQueue_delivers (T := Unit) hinit
  obtain rfl := Option.some.inj hinit
  refine ⟨_, _, rfl, rfl, rfl, rfl, hdelivers pushThenPop _ rfl, hrejects 1 rfl _ ?_⟩
  exact .of_run step pushThenPop rfl

end Runs

end QueueThreads

end SurfaceAi.Runtime
