import SurfaceAi.Runtime.QueueDelivery

/-! The callback loop over the completion queue: it pops events and resumes their coroutines,
parks on the ticket where it found no event, and drains the queue when it is asked to stop. -/

namespace SurfaceAi.Runtime

def QueueAccess.isPop {T H S : Type*} : QueueAccess T H S → Bool
  | .popLoad | .popSequence | .popReload | .popExchange _ | .popHandle | .popStatus
  | .popRelease => true
  | _ => false

/-- Where `CallbackLoop` is. `popping` and `draining` are in `Pop`; the first holds the ticket
loaded before. In `resuming` an event was popped, while draining or not. -/
inductive LoopPhase (H : Type*) where
  | checking
  | ticketing
  | popping (before : ℕ)
  | resuming (handle : Option H) (drain : Bool)
  | waiting (before : ℕ)
  | draining
  | returned

inductive LoopAction (T H S : Type*) where
  | access (access : QueueAccess T H S)
  | check
  | loadTicket
  | resume
  | waitReturn
  | requestStop

/-- The queue's threads, the consumer being the loop. Beside it stand the handles it resumed and
the pushes that had returned when it was asked to stop. -/
structure CallbackThread (T H S : Type*) where
  threads : QueueThreads T H S
  loop : LoopPhase H
  stopRequested : Bool
  resumed : List H
  returnedAtStop : List (ℕ × GpuCompletionEvent H S)

namespace CallbackThread

variable {T H S : Type*}

def start (q : CompletionQueue H S) : CallbackThread T H S := ⟨.start q, .checking, false, [], []⟩

/-- Where the loop is after an access of its `Pop`: on once it returned, with an event from the
cell it read or with none. -/
def afterPop (loop : LoopPhase H) (before after : PopPhase H S) : LoopPhase H :=
  match after with
  | .idle =>
    match before with
    | .read _ handle _ =>
      match loop with
      | .draining => .resuming handle true
      | _ => .resuming handle false
    | _ =>
      match loop with
      | .popping ticket => .waiting ticket
      | _ => .returned
  | _ => loop

/-- The loop is in `Pop`. -/
def inPop : LoopPhase H → Bool
  | .popping _ | .draining => true
  | _ => false

variable [DecidableEq T] (s : CallbackThread T H S)

def step : LoopAction T H S → Option (CallbackThread T H S)
  | .access access =>
    if access.isPop then
      if inPop s.loop then
        (s.threads.step access).map fun threads => { s with
          threads := threads
          loop := afterPop s.loop s.threads.consumer threads.consumer }
      else none
    else (s.threads.step access).map fun threads => { s with threads := threads }
  | .check =>
    match s.loop with
    | .checking => some { s with loop := if s.stopRequested then .draining else .ticketing }
    | _ => none
  | .loadTicket =>
    match s.loop with
    | .ticketing => some { s with loop := .popping s.threads.queue.ticket }
    | _ => none
  | .resume =>
    match s.loop with
    | .resuming handle drain => some { s with
        loop := if drain then .draining else .checking
        resumed := s.resumed ++ handle.toList }
    | _ => none
  | .waitReturn =>
    match s.loop with
    | .waiting before =>
      if s.threads.queue.ticket = before then none else some { s with loop := .checking }
    | _ => none
  | .requestStop =>
    if s.stopRequested then none
    else some { s with stopRequested := true, returnedAtStop := s.threads.returned }

end CallbackThread

namespace PushPhase

variable {H S : Type*}

/-- The position of a `Push` that has not bumped the ticket yet. -/
def unannounced : PushPhase H S → Option ℕ
  | .claimed _ pos | .halfWritten _ pos | .written _ pos | .published _ pos => some pos
  | _ => none

end PushPhase

/-- The event of the position is completely pushed. -/
def QueueThreads.Pushed {T H S : Type*} (s : QueueThreads T H S) (pos : ℕ) : Prop :=
  pos < s.claimed.length ∧ ∀ t, (s.producer t).unannounced ≠ some pos

namespace CallbackThread

variable {T H S : Type*} (s : CallbackThread T H S)

/-- No completed copy is forgotten: the loop is not parked on the ticket while the event at the
head is completely pushed, and when it has returned, every event whose `Push` had returned before
the stop is popped and its handle is the one resumed in its turn. -/
structure Remembers : Prop where
  parked : ∀ before, s.loop = .waiting before → s.threads.queue.ticket = before →
    ¬s.threads.Pushed s.threads.popped.length
  drained : s.loop = .returned → ∀ r ∈ s.returnedAtStop,
    r.1 < s.threads.popped.length ∧ s.resumed[r.1]? = some r.2.handle

/-- The last `Pop` of the drain: it finds the cell at the head not published. -/
def LastPop (action : LoopAction T H S) : Prop :=
  action = .access .popSequence ∧ s.loop = .draining ∧
    ∃ pos, s.threads.consumer = .loaded pos ∧ (s.threads.queue.cell pos).sequence ≤ pos

/-- At the last `Pop` no `Push` between its claim and its publication is before one that had
returned when the stop was requested. -/
def Admits (action : LoopAction T H S) : Prop :=
  s.LastPop action → ∀ t pos, (s.threads.producer t).writing = some pos →
    ∀ r ∈ s.returnedAtStop, ¬pos < r.1

end CallbackThread

/-! ### What an access of one side leaves of the other -/

namespace QueueThreads

variable {T H S : Type*} [DecidableEq T] {s s' : QueueThreads T H S} {access : QueueAccess T H S}

/-- What the loop can see of an access of the producers. -/
structure PushFrame (s s' : QueueThreads T H S) : Prop where
  consumer : s'.consumer = s.consumer
  popped : s'.popped = s.popped
  claimed : s.claimed <+: s'.claimed
  returned : s.returned ⊆ s'.returned
  ticket : s.queue.ticket ≤ s'.queue.ticket
  pushed : s'.queue.ticket = s.queue.ticket → ∀ pos, s'.Pushed pos → s.Pushed pos

/-- A producer that announces nothing. -/
theorem pushed_of_setProducer {t : T} {phase : PushPhase H S} {pos : ℕ}
    (hphase : phase.unannounced = (s.producer t).unannounced)
    (h : (s.setProducer t phase).Pushed pos) : s.Pushed pos := by
  refine ⟨h.1, fun t' => ?_⟩
  have hp := h.2 t'
  by_cases ht : t' = t
  · rw [ht, producer_setProducer_self, hphase] at hp
    rwa [ht]
  · rwa [producer_setProducer_ne ht] at hp

/-- A position that is claimed is not pushed yet. -/
theorem pushed_of_claim {t : T} {e : GpuCompletionEvent H S} {pos p : ℕ}
    (hphase : (s.producer t).unannounced = none) (hpos : pos = s.claimed.length)
    (h : ({ s with
      queue := { s.queue with enqueuePos := pos + 1 }
      claimed := s.claimed ++ [e] }.setProducer t (.claimed e pos)).Pushed p) : s.Pushed p := by
  have hne : p ≠ pos := by
    rintro rfl
    have hself := h.2 t
    rw [producer_setProducer_self] at hself
    exact hself rfl
  have hlt : p < (s.claimed ++ [e]).length := h.1
  rw [List.length_append, List.length_singleton] at hlt
  refine ⟨by omega, fun t' => ?_⟩
  have hp := h.2 t'
  by_cases ht : t' = t
  · rw [ht, hphase]
    simp
  · rwa [producer_setProducer_ne ht] at hp

/-- Only the ticket announces an event. -/
theorem pushed_of_step (hinv : s.Inv) (hpush : access.isPop = false)
    (hstep : s.step access = some s') (hticket : s'.queue.ticket = s.queue.ticket) {pos : ℕ}
    (h : s'.Pushed pos) : s.Pushed pos := by
  cases steps_of_step hstep with
  | pushLoad hphase => exact pushed_of_setProducer (by rw [hphase]; rfl) h
  | pushMatches hphase => exact pushed_of_setProducer (by rw [hphase]; rfl) h
  | pushFails hphase =>
    exact pushed_of_setProducer (s := { s with rejections := s.outstanding :: s.rejections })
      (by simp only [hphase]; rfl) h
  | pushLags hphase => exact pushed_of_setProducer (by rw [hphase]; rfl) h
  | pushReload hphase => exact pushed_of_setProducer (by rw [hphase]; rfl) h
  | pushWins hphase hwins =>
    exact pushed_of_claim (by rw [hphase]; rfl) (hwins.symm.trans hinv.enqueuePos) h
  | pushLoses hphase => exact pushed_of_setProducer (by rw [hphase]; rfl) h
  | pushHandle hphase =>
    exact pushed_of_setProducer (s := s.setCell _ _) (by simp only [setCell, hphase]; rfl) h
  | pushStatus hphase =>
    exact pushed_of_setProducer (s := s.setCell _ _) (by simp only [setCell, hphase]; rfl) h
  | pushPublish hphase =>
    exact pushed_of_setProducer (s := s.setCell _ _) (by simp only [setCell, hphase]; rfl) h
  | pushTicket => exact absurd hticket (Nat.succ_ne_self _)
  | @pushReturn t event p hphase =>
    exact pushed_of_setProducer (s := { s with returned := (p, event) :: s.returned })
      (by simp only [hphase]; rfl) h
  | wakeAll => exact absurd hticket (Nat.succ_ne_self _)
  | _ => cases hpush

theorem pushFrame_of_step (hinv : s.Inv) (hpush : access.isPop = false)
    (hstep : s.step access = some s') : PushFrame s s' where
  consumer := by
    cases access <;> simp only [QueueAccess.isPop] at hpush <;> simp only [step] at hstep <;>
      grind [setProducer, setCell, bumpTicket]
  popped := by
    cases access <;> simp only [QueueAccess.isPop] at hpush <;> simp only [step] at hstep <;>
      grind [setProducer, setCell, bumpTicket]
  claimed := by
    cases access <;> simp only [QueueAccess.isPop] at hpush <;> simp only [step] at hstep <;>
      grind [setProducer, setCell, bumpTicket]
  returned := by
    cases access <;> simp only [QueueAccess.isPop] at hpush <;> simp only [step] at hstep <;>
      grind [setProducer, setCell, bumpTicket]
  ticket := by
    cases access <;> simp only [QueueAccess.isPop] at hpush <;> simp only [step] at hstep <;>
      grind [setProducer, setCell, bumpTicket, CompletionQueue.setCell]
  pushed hticket _ := pushed_of_step hinv hpush hstep hticket

/-- How an access of `Pop` ends: it goes on, it finds nothing at the head, or it returns what it
read. -/
inductive PopEnd (access : QueueAccess T H S) (s s' : QueueThreads T H S) : Prop where
  | goesOn (consumer : s'.consumer ≠ .idle) (popped : s'.popped = s.popped)
  | nothing (pos : ℕ) (reads : access = .popSequence) (loaded : s.consumer = .loaded pos)
      (sequence : (s.queue.cell pos).sequence ≤ pos) (consumer : s'.consumer = .idle)
      (popped : s'.popped = s.popped)
  | event (pos : ℕ) (handle : Option H) (status : Option S)
      (read : s.consumer = .read pos handle status) (consumer : s'.consumer = .idle)
      (popped : s'.popped = s.popped ++ [(handle, status)])

/-- What an access of `Pop` leaves of the producers. -/
structure PopFrame (s s' : QueueThreads T H S) : Prop where
  producer : s'.producer = s.producer
  claimed : s'.claimed = s.claimed
  returned : s'.returned = s.returned
  ticket : s'.queue.ticket = s.queue.ticket

theorem popFrame_of_step (hpop : access.isPop = true) (hstep : s.step access = some s') :
    PopFrame s s' := by
  constructor <;> cases access <;> simp only [QueueAccess.isPop] at hpop <;>
    simp only [step] at hstep <;> grind [setCell, CompletionQueue.setCell]

theorem popEnd_of_step (hpop : access.isPop = true) (hstep : s.step access = some s') :
    PopEnd access s s' := by
  cases steps_of_step hstep with
  | popLoad => exact .goesOn (by simp) rfl
  | popMatches => exact .goesOn (by simp) rfl
  | popFails hphase hless => exact .nothing _ rfl hphase (Nat.le_of_lt_succ hless) rfl rfl
  | popLags => exact .goesOn (by simp) rfl
  | popReload => exact .goesOn (by simp) rfl
  | popWins => exact .goesOn (by simp) rfl
  | popLoses => exact .goesOn (by simp) rfl
  | popHandle => exact .goesOn (by simp) rfl
  | popStatus => exact .goesOn (by simp) rfl
  | popRelease hphase => exact .event _ _ _ hphase rfl rfl
  | _ => cases hpop

end QueueThreads

/-! ### The loop -/

namespace CallbackThread

variable {T H S : Type*} (s : CallbackThread T H S)

/-- The handle that was popped and is to be resumed. -/
def pending : LoopPhase H → List H
  | .resuming handle _ => handle.toList
  | _ => []

/-- The loop has seen that it is to stop. -/
def stopping : LoopPhase H → Bool
  | .draining | .returned => true
  | .resuming _ drain => drain
  | _ => false

/-- What holds in every state. The loop parks only if the event at the head was not pushed when
it looked, which is after it loaded the ticket. -/
structure Facts : Prop where
  queue : s.threads.Inv
  idle : inPop s.loop = false → s.threads.consumer = .idle
  seen : ∀ before, s.loop = .popping before ∨ s.loop = .waiting before →
    before ≤ s.threads.queue.ticket
  parked : ∀ before, s.loop = .waiting before → s.threads.queue.ticket = before →
    ¬s.threads.Pushed s.threads.popped.length
  resumed : s.resumed ++ pending s.loop =
    (s.threads.claimed.take s.threads.popped.length).map GpuCompletionEvent.handle
  stop : s.returnedAtStop ⊆ s.threads.returned
  stopped : stopping s.loop = true → s.stopRequested = true

/-- When the loop has returned, what had returned before the stop is popped. -/
def Drained : Prop :=
  s.loop = .returned → ∀ r ∈ s.returnedAtStop, r.1 < s.threads.popped.length

section Steps

variable {s} {s' : CallbackThread T H S}

/-- With the resumptions in the order of the positions, a popped event is a resumed one. -/
theorem Facts.remembers_iff_drained (h : s.Facts) : s.Remembers ↔ s.Drained := by
  refine ⟨fun hr hreturned r hmem => (hr.drained hreturned r hmem).1, fun hd => ?_⟩
  refine ⟨h.parked, fun hreturned r hmem => ?_⟩
  have hpopped := hd hreturned r hmem
  have hclaimed := (h.queue.returned r (h.stop hmem)).1
  have hresumed := h.resumed
  rw [hreturned] at hresumed
  have hresumed := (List.append_nil _).symm.trans hresumed
  refine ⟨hpopped, ?_⟩
  rw [hresumed, List.getElem?_map, List.getElem?_take_of_lt hpopped, hclaimed]
  rfl

theorem facts_start {q : CompletionQueue H S} {capacity : ℕ}
    (h : CompletionQueue.init capacity = some q) : (start q : CallbackThread T H S).Facts where
  queue := QueueThreads.inv_start h
  idle _ := rfl
  seen _ hc := by rcases hc with hc | hc <;> cases hc
  parked _ hc := by cases hc
  resumed := rfl
  stop _ hr := hr
  stopped hc := by cases hc

/-- An event that is pushed is whole in its cell. -/
theorem full_of_pushed {threads : QueueThreads T H S} {pos : ℕ} (h : threads.Pushed pos) :
    threads.Full pos := by
  refine ⟨h.1, fun t ht => h.2 t ?_⟩
  cases hphase : threads.producer t <;> rw [hphase] at ht <;> cases ht <;> rfl

/-- Where `Pop` finds nothing, the event at the head is not whole. -/
theorem not_full_of_nothing {threads : QueueThreads T H S} (h : threads.Inv) {pos : ℕ}
    (hloaded : threads.consumer = .loaded pos) (hsequence : (threads.queue.cell pos).sequence ≤ pos) :
    pos = threads.popped.length ∧ ¬threads.Full pos := by
  have hfact := h.consumer
  rw [hloaded] at hfact
  obtain ⟨-, hpos⟩ := hfact
  refine ⟨hpos, fun hfull => ?_⟩
  rw [h.full pos _ hpos.ge hfull (List.getElem?_eq_getElem hfull.1)] at hsequence
  exact absurd hsequence (Nat.not_succ_le_self pos)

/-- An event that returned is whole in its cell as long as it is not popped. -/
theorem full_of_returned {threads : QueueThreads T H S} (h : threads.Inv)
    {r : ℕ × GpuCompletionEvent H S} (hr : r ∈ threads.returned) : threads.Full r.1 := by
  obtain ⟨hclaimed, hnone⟩ := h.returned r hr
  refine ⟨(List.getElem?_eq_some_iff.mp hclaimed).1, fun t ht => ?_⟩
  obtain ⟨e, he⟩ := PushPhase.position_of_writing ht
  have hsame := (QueueThreads.claimed_of_position (h.producers t) he).symm.trans hclaimed
  obtain rfl := Option.some.inj hsame
  exact hnone t he

variable [DecidableEq T] {access : QueueAccess T H S} {threads : QueueThreads T H S}

theorem Facts.push (h : s.Facts) (hpush : access.isPop = false)
    (hstep : s.threads.step access = some threads) :
    ({ s with threads := threads } : CallbackThread T H S).Facts := by
  have hframe := QueueThreads.pushFrame_of_step h.queue hpush hstep
  refine ⟨h.queue.step hstep, fun hpop => hframe.consumer.trans (h.idle hpop),
    fun before hb => (h.seen before hb).trans hframe.ticket, fun before hwait hticket => ?_, ?_,
    fun r hr => hframe.returned (h.stop hr), h.stopped⟩
  · -- the ticket has not moved, so nothing was announced since the loop parked
    have hbefore := h.seen before (.inr hwait)
    have hsame : threads.queue.ticket = s.threads.queue.ticket :=
      Nat.le_antisymm (hticket.le.trans hbefore) hframe.ticket
    rw [hframe.popped]
    exact fun hp => h.parked before hwait (hsame.symm.trans hticket) (hframe.pushed hsame _ hp)
  · obtain ⟨more, hmore⟩ := hframe.claimed
    show s.resumed ++ pending s.loop = (threads.claimed.take threads.popped.length).map _
    rw [hframe.popped, ← hmore, List.take_append_of_le_length h.queue.released_le]
    exact h.resumed

/-- The loop in `Pop`, and where it is when `Pop` has returned. -/
theorem Facts.pop (h : s.Facts) (hin : inPop s.loop = true) (hpop : access.isPop = true)
    (hstep : s.threads.step access = some threads) :
    ({ s with
      threads := threads
      loop := afterPop s.loop s.threads.consumer threads.consumer } : CallbackThread T H S).Facts := by
  have hframe := QueueThreads.popFrame_of_step hpop hstep
  have hqueue := h.queue.step hstep
  have hpending : pending s.loop = [] := by
    cases hloop : s.loop <;> rw [hloop] at hin <;> first | rfl | cases hin
  have hresumed := h.resumed
  rw [hpending, List.append_nil] at hresumed
  have hpushed : ∀ pos, threads.Pushed pos → s.threads.Pushed pos := fun pos hp => by
    refine ⟨hframe.claimed ▸ hp.1, fun t => ?_⟩
    rw [← hframe.producer]
    exact hp.2 t
  have hstopped : stopping (afterPop s.loop s.threads.consumer threads.consumer) = true →
      s.stopRequested = true := by
    intro hs
    refine h.stopped (Eq.trans ?_ hs)
    unfold afterPop
    cases hloop : s.loop <;> rw [hloop] at hin <;> first | cases hin; done | (split <;> (try split) <;> rfl)
  cases QueueThreads.popEnd_of_step hpop hstep with
  | goesOn consumer popped =>
    have hloop : afterPop s.loop s.threads.consumer threads.consumer = s.loop := by
      cases hc : threads.consumer <;> first | exact absurd hc consumer | rfl
    rw [hloop]
    refine ⟨hqueue, fun hout => ?_, fun before hb => ?_, fun before hwait => ?_, ?_, fun r hr => ?_,
      h.stopped⟩
    · exact absurd (hin.symm.trans hout) (by simp)
    · exact (h.seen before hb).trans hframe.ticket.ge
    · rw [hwait] at hin
      cases hin
    · show s.resumed ++ pending s.loop = (threads.claimed.take threads.popped.length).map _
      rw [hpending, List.append_nil, hframe.claimed, popped]
      exact hresumed
    · exact hframe.returned ▸ h.stop hr
  | nothing pos reads loaded sequence consumer popped =>
    obtain ⟨hpos, hnotFull⟩ := not_full_of_nothing h.queue loaded sequence
    rw [consumer, loaded] at hstopped ⊢
    refine ⟨hqueue, fun _ => consumer, fun before hb => ?_, fun before hwait hticket => ?_, ?_,
      fun r hr => hframe.returned ▸ h.stop hr, hstopped⟩
    · cases hloop : s.loop with
      | popping ticket =>
        rw [hloop] at hb
        obtain rfl : ticket = before := by simpa [afterPop] using hb
        exact (h.seen ticket (.inl hloop)).trans hframe.ticket.ge
      | draining =>
        rw [hloop] at hb
        simp [afterPop] at hb
      | _ => rw [hloop] at hin; cases hin
    · rw [popped, ← hpos]
      exact fun hp => hnotFull (full_of_pushed (hpushed pos hp))
    · show s.resumed ++ pending (afterPop s.loop (.loaded pos : PopPhase H S) .idle) =
        (threads.claimed.take threads.popped.length).map _
      have hnone : pending (afterPop s.loop (.loaded pos) (.idle : PopPhase H S)) = [] := by
        cases hloop : s.loop <;> rfl
      rw [hnone, List.append_nil, hframe.claimed, popped]
      exact hresumed
  | event pos handle status read consumer popped =>
    have hfact := h.queue.consumer
    rw [read] at hfact
    obtain ⟨-, rfl, hfull, hread⟩ := hfact
    obtain ⟨hhandle, -⟩ := hread _ (List.getElem?_eq_getElem hfull.1)
    rw [consumer, read] at hstopped ⊢
    have hafter : ∃ drain, afterPop s.loop (.read s.threads.popped.length handle status) .idle =
        .resuming handle drain := by
      cases s.loop <;> exact ⟨_, rfl⟩
    obtain ⟨drain, hafter⟩ := hafter
    rw [hafter] at hstopped ⊢
    refine ⟨hqueue, fun _ => consumer, fun before hb => ?_, fun before hwait => ?_, ?_,
      fun r hr => hframe.returned ▸ h.stop hr, hstopped⟩
    · rcases hb with hb | hb <;> cases hb
    · cases hwait
    · show s.resumed ++ handle.toList = (threads.claimed.take threads.popped.length).map _
      rw [hframe.claimed, popped, List.length_append, List.length_singleton,
        List.take_succ_eq_append_getElem hfull.1, List.map_append, ← hresumed, hhandle]
      rfl

/-- An access of `Pop` after which the loop has returned. -/
theorem afterPop_eq_returned_iff (hin : inPop s.loop = true) (hpop : access.isPop = true)
    (hstep : s.threads.step access = some threads) :
    afterPop s.loop s.threads.consumer threads.consumer = .returned ↔
      s.LastPop (.access access) := by
  constructor
  · intro hreturned
    cases QueueThreads.popEnd_of_step hpop hstep with
    | goesOn consumer popped =>
      have hloop : s.loop = .returned := by
        rw [← hreturned]
        cases hc : threads.consumer <;> first | exact absurd hc consumer | rfl
      rw [hloop] at hin
      cases hin
    | nothing pos reads loaded sequence consumer popped =>
      rw [consumer, loaded] at hreturned
      refine ⟨congrArg _ reads, ?_, pos, loaded, sequence⟩
      cases hloop : s.loop with
      | draining => rfl
      | popping ticket =>
        rw [hloop] at hreturned
        cases hreturned
      | _ =>
        rw [hloop] at hin
        cases hin
    | event pos handle status read consumer popped =>
      rw [consumer, read] at hreturned
      cases hloop : s.loop <;> rw [hloop] at hreturned <;> cases hreturned
  · rintro ⟨haccess, hdraining, pos, hloaded, hsequence⟩
    obtain rfl := LoopAction.access.inj haccess
    simp only [QueueThreads.step, hloaded] at hstep
    rw [if_neg (by omega), if_pos (by omega)] at hstep
    obtain rfl := Option.some.inj hstep
    rw [hdraining, hloaded]
    rfl

/-- The drain ends right if and only if no push that had returned is behind one that is not
published. -/
theorem Facts.drained_pop (h : s.Facts) (hin : inPop s.loop = true) (hpop : access.isPop = true)
    (hstep : s.threads.step access = some threads) :
    ({ s with
      threads := threads
      loop := afterPop s.loop s.threads.consumer threads.consumer } :
        CallbackThread T H S).Drained ↔ s.Admits (.access access) := by
  have hlast := afterPop_eq_returned_iff hin hpop hstep
  refine ⟨fun hdrained hl t pos hpos r hr hlt => ?_, fun hadmits hreturned r hr => ?_⟩
  · have hpopped := hdrained (hlast.mpr hl) r hr
    obtain ⟨haccess, -, p, hloaded, hsequence⟩ := hl
    have hlate := (QueueThreads.writing_fact (h.queue.producers t) hpos).2.1
    have hsame : threads.popped = s.threads.popped := by
      cases QueueThreads.popEnd_of_step hpop hstep with
      | goesOn consumer popped => exact popped
      | nothing pos reads loaded sequence consumer popped => exact popped
      | event pos handle status read consumer popped =>
        rw [hloaded] at read
        cases read
    have hpopped : r.1 < threads.popped.length := hpopped
    rw [hsame] at hpopped
    omega
  · obtain ⟨haccess, hdraining, p, hloaded, hsequence⟩ := hlast.mp hreturned
    obtain ⟨rfl, hnotFull⟩ := not_full_of_nothing h.queue hloaded hsequence
    have hfull := full_of_returned h.queue (h.stop hr)
    have hmore : s.threads.popped.length ≤ threads.popped.length := by
      cases QueueThreads.popEnd_of_step hpop hstep with
      | goesOn consumer popped => rw [popped]
      | nothing pos reads loaded sequence consumer popped => rw [popped]
      | event pos handle status read consumer popped => rw [popped]; simp
    refine Nat.lt_of_lt_of_le (by_contra fun hlate => ?_) hmore
    have hne : r.1 ≠ s.threads.popped.length := fun heq => hnotFull (heq ▸ hfull)
    have hclaimed := hfull.1
    -- the head is claimed and not whole, so somebody is writing it
    obtain ⟨t, ht⟩ : ∃ t, (s.threads.producer t).writing = some s.threads.popped.length := by
      by_contra hnone
      exact hnotFull ⟨by omega, fun t ht => hnone ⟨t, ht⟩⟩
    exact hadmits (hlast.mp hreturned) t _ ht r hr (by omega)

omit [DecidableEq T] in
/-- A step of the loop outside of `Pop` that does not park it. -/
theorem Facts.setLoop (h : s.Facts) {loop : LoopPhase H} {resumed : List H}
    (hout : inPop s.loop = false) (hwait : ∀ before, loop ≠ .waiting before)
    (hseen : ∀ before, loop = .popping before → before ≤ s.threads.queue.ticket)
    (hresumed : resumed ++ pending loop = s.resumed ++ pending s.loop)
    (hstopped : stopping loop = true → s.stopRequested = true) :
    ({ s with loop := loop, resumed := resumed } : CallbackThread T H S).Facts where
  queue := h.queue
  idle _ := h.idle hout
  seen before hb := hb.elim (hseen before) fun hb => absurd hb (hwait before)
  parked before hb := absurd hb (hwait before)
  resumed := hresumed.trans h.resumed
  stop := h.stop
  stopped := hstopped

omit [DecidableEq T] in
/-- A step that is no access of the queue, after which the loop has not returned. -/
theorem drained_iff_admits {action : LoopAction T H S} (hloop : s'.loop ≠ .returned)
    (haction : ∀ access, action ≠ .access access) : s'.Drained ↔ s.Admits action :=
  ⟨fun _ hlast => absurd hlast.1 (haction _), fun _ hreturned => absurd hreturned hloop⟩

theorem Facts.step (h : s.Facts) {action : LoopAction T H S}
    (hstep : s.step action = some s') : s'.Facts ∧ (s.Drained → (s'.Drained ↔ s.Admits action)) := by
  cases action with
  | access access =>
    simp only [CallbackThread.step] at hstep
    split_ifs at hstep with hpop hin
    · obtain ⟨threads, hthreads, rfl⟩ := Option.map_eq_some_iff.mp hstep
      exact ⟨h.pop hin hpop hthreads, fun _ => h.drained_pop hin hpop hthreads⟩
    · have hpush : access.isPop = false := by simpa using hpop
      obtain ⟨threads, hthreads, rfl⟩ := Option.map_eq_some_iff.mp hstep
      refine ⟨h.push hpush hthreads, fun hdrained => ⟨fun _ hlast => ?_, fun _ hreturned r hr => ?_⟩⟩
      · obtain rfl := LoopAction.access.inj hlast.1
        cases hpush
      · show r.1 < threads.popped.length
        rw [(QueueThreads.pushFrame_of_step h.queue hpush hthreads).popped]
        exact hdrained hreturned r hr
  | check =>
    simp only [CallbackThread.step] at hstep
    split at hstep
    · rename_i hloop
      obtain rfl := Option.some.inj hstep
      by_cases hstop : s.stopRequested = true
      · rw [if_pos hstop]
        exact ⟨h.setLoop (by rw [hloop]; rfl) (by simp) (by simp) (by rw [hloop]; rfl)
          fun _ => hstop, fun _ => drained_iff_admits (by simp) (by simp)⟩
      · rw [if_neg hstop]
        exact ⟨h.setLoop (by rw [hloop]; rfl) (by simp) (by simp) (by rw [hloop]; rfl)
          (by simp [stopping]), fun _ => drained_iff_admits (by simp) (by simp)⟩
    · cases hstep
  | loadTicket =>
    simp only [CallbackThread.step] at hstep
    split at hstep
    · rename_i hloop
      obtain rfl := Option.some.inj hstep
      exact ⟨h.setLoop (by rw [hloop]; rfl) (by simp) (by simp) (by rw [hloop]; rfl)
        (by simp [stopping]), fun _ => drained_iff_admits (by simp) (by simp)⟩
    · cases hstep
  | resume =>
    simp only [CallbackThread.step] at hstep
    split at hstep
    · rename_i handle drain hloop
      obtain rfl := Option.some.inj hstep
      have hstopped := h.stopped
      rw [hloop] at hstopped
      cases drain with
      | true =>
        exact ⟨h.setLoop (by rw [hloop]; rfl) (by simp) (by simp)
          (by rw [hloop]; exact List.append_nil _) fun _ => hstopped rfl,
          fun _ => drained_iff_admits (by simp) (by simp)⟩
      | false =>
        exact ⟨h.setLoop (by rw [hloop]; rfl) (by simp) (by simp)
          (by rw [hloop]; exact List.append_nil _) (by simp [stopping]),
          fun _ => drained_iff_admits (by simp) (by simp)⟩
    · cases hstep
  | waitReturn =>
    simp only [CallbackThread.step] at hstep
    split at hstep
    · rename_i before hloop
      split_ifs at hstep
      obtain rfl := Option.some.inj hstep
      exact ⟨h.setLoop (by rw [hloop]; rfl) (by simp) (by simp) (by rw [hloop]; rfl)
        (by simp [stopping]), fun _ => drained_iff_admits (by simp) (by simp)⟩
    · cases hstep
  | requestStop =>
    simp only [CallbackThread.step] at hstep
    split_ifs at hstep with hstop
    obtain rfl := Option.some.inj hstep
    refine ⟨⟨h.queue, h.idle, h.seen, h.parked, h.resumed, fun _ hr => hr, fun _ => rfl⟩,
      fun _ => drained_iff_admits (fun hreturned => hstop (h.stopped ?_)) (by simp)⟩
    have hreturned : s.loop = .returned := hreturned
    rw [hreturned]
    rfl

end Steps

section Runs

variable [DecidableEq T] {q : CompletionQueue H S} {capacity : ℕ}

/-- No completed copy is forgotten in a run if and only if the drain never ends at a position that
a `Push` has claimed and not published, with another one behind it that had returned before the
stop. -/
theorem remembers_iff (hinit : CompletionQueue.init capacity = some q)
    (actions : List (LoopAction T H S)) :
    Transition.Along step (fun _ _ s' => s'.Remembers) (start q) actions ↔
      Transition.Along step (fun s action _ => s.Admits action) (start q) actions := by
  refine Transition.along_iff (I := fun s : CallbackThread T H S => s.Facts ∧ s.Drained) ?_ ?_
    ⟨facts_start hinit, fun hreturned => (by cases hreturned)⟩ actions
  · rintro s action s' ⟨hfacts, hdrained⟩ hstep
    obtain ⟨hfacts', hiff⟩ := hfacts.step hstep
    exact hfacts'.remembers_iff_drained.trans (hiff hdrained)
  · rintro s action s' ⟨hfacts, hdrained⟩ hstep hremembers
    obtain ⟨hfacts', -⟩ := hfacts.step hstep
    exact ⟨hfacts', hfacts'.remembers_iff_drained.mp hremembers⟩

/-- In every run the loop is parked on the current ticket only while the event at the head is not
completely pushed. -/
theorem parked_of_run (hinit : CompletionQueue.init capacity = some q)
    {actions : List (LoopAction T H S)} {s : CallbackThread T H S}
    (hrun : Transition.run step (start q) actions = some s) {before : ℕ}
    (hloop : s.loop = .waiting before) (hticket : s.threads.queue.ticket = before) :
    ¬s.threads.Pushed s.threads.popped.length :=
  (Transition.run_induction step (P := fun _ s => s.Facts) (facts_start hinit)
    (fun _ _ _ _ h hstep => (h.step hstep).1) hrun).parked before hloop hticket

/-- Producer `false` claims position 0 and goes no further; producer `true` pushes its event
behind it and returns; then the loop is stopped. -/
def stopBehindClaim : List (LoopAction Bool ℕ ℕ) :=
  [.access (.pushLoad false ⟨1, 0⟩), .access (.pushSequence false),
    .access (.pushExchange false false), .access (.pushLoad true ⟨2, 0⟩),
    .access (.pushSequence true), .access (.pushExchange true false), .access (.pushHandle true),
    .access (.pushStatus true), .access (.pushPublish true), .access (.pushTicket true),
    .access (.pushReturn true), .requestStop, .check, .access .popLoad, .access .popSequence]

theorem stopBehindClaim_forgets :
    ∃ (q : CompletionQueue ℕ ℕ) (s : CallbackThread Bool ℕ ℕ),
      CompletionQueue.init 3 = some q ∧
      Transition.run step (start q) stopBehindClaim = some s ∧ s.loop = .returned ∧
      s.returnedAtStop = [(1, ⟨2, 0⟩)] ∧ s.resumed = [] ∧ ¬s.Remembers := by
  obtain ⟨q, hinit⟩ : ∃ q : CompletionQueue ℕ ℕ, CompletionQueue.init 3 = some q := ⟨_, rfl⟩
  obtain rfl := Option.some.inj hinit
  refine ⟨_, _, rfl, rfl, rfl, rfl, rfl, fun h => ?_⟩
  exact absurd (h.drained rfl (1, ⟨2, 0⟩) List.mem_cons_self).1 (Nat.not_lt_zero _)

theorem remembers_iff_stopBehindClaim :
    ∃ q : CompletionQueue ℕ ℕ, CompletionQueue.init 3 = some q ∧
      (Transition.Along step (fun _ _ s' => s'.Remembers) (start q) stopBehindClaim ↔
        Transition.Along step (fun s action _ => s.Admits action) (start q) stopBehindClaim) := by
  obtain ⟨q, hinit⟩ : ∃ q : CompletionQueue ℕ ℕ, CompletionQueue.init 3 = some q := ⟨_, rfl⟩
  exact ⟨q, hinit, remembers_iff hinit stopBehindClaim⟩

end Runs

end CallbackThread

end SurfaceAi.Runtime
