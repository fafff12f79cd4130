import SurfaceAi.Library.Ring
import SurfaceAi.Library.Transition
import Mathlib.Data.List.GetD
import Mathlib.Data.Nat.Bitwise
import Mathlib.Logic.Function.Basic

/-! The completion queue: any number of producers in `Push` and one consumer in `Pop`,
interleaved at every access to the ring. A position that is claimed is numbered by the sequence
of its cell, which says in turn that the cell is free for it, and that it holds its event. -/

namespace SurfaceAi.Runtime

structure GpuCompletionEvent (H S : Type*) where
  handle : H
  status : S
  deriving DecidableEq

/-- A cell. The data that was not written yet is null. -/
structure Cell (H S : Type*) where
  sequence : ℕ
  handle : Option H
  status : Option S
  deriving DecidableEq

structure CompletionQueue (H S : Type*) where
  buffer : ℕ → Cell H S
  mask : ℕ
  enqueuePos : ℕ
  dequeuePos : ℕ
  ticket : ℕ

/-- The loop of `Init`, in machine arithmetic: it ends within as many rounds as a size has bits,
or not at all. -/
def growCapacity (capacity : ℕ) : ℕ → ℕ → Option ℕ
  | 0, _ => none
  | rounds + 1, cap =>
    if cap < capacity then growCapacity capacity rounds (cap * 2 % 2 ^ 64) else some cap

namespace CompletionQueue

variable {H S : Type*} (q : CompletionQueue H S)

def init (capacity : ℕ) : Option (CompletionQueue H S) :=
  (growCapacity capacity 64 2).map fun cap => ⟨fun i => ⟨i, none, none⟩, cap - 1, 0, 0, 0⟩

/-- `buffer_[pos & mask_]`. -/
def cell (pos : ℕ) : Cell H S := q.buffer (pos &&& q.mask)

def setCell (pos : ℕ) (cell : Cell H S) : CompletionQueue H S :=
  { q with buffer := Function.update q.buffer (pos &&& q.mask) cell }

/-- The number of cells. -/
def cells : ℕ := q.mask + 1

end CompletionQueue

/-- Where `Push` is. In `stale` it has read a sequence that is past its position. -/
inductive PushPhase (H S : Type*) where
  | idle
  | loaded (event : GpuCompletionEvent H S) (pos : ℕ)
  | stale (event : GpuCompletionEvent H S)
  | matched (event : GpuCompletionEvent H S) (pos : ℕ)
  | claimed (event : GpuCompletionEvent H S) (pos : ℕ)
  | halfWritten (event : GpuCompletionEvent H S) (pos : ℕ)
  | written (event : GpuCompletionEvent H S) (pos : ℕ)
  | published (event : GpuCompletionEvent H S) (pos : ℕ)
  | ticketed (event : GpuCompletionEvent H S) (pos : ℕ)

/-- Where `Pop` is. -/
inductive PopPhase (H S : Type*) where
  | idle
  | loaded (pos : ℕ)
  | stale
  | matched (pos : ℕ)
  | claimed (pos : ℕ)
  | halfRead (pos : ℕ) (handle : Option H)
  | read (pos : ℕ) (handle : Option H) (status : Option S)

/-- The accesses of `Push`, then those of `Pop`, and `WakeAll`. A weak exchange may fail although
the position is the one expected. -/
inductive QueueAccess (T H S : Type*) where
  | pushLoad (t : T) (event : GpuCompletionEvent H S)
  | pushSequence (t : T)
  | pushReload (t : T)
  | pushExchange (t : T) (spurious : Bool)
  | pushHandle (t : T)
  | pushStatus (t : T)
  | pushPublish (t : T)
  | pushTicket (t : T)
  | pushReturn (t : T)
  | popLoad
  | popSequence
  | popReload
  | popExchange (spurious : Bool)
  | popHandle
  | popStatus
  | popRelease
  | wakeAll

/-- The queue with its threads. Beside it stand the events by the positions they claimed, what
`Pop` returned, the positions whose `Push` returned true, and for every `Push` that returned
false the number of positions that were claimed and not released. -/
structure QueueThreads (T H S : Type*) where
  queue : CompletionQueue H S
  producer : T → PushPhase H S
  consumer : PopPhase H S
  claimed : List (GpuCompletionEvent H S)
  popped : List (Option H × Option S)
  returned : List (ℕ × GpuCompletionEvent H S)
  rejections : List ℕ

namespace QueueThreads

variable {T H S : Type*}

def start (q : CompletionQueue H S) : QueueThreads T H S :=
  ⟨q, fun _ => .idle, .idle, [], [], [], []⟩

/-- The positions claimed and not yet released by `Pop`. -/
def outstanding (s : QueueThreads T H S) : ℕ := s.claimed.length - s.popped.length

variable [DecidableEq T] (s : QueueThreads T H S)

def setProducer (t : T) (phase : PushPhase H S) : QueueThreads T H S :=
  { s with producer := Function.update s.producer t phase }

def setCell (pos : ℕ) (cell : Cell H S) : QueueThreads T H S :=
  { s with queue := s.queue.setCell pos cell }

def bumpTicket : QueueThreads T H S :=
  { s with queue := { s.queue with ticket := s.queue.ticket + 1 } }

/-- One access of one of the threads. -/
def step : QueueAccess T H S → Option (QueueThreads T H S)
  | .pushLoad t event =>
    match s.producer t with
    | .idle => some (s.setProducer t (.loaded event s.queue.enqueuePos))
    | _ => none
  | .pushSequence t =>
    match s.producer t with
    | .loaded event pos =>
      let sequence := (s.queue.cell pos).sequence
      if sequence = pos then some (s.setProducer t (.matched event pos))
      else if sequence < pos then
        some ({ s with rejections := s.outstanding :: s.rejections }.setProducer t .idle)
      else some (s.setProducer t (.stale event))
    | _ => none
  | .pushReload t =>
    match s.producer t with
    | .stale event => some (s.setProducer t (.loaded event s.queue.enqueuePos))
    | _ => none
  | .pushExchange t spurious =>
    match s.producer t with
    | .matched event pos =>
      if s.queue.enqueuePos = pos ∧ spurious = false then
        some ({ s with
          queue := { s.queue with enqueuePos := pos + 1 }
          claimed := s.claimed ++ [event] }.setProducer t (.claimed event pos))
      else some (s.setProducer t (.loaded event s.queue.enqueuePos))
    | _ => none
  | .pushHandle t =>
    match s.producer t with
    | .claimed event pos =>
      some ((s.setCell pos { s.queue.cell pos with handle := some event.handle }).setProducer t
        (.halfWritten event pos))
    | _ => none
  | .pushStatus t =>
    match s.producer t with
    | .halfWritten event pos =>
      some ((s.setCell pos { s.queue.cell pos with status := some event.status }).setProducer t
        (.written event pos))
    | _ => none
  | .pushPublish t =>
    match s.producer t with
    | .written event pos =>
      some ((s.setCell pos { s.queue.cell pos with sequence := pos + 1 }).setProducer t
        (.published event pos))
    | _ => none
  | .pushTicket t =>
    match s.producer t with
    | .published event pos => some (s.bumpTicket.setProducer t (.ticketed event pos))
    | _ => none
  | .pushReturn t =>
    match s.producer t with
    | .ticketed event pos =>
      some ({ s with returned := (pos, event) :: s.returned }.setProducer t .idle)
    | _ => none
  | .popLoad =>
    match s.consumer with
    | .idle => some { s with consumer := .loaded s.queue.dequeuePos }
    | _ => none
  | .popSequence =>
    match s.consumer with
    | .loaded pos =>
      let sequence := (s.queue.cell pos).sequence
      if sequence = pos + 1 then some { s with consumer := .matched pos }
      else if sequence < pos + 1 then some { s with consumer := .idle }
      else some { s with consumer := .stale }
    | _ => none
  | .popReload =>
    match s.consumer with
    | .stale => some { s with consumer := .loaded s.queue.dequeuePos }
    | _ => none
  | .popExchange spurious =>
    match s.consumer with
    | .matched pos =>
      if s.queue.dequeuePos = pos ∧ spurious = false then
        some { s with
          queue := { s.queue with dequeuePos := pos + 1 }
          consumer := .claimed pos }
      else some { s with consumer := .loaded s.queue.dequeuePos }
    | _ => none
  | .popHandle =>
    match s.consumer with
    | .claimed pos => some { s with consumer := .halfRead pos (s.queue.cell pos).handle }
    | _ => none
  | .popStatus =>
    match s.consumer with
    | .halfRead pos handle =>
      some { s with consumer := .read pos handle (s.queue.cell pos).status }
    | _ => none
  | .popRelease =>
    match s.consumer with
    | .read pos handle status =>
      some { s.setCell pos { s.queue.cell pos with sequence := pos + s.queue.mask + 1 } with
        consumer := .idle
        popped := s.popped ++ [(handle, status)] }
    | _ => none
  | .wakeAll => some s.bumpTicket

/-- What an access does, case by case, with the phase it needs. -/
inductive Steps : QueueAccess T H S → QueueThreads T H S → Prop
  | pushLoad {t event} (hphase : s.producer t = .idle) :
    Steps (.pushLoad t event) (s.setProducer t (.loaded event s.queue.enqueuePos))
  | pushMatches {t event pos} (hphase : s.producer t = .loaded event pos)
    (hsame : (s.queue.cell pos).sequence = pos) :
    Steps (.pushSequence t) (s.setProducer t (.matched event pos))
  | pushFails {t event pos} (hphase : s.producer t = .loaded event pos)
    (hless : (s.queue.cell pos).sequence < pos) :
    Steps (.pushSequence t)
      ({ s with rejections := s.outstanding :: s.rejections }.setProducer t .idle)
  | pushLags {t event pos} (hphase : s.producer t = .loaded event pos) :
    Steps (.pushSequence t) (s.setProducer t (.stale event))
  | pushReload {t event} (hphase : s.producer t = .stale event) :
    Steps (.pushReload t) (s.setProducer t (.loaded event s.queue.enqueuePos))
  | pushWins {t event pos} (hphase : s.producer t = .matched event pos)
    (hwins : s.queue.enqueuePos = pos) :
    Steps (.pushExchange t false) ({ s with
      queue := { s.queue with enqueuePos := pos + 1 }
      claimed := s.claimed ++ [event] }.setProducer t (.claimed event pos))
  | pushLoses {t event pos spurious} (hphase : s.producer t = .matched event pos) :
    Steps (.pushExchange t spurious) (s.setProducer t (.loaded event s.queue.enqueuePos))
  | pushHandle {t event pos} (hphase : s.producer t = .claimed event pos) :
    Steps (.pushHandle t)
      ((s.setCell pos { s.queue.cell pos with handle := some event.handle }).setProducer t
        (.halfWritten event pos))
  | pushStatus {t event pos} (hphase : s.producer t = .halfWritten event pos) :
    Steps (.pushStatus t)
      ((s.setCell pos { s.queue.cell pos with status := some event.status }).setProducer t
        (.written event pos))
  | pushPublish {t event pos} (hphase : s.producer t = .written event pos) :
    Steps (.pushPublish t)
      ((s.setCell pos { s.queue.cell pos with sequence := pos + 1 }).setProducer t
        (.published event pos))
  | pushTicket {t event pos} (hphase : s.producer t = .published event pos) :
    Steps (.pushTicket t) (s.bumpTicket.setProducer t (.ticketed event pos))
  | pushReturn {t event pos} (hphase : s.producer t = .ticketed event pos) :
    Steps (.pushReturn t)
      ({ s with returned := (pos, event) :: s.returned }.setProducer t .idle)
  | popLoad (hphase : s.consumer = .idle) :
    Steps .popLoad { s with consumer := .loaded s.queue.dequeuePos }
  | popMatches {pos} (hphase : s.consumer = .loaded pos)
    (hsame : (s.queue.cell pos).sequence = pos + 1) :
    Steps .popSequence { s with consumer := .matched pos }
  | popFails {pos} (hphase : s.consumer = .loaded pos)
    (hless : (s.queue.cell pos).sequence < pos + 1) :
    Steps .popSequence { s with consumer := .idle }
  | popLags {pos} (hphase : s.consumer = .loaded pos) :
    Steps .popSequence { s with consumer := .stale }
  | popReload (hphase : s.consumer = .stale) :
    Steps .popReload { s with consumer := .loaded s.queue.dequeuePos }
  | popWins {pos} (hphase : s.consumer = .matched pos) (hwins : s.queue.dequeuePos = pos) :
    Steps (.popExchange false) { s with
      queue := { s.queue with dequeuePos := pos + 1 }
      consumer := .claimed pos }
  | popLoses {pos spurious} (hphase : s.consumer = .matched pos) :
    Steps (.popExchange spurious) { s with consumer := .loaded s.queue.dequeuePos }
  | popHandle {pos} (hphase : s.consumer = .claimed pos) :
    Steps .popHandle { s with consumer := .halfRead pos (s.queue.cell pos).handle }
  | popStatus {pos handle} (hphase : s.consumer = .halfRead pos handle) :
    Steps .popStatus { s with consumer := .read pos handle (s.queue.cell pos).status }
  | popRelease {pos handle status} (hphase : s.consumer = .read pos handle status) :
    Steps .popRelease
      { s.setCell pos { s.queue.cell pos with sequence := pos + s.queue.mask + 1 } with
        consumer := .idle
        popped := s.popped ++ [(handle, status)] }
  | wakeAll : Steps .wakeAll s.bumpTicket

variable {s} in
theorem steps_of_step {s' : QueueThreads T H S} {access : QueueAccess T H S}
    (hstep : s.step access = some s') : Steps s access s' := by
  cases access with
  | pushExchange t spurious =>
    simp only [step] at hstep
    split at hstep
    · rename_i event pos hphase
      split_ifs at hstep with hwins
      · obtain ⟨hwins, rfl⟩ := hwins
        cases hstep
        exact .pushWins hphase hwins
      · cases hstep
        exact .pushLoses hphase
    · cases hstep
  | popExchange spurious =>
    simp only [step] at hstep
    split at hstep
    · rename_i pos hphase
      split_ifs at hstep with hwins
      · obtain ⟨hwins, rfl⟩ := hwins
        cases hstep
        exact .popWins hphase hwins
      · cases hstep
        exact .popLoses hphase
    · cases hstep
  | _ =>
    all_goals
      simp only [step] at hstep
      repeat' split at hstep
      all_goals cases hstep
      all_goals constructor <;> assumption

/-- The events that Push reports as delivered are delivered: what `Pop` returned is what was
claimed, in the order of the claims, an event that is not popped stands whole in its cell, no
position is reported twice, and a `Push` fails only when the ring is full of positions claimed
and not released. -/
structure Delivers : Prop where
  popped : s.popped = (s.claimed.take s.popped.length).map fun e => (some e.handle, some e.status)
  returned : ∀ r ∈ s.returned, s.claimed[r.1]? = some r.2
  once : (s.returned.map Prod.fst).Nodup
  intact : ∀ r ∈ s.returned, s.popped.length ≤ r.1 →
    (s.queue.cell r.1).handle = some r.2.handle ∧ (s.queue.cell r.1).status = some r.2.status
  rejected : ∀ n ∈ s.rejections, n = s.queue.cells

end QueueThreads

end SurfaceAi.Runtime
