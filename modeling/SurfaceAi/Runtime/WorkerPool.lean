import SurfaceAi.Core.Error
import SurfaceAi.Library.Transition
import Mathlib.Data.List.Nodup
import Mathlib.Logic.Function.Basic

/-! The worker pool: a bounded queue of coroutine handles, the worker loops that take from it
and resume, and the destructor that stops and joins one worker after another while the others,
and the work they run, go on. A step is one critical section of the queue's lock. -/

namespace SurfaceAi.Runtime

/-- A handle in the queue, with the number of the call that brought it. -/
structure PoolEntry (H : Type*) where
  call : ℕ
  handle : H

/-- Where `WorkerLoop` is. In `waiting` it evaluates the condition next, in `blocked` it has found
no work and sleeps. In `taken` a handle is popped and not resumed yet. -/
inductive WorkerPhase (H : Type*) where
  | waiting
  | blocked
  | taken (entry : PoolEntry H)
  | running (entry : PoolEntry H)
  | exited

inductive DestructorPhase (W : Type*) where
  | notBegun
  | betweenThreads
  | joining (w : W)
  | returned
  deriving DecidableEq

/-- Who calls `TryEnqueue`: the work that a worker runs, or somebody outside of the pool. -/
inductive PoolCaller (W : Type*) where
  | outside
  | work (w : W)

/-- A call of `TryEnqueue`. The pool owes a run to what it accepted before its destruction began
and to what it accepted from its own work. -/
structure EnqueueCall (H : Type*) where
  handle : H
  owed : Bool
  result : Result Unit

/-- A notification wakes the worker given, or nobody when nobody sleeps. -/
inductive PoolAction (H W : Type*) where
  | tryEnqueue (caller : PoolCaller W) (handle : H)
  | notify (woken : Option W)
  | wake (w : W)
  | wait (w : W)
  | resume (w : W)
  | finish (w : W)
  | destroy
  | requestStop (w : W)
  | join
  | destroyed

/-- The pool with its workers. Beside it stand the calls so far and the entries that were taken
and resumed, in order. -/
structure WorkerPool (H : Type*) (threadCount : ℕ) where
  queueCapacity : ℕ
  queue : List (PoolEntry H)
  notifications : ℕ
  worker : Fin threadCount → WorkerPhase H
  stop : Fin threadCount → Bool
  destructor : DestructorPhase (Fin threadCount)
  calls : List (EnqueueCall H)
  taken : List (PoolEntry H)
  resumed : List (PoolEntry H)

namespace WorkerPool

variable {H : Type*} {threadCount : ℕ}

def start (queueCapacity : ℕ) : WorkerPool H threadCount where
  queueCapacity := queueCapacity
  queue := []
  notifications := 0
  worker _ := .waiting
  stop _ := false
  destructor := .notBegun
  calls := []
  taken := []
  resumed := []

variable (s : WorkerPool H threadCount)

def pendingCount : ℕ := s.queue.length

/-- The handle goes into the queue, and one notification is due. -/
def tryEnqueue (handle : H) : Result Unit × WorkerPool H threadCount :=
  if s.queueCapacity ≤ s.queue.length then
    (fail .runtimeQueueFull "worker pool queue is at capacity", s)
  else
    (.ok (), { s with
      queue := s.queue ++ [⟨s.calls.length, handle⟩]
      notifications := s.notifications + 1 })

def setWorker (w : Fin threadCount) (phase : WorkerPhase H) : WorkerPool H threadCount :=
  { s with worker := Function.update s.worker w phase }

def isBlocked (w : Fin threadCount) : Bool :=
  match s.worker w with
  | .blocked => true
  | _ => false

/-- Somebody outside can call while the pool is there, work while it runs. -/
def canCall : PoolCaller (Fin threadCount) → Bool
  | .outside => s.destructor ≠ .returned
  | .work w =>
    match s.worker w with
    | .running _ => true
    | _ => false

def owes : PoolCaller (Fin threadCount) → Bool
  | .outside => s.destructor = .notBegun
  | .work _ => true

/-- A sleeping worker wakes up; the others do not notice. -/
def wake (w : Fin threadCount) : WorkerPool H threadCount :=
  if s.isBlocked w then s.setWorker w .waiting else s

/-- The wait with a stop token: work in the queue comes first, then the stop. -/
def wait (w : Fin threadCount) : WorkerPool H threadCount :=
  match s.queue with
  | entry :: rest =>
    { s with queue := rest, taken := s.taken ++ [entry] }.setWorker w (.taken entry)
  | [] => if s.stop w then s.setWorker w .exited else s.setWorker w .blocked

def step : PoolAction H (Fin threadCount) → Option (WorkerPool H threadCount)
  | .tryEnqueue caller handle =>
    if s.canCall caller then
      let r := s.tryEnqueue handle
      some { r.2 with calls := s.calls ++ [⟨handle, s.owes caller, r.1⟩] }
    else none
  | .notify woken =>
    if s.notifications = 0 then none
    else
      let s' := { s with notifications := s.notifications - 1 }
      match woken with
      | some w => if s.isBlocked w then some (s'.wake w) else none
      | none => if ∀ w, s.isBlocked w = false then some s' else none
  | .wake w => if s.isBlocked w then some (s.wake w) else none
  | .wait w =>
    match s.worker w with
    | .waiting => some (s.wait w)
    | _ => none
  | .resume w =>
    match s.worker w with
    | .taken entry =>
      some ({ s with resumed := s.resumed ++ [entry] }.setWorker w (.running entry))
    | _ => none
  | .finish w =>
    match s.worker w with
    | .running _ => some (s.setWorker w .waiting)
    | _ => none
  | .destroy =>
    match s.destructor with
    | .notBegun => some { s with destructor := .betweenThreads }
    | _ => none
  | .requestStop w =>
    match s.destructor with
    | .betweenThreads =>
      if s.stop w then none
      else some { s.wake w with
        stop := Function.update s.stop w true
        destructor := .joining w }
    | _ => none
  | .join =>
    match s.destructor with
    | .joining w =>
      match s.worker w with
      | .exited => some { s with destructor := .betweenThreads }
      | _ => none
    | _ => none
  | .destroyed =>
    match s.destructor with
    | .betweenThreads =>
      if ∀ w, s.stop w = true then some { s with destructor := .returned } else none
    | _ => none

/-- The entry of a call that was accepted. -/
def entryOf (call : EnqueueCall H × ℕ) : Option (PoolEntry H) :=
  match call.1.result with
  | .ok () => some ⟨call.2, call.1.handle⟩
  | .error _ => none

/-- What was accepted, in order. -/
def accepted : List (PoolEntry H) := s.calls.zipIdx.filterMap entryOf

/-- The pool runs what it accepts: the queue is within its bound and entries are taken in the
order in which they were accepted; no entry is resumed twice, and none that was rejected; when
the destructor has returned, everything owed was resumed once. -/
structure RunsAccepted : Prop where
  bounded : s.pendingCount ≤ s.queueCapacity
  order : s.taken ++ s.queue = s.accepted
  once : (s.resumed.map PoolEntry.call).Nodup
  resumed : ∀ e ∈ s.resumed, ∃ call, s.calls[e.call]? = some call ∧ call.result = .ok () ∧
    call.handle = e.handle
  complete : s.destructor = .returned → ∀ (i : ℕ) call, s.calls[i]? = some call →
    call.result = .ok () → call.owed = true → (s.resumed.map PoolEntry.call).count i = 1

/-! ### What was accepted -/

variable {s s' : WorkerPool H threadCount}

theorem mem_accepted {e : PoolEntry H} : e ∈ s.accepted ↔
    ∃ call, s.calls[e.call]? = some call ∧ call.result = .ok () ∧ call.handle = e.handle := by
  rw [accepted, List.mem_filterMap]
  constructor
  · rintro ⟨⟨call, i⟩, hmem, hentry⟩
    rw [List.mem_zipIdx_iff_getElem?] at hmem
    cases hresult : call.result with
    | error e => simp [entryOf, hresult] at hentry
    | ok u =>
      simp only [entryOf, hresult, Option.some.injEq] at hentry
      obtain rfl := hentry
      exact ⟨call, hmem, hresult, rfl⟩
  · rintro ⟨call, hcall, hresult, hhandle⟩
    refine ⟨(call, e.call), ?_, ?_⟩
    · rwa [List.mem_zipIdx_iff_getElem?]
    · simp only [entryOf, hresult, hhandle]

/-- Every call has an entry of its own. -/
theorem accepted_nodup : (s.accepted.map PoolEntry.call).Nodup := by
  have hcalls : (s.calls.zipIdx.map Prod.snd).Nodup := by
    rw [List.zipIdx_map_snd]
    exact List.nodup_range'
  rw [List.Nodup, List.pairwise_map] at hcalls ⊢
  rw [accepted, List.pairwise_filterMap]
  refine hcalls.imp fun {a b} hne e he e' he' => ?_
  have hcall : ∀ {a : EnqueueCall H × ℕ} {e}, entryOf a = some e → e.call = a.2 := by
    intro a e hentry
    simp only [entryOf] at hentry
    split at hentry
    · rw [← Option.some.inj hentry]
    · cases hentry
  rwa [hcall he, hcall he']

theorem accepted_log (call : EnqueueCall H) :
    ({ s with calls := s.calls ++ [call] } : WorkerPool H threadCount).accepted =
      s.accepted ++ (entryOf (call, s.calls.length)).toList := by
  rw [accepted, List.zipIdx_append, List.filterMap_append]
  cases hentry : entryOf (call, s.calls.length) <;> simp [accepted, hentry]

/-! ### What the workers hold -/

/-- The entries that were taken are resumed or in the hands of one worker each. -/
structure Conserved (s : WorkerPool H threadCount) : Prop where
  bounded : s.pendingCount ≤ s.queueCapacity
  order : s.taken ++ s.queue = s.accepted
  resumed : s.resumed ⊆ s.taken
  once : (s.resumed.map PoolEntry.call).Nodup
  held : ∀ w e, s.worker w = .taken e → e ∈ s.taken ∧ e.call ∉ s.resumed.map PoolEntry.call
  holder : ∀ w w' e e', s.worker w = .taken e → s.worker w' = .taken e' → e.call = e'.call → w = w'
  missing : ∀ e ∈ s.taken, e ∈ s.resumed ∨ ∃ w, s.worker w = .taken e

/-- The workers that were stopped have left, but for the one that is waited for. Whatever is left
when they all have was accepted from outside after the destruction began. -/
structure Stopped (s : WorkerPool H threadCount) : Prop where
  exited : ∀ w, s.worker w = .exited → s.stop w = true
  begun : ∀ w, s.stop w = true → s.destructor ≠ .notBegun
  joined : ∀ w, s.stop w = true → s.worker w = .exited ∨ s.destructor = .joining w
  awake : ∀ w, s.stop w = true → s.worker w ≠ .blocked
  returned : s.destructor = .returned → ∀ w, s.stop w = true
  joining : ∀ w, s.destructor = .joining w → s.stop w = true
  owed : (∀ w, s.worker w = .exited) → ∀ e ∈ s.queue, ∀ call, s.calls[e.call]? = some call →
    call.owed = false

theorem conserved_start {queueCapacity : ℕ} :
    (start queueCapacity : WorkerPool H threadCount).Conserved where
  bounded := Nat.zero_le _
  order := rfl
  resumed := List.Subset.refl _
  once := List.nodup_nil
  held _ _ h := by cases h
  holder _ _ _ _ h := by cases h
  missing _ h := by cases h

theorem stopped_start {queueCapacity : ℕ} :
    (start queueCapacity : WorkerPool H threadCount).Stopped where
  exited _ h := by cases h
  begun _ h := by cases h
  joined _ h := by cases h
  awake _ h := by cases h
  returned h := by cases h
  joining _ h := by cases h
  owed _ _ h := by cases h

section Phases

variable {w : Fin threadCount} {phase : WorkerPhase H}

@[simp] theorem setWorker_worker_self : (s.setWorker w phase).worker w = phase :=
  Function.update_self ..

theorem setWorker_worker_ne {w' : Fin threadCount} (h : w' ≠ w) :
    (s.setWorker w phase).worker w' = s.worker w' := Function.update_of_ne h ..

/-- A worker goes on with nothing in its hands. -/
theorem Conserved.setWorker (h : s.Conserved) (hold : ∀ e, s.worker w ≠ .taken e)
    (hnew : ∀ e, phase ≠ .taken e) : (s.setWorker w phase).Conserved := by
  have htaken : ∀ w' e, (s.setWorker w phase).worker w' = .taken e ↔ s.worker w' = .taken e := by
    intro w' e
    by_cases hw : w' = w
    · rw [hw, setWorker_worker_self]
      exact ⟨fun hp => absurd hp (hnew e), fun hp => absurd hp (hold e)⟩
    · rw [setWorker_worker_ne hw]
  refine ⟨h.bounded, h.order, h.resumed, h.once, fun w' e hw => ?_, fun w' w'' e e' hw hw' => ?_,
    fun e he => ?_⟩
  · exact h.held w' e ((htaken w' e).mp hw)
  · exact h.holder w' w'' e e' ((htaken w' e).mp hw) ((htaken w'' e').mp hw')
  · rcases h.missing e he with hresumed | ⟨w', hw⟩
    · exact .inl hresumed
    · exact .inr ⟨w', (htaken w' e).mpr hw⟩

/-- A worker that stays. -/
theorem Stopped.setWorker (h : s.Stopped) (hold : s.worker w ≠ .exited) (hnew : phase ≠ .exited)
    (hblocked : s.stop w = true → phase ≠ .blocked) : (s.setWorker w phase).Stopped := by
  refine ⟨fun w' hw => ?_, h.begun, fun w' hstop => ?_, fun w' hstop => ?_, h.returned,
    h.joining, fun hall => ?_⟩
  · by_cases hne : w' = w
    · rw [hne, setWorker_worker_self] at hw
      exact absurd hw hnew
    · rw [setWorker_worker_ne hne] at hw
      exact h.exited w' hw
  · by_cases hne : w' = w
    · rw [hne] at hstop ⊢
      exact .inr ((h.joined w hstop).resolve_left hold)
    · rw [setWorker_worker_ne hne]
      exact h.joined w' hstop
  · by_cases hne : w' = w
    · rw [hne] at hstop ⊢
      rw [setWorker_worker_self]
      exact hblocked hstop
    · rw [setWorker_worker_ne hne]
      exact h.awake w' hstop
  · have hw := hall w
    rw [setWorker_worker_self] at hw
    exact absurd hw hnew

theorem isBlocked_iff : s.isBlocked w = true ↔ s.worker w = .blocked := by
  rw [isBlocked]
  cases s.worker w <;> simp

theorem wake_conserved (h : s.Conserved) : (s.wake w).Conserved := by
  rw [wake]
  split_ifs with hblocked
  · exact h.setWorker (by simp [isBlocked_iff.mp hblocked]) (by simp)
  · exact h

theorem wake_stopped (h : s.Stopped) : (s.wake w).Stopped := by
  rw [wake]
  split_ifs with hblocked
  · exact h.setWorker (by simp [isBlocked_iff.mp hblocked]) (by simp) (by simp)
  · exact h

/-- Waking changes only what a worker does. -/
theorem wake_eq : s.wake w = { s with worker := (s.wake w).worker } := by
  rw [wake]
  split_ifs <;> rfl

theorem wake_worker_self : (s.wake w).worker w ≠ .blocked := by
  rw [wake]
  split_ifs with hblocked
  · simp
  · exact fun h => hblocked (isBlocked_iff.mpr h)

end Phases

section Steps

variable {w : Fin threadCount}

/-- The wait finds an entry. -/
theorem Conserved.take (h : s.Conserved) {entry : PoolEntry H} {rest : List (PoolEntry H)}
    (hqueue : s.queue = entry :: rest) (hold : ∀ e, s.worker w ≠ .taken e) :
    ({ s with queue := rest, taken := s.taken ++ [entry] }.setWorker w
      (.taken entry)).Conserved := by
  have hnodup := s.accepted_nodup
  rw [← h.order, hqueue, List.map_append, List.map_cons, List.nodup_append] at hnodup
  have hnew : ∀ e ∈ s.taken, e.call ≠ entry.call := fun e he =>
    hnodup.2.2 _ (List.mem_map_of_mem he) _ List.mem_cons_self
  refine ⟨?_, ?_, fun e he => List.mem_append_left _ (h.resumed he), h.once, fun w' e hw => ?_,
    fun w' w'' e e' hw hw' hcall => ?_, fun e he => ?_⟩
  · have hbounded := h.bounded
    rw [pendingCount, hqueue, List.length_cons] at hbounded
    show rest.length ≤ s.queueCapacity
    omega
  · show (s.taken ++ [entry]) ++ rest = s.accepted
    rw [← h.order, hqueue, List.append_assoc, List.singleton_append]
  · by_cases hne : w' = w
    · rw [hne, setWorker_worker_self] at hw
      obtain rfl := WorkerPhase.taken.inj hw
      refine ⟨List.mem_append_right _ (List.mem_singleton_self _), fun hmem => ?_⟩
      obtain ⟨e, he, hcall⟩ := List.mem_map.mp hmem
      exact hnew e (h.resumed he) hcall
    · rw [setWorker_worker_ne hne] at hw
      exact ⟨List.mem_append_left _ (h.held w' e hw).1, (h.held w' e hw).2⟩
  · by_cases hne : w' = w
    · by_cases hne' : w'' = w
      · rw [hne, hne']
      · rw [hne, setWorker_worker_self] at hw
        rw [setWorker_worker_ne hne'] at hw'
        obtain rfl := WorkerPhase.taken.inj hw
        exact absurd hcall.symm (hnew e' (h.held w'' e' hw').1)
    · rw [setWorker_worker_ne hne] at hw
      by_cases hne' : w'' = w
      · rw [hne', setWorker_worker_self] at hw'
        obtain rfl := WorkerPhase.taken.inj hw'
        exact absurd hcall (hnew e (h.held w' e hw).1)
      · rw [setWorker_worker_ne hne'] at hw'
        exact h.holder w' w'' e e' hw hw' hcall
  · rcases List.mem_append.mp he with htaken | hentry
    · rcases h.missing e htaken with hresumed | ⟨w', hw⟩
      · exact .inl hresumed
      · have hne : w' ≠ w := fun hne => hold e (hne ▸ hw)
        exact .inr ⟨w', (setWorker_worker_ne hne).trans hw⟩
    · obtain rfl := List.mem_singleton.mp hentry
      exact .inr ⟨w, setWorker_worker_self⟩

/-- The worker resumes what it took. -/
theorem Conserved.resume (h : s.Conserved) {entry : PoolEntry H}
    (hw : s.worker w = .taken entry) :
    ({ s with resumed := s.resumed ++ [entry] }.setWorker w (.running entry)).Conserved := by
  obtain ⟨hmem, hfresh⟩ := h.held w entry hw
  refine ⟨h.bounded, h.order, fun e he => ?_, ?_, fun w' e hw' => ?_,
    fun w' w'' e e' hw' hw'' => ?_, fun e he => ?_⟩
  · rcases List.mem_append.mp he with hold | hentry
    · exact h.resumed hold
    · rwa [List.mem_singleton.mp hentry]
  · show ((s.resumed ++ [entry]).map PoolEntry.call).Nodup
    rw [List.map_append, List.map_singleton, List.nodup_append]
    refine ⟨h.once, List.nodup_singleton _, fun a ha b hb hab => hfresh ?_⟩
    rwa [← List.mem_singleton.mp hb, ← hab]
  · have hne : w' ≠ w := by
      rintro rfl
      rw [setWorker_worker_self] at hw'
      cases hw'
    rw [setWorker_worker_ne hne] at hw'
    refine ⟨(h.held w' e hw').1, fun hcall => ?_⟩
    have hcall : e.call ∈ (s.resumed ++ [entry]).map PoolEntry.call := hcall
    rw [List.map_append, List.map_singleton, List.mem_append, List.mem_singleton] at hcall
    exact hcall.elim (h.held w' e hw').2 fun hcall => hne (h.holder w' w e entry hw' hw hcall)
  · have hne : ∀ {v e}, ({ s with resumed := s.resumed ++ [entry] }.setWorker w
        (.running entry)).worker v = .taken e → v ≠ w := by
      rintro v e hv rfl
      rw [setWorker_worker_self] at hv
      cases hv
    have hw₁ := hne hw'
    have hw₂ := hne hw''
    rw [setWorker_worker_ne hw₁] at hw'
    rw [setWorker_worker_ne hw₂] at hw''
    exact h.holder w' w'' e e' hw' hw''
  · rcases h.missing e he with hresumed | ⟨w', hw'⟩
    · exact .inl (List.mem_append_left _ hresumed)
    · by_cases hne : w' = w
      · rw [hne, hw] at hw'
        obtain rfl := WorkerPhase.taken.inj hw'
        exact .inl (List.mem_append_right _ (List.mem_singleton_self _))
      · exact .inr ⟨w', (setWorker_worker_ne hne).trans hw'⟩

/-- The wait ends with nothing to do. -/
theorem Stopped.exit (h : s.Stopped) (hqueue : s.queue = []) (hstop : s.stop w = true) :
    (s.setWorker w .exited).Stopped := by
  refine ⟨fun w' hw => ?_, h.begun, fun w' hstop' => ?_, fun w' hstop' => ?_, h.returned,
    h.joining, fun _ e he => ?_⟩
  · by_cases hne : w' = w
    · rwa [hne]
    · rw [setWorker_worker_ne hne] at hw
      exact h.exited w' hw
  · by_cases hne : w' = w
    · rw [hne, setWorker_worker_self]
      exact .inl rfl
    · rw [setWorker_worker_ne hne]
      exact h.joined w' hstop'
  · by_cases hne : w' = w
    · rw [hne, setWorker_worker_self]
      simp
    · rw [setWorker_worker_ne hne]
      exact h.awake w' hstop'
  · have he : e ∈ s.queue := he
    rw [hqueue] at he
    cases he

/-- The call of an entry in the queue. -/
theorem Conserved.call_of_queue (h : s.Conserved) {e : PoolEntry H} (he : e ∈ s.queue) :
    e.call < s.calls.length := by
  have hmem : e ∈ s.accepted := h.order ▸ List.mem_append_right _ he
  obtain ⟨call, hcall, -⟩ := mem_accepted.mp hmem
  exact (List.getElem?_eq_some_iff.mp hcall).1

/-- A call is logged. -/
theorem step_tryEnqueue (hpos : 0 < threadCount) (h : s.Conserved) (hs : s.Stopped)
    {caller : PoolCaller (Fin threadCount)} (hcall : s.canCall caller = true) (handle : H) :
    ({ (s.tryEnqueue handle).2 with
      calls := s.calls ++ [⟨handle, s.owes caller, (s.tryEnqueue handle).1⟩] } :
        WorkerPool H threadCount).Conserved ∧
    ({ (s.tryEnqueue handle).2 with
      calls := s.calls ++ [⟨handle, s.owes caller, (s.tryEnqueue handle).1⟩] } :
        WorkerPool H threadCount).Stopped := by
  rw [tryEnqueue]
  split_ifs with hfull
  · refine ⟨⟨h.bounded, ?_, h.resumed, h.once, h.held, h.holder, h.missing⟩,
      hs.exited, hs.begun, hs.joined, hs.awake, hs.returned, hs.joining,
      fun hall e he call hat => ?_⟩
    · rw [accepted_log]
      exact h.order.trans (List.append_nil _).symm
    · have hat : (s.calls ++ [_])[e.call]? = some call := hat
      rw [List.getElem?_append_left (h.call_of_queue he)] at hat
      exact hs.owed hall e he call hat
  · refine ⟨⟨?_, ?_, h.resumed, h.once, h.held, h.holder, h.missing⟩,
      hs.exited, hs.begun, hs.joined, hs.awake, hs.returned, hs.joining,
      fun hall e he call hat => ?_⟩
    · show (s.queue ++ [_]).length ≤ s.queueCapacity
      rw [List.length_append, List.length_singleton]
      omega
    · rw [accepted_log]
      show s.taken ++ (s.queue ++ [_]) = s.accepted ++ [_]
      rw [← h.order, List.append_assoc]
    · have hat : (s.calls ++ [_])[e.call]? = some call := hat
      rcases List.mem_append.mp he with hold | hnew
      · rw [List.getElem?_append_left (h.call_of_queue hold)] at hat
        exact hs.owed hall e hold call hat
      · -- nobody is left who could bring an entry that is owed
        obtain rfl := List.mem_singleton.mp hnew
        rw [List.getElem?_concat_length] at hat
        obtain rfl := Option.some.inj hat
        cases caller with
        | outside =>
          have hexited : s.worker ⟨0, hpos⟩ = .exited := hall ⟨0, hpos⟩
          exact decide_eq_false (hs.begun _ (hs.exited _ hexited))
        | work w =>
          have hexited : s.worker w = .exited := hall w
          rw [canCall, hexited] at hcall
          cases hcall

/-- The wait of a worker that has the lock. -/
theorem step_wait (h : s.Conserved) (hs : s.Stopped) (hw : s.worker w = .waiting) :
    (s.wait w).Conserved ∧ (s.wait w).Stopped := by
  have hnothing : ∀ e, s.worker w ≠ .taken e := by simp [hw]
  have hstays : s.worker w ≠ .exited := by simp [hw]
  rw [wait]
  split
  · rename_i entry rest hqueue
    have hrest : ({ s with queue := rest, taken := s.taken ++ [entry] } :
        WorkerPool H threadCount).Stopped :=
      ⟨hs.exited, hs.begun, hs.joined, hs.awake, hs.returned, hs.joining, fun hall e he =>
        hs.owed hall e (by rw [hqueue]; exact List.mem_cons_of_mem _ he)⟩
    exact ⟨h.take hqueue hnothing, hrest.setWorker hstays (by simp) (by simp)⟩
  · rename_i hqueue
    split_ifs with hstop
    · exact ⟨h.setWorker hnothing (by simp), hs.exit hqueue hstop⟩
    · exact ⟨h.setWorker hnothing (by simp),
        hs.setWorker hstays (by simp) fun hstop' => absurd hstop' hstop⟩

/-- The destructor goes on. -/
theorem Conserved.setDestructor (h : s.Conserved) (stop : Fin threadCount → Bool)
    (destructor : DestructorPhase (Fin threadCount)) :
    ({ s with stop := stop, destructor := destructor } : WorkerPool H threadCount).Conserved :=
  ⟨h.bounded, h.order, h.resumed, h.once, h.held, h.holder, h.missing⟩

/-- The destructor asks a worker to stop, and that wakes it up. -/
theorem Stopped.requestStop (h : s.Stopped) (hbetween : s.destructor = .betweenThreads) :
    ({ s.wake w with
      stop := Function.update s.stop w true
      destructor := .joining w } : WorkerPool H threadCount).Stopped := by
  have hwake := wake_stopped (w := w) h
  have hdestructor : (s.wake w).destructor = .betweenThreads := by
    rw [wake_eq]
    exact hbetween
  have hsame : (s.wake w).stop = s.stop := by rw [wake_eq]
  have hleft : ∀ w', s.stop w' = true → (s.wake w).worker w' = .exited := fun w' hstop =>
    (hwake.joined w' (hsame ▸ hstop)).resolve_right (by simp [hdestructor])
  have hother : ∀ {w'}, w' ≠ w → Function.update s.stop w true w' = s.stop w' :=
    fun hne => Function.update_of_ne hne ..
  refine ⟨fun w' hw' => ?_, fun w' _ => by simp, fun w' hstop => ?_, fun w' hstop => ?_,
    fun hreturned => (by cases hreturned), fun w' hjoining => ?_, hwake.owed⟩
  · show Function.update s.stop w true w' = true
    by_cases hne : w' = w
    · rw [hne, Function.update_self]
    · rw [hother hne, ← hsame]
      exact hwake.exited w' hw'
  · have hstop : Function.update s.stop w true w' = true := hstop
    by_cases hne : w' = w
    · exact .inr (by rw [hne])
    · rw [hother hne] at hstop
      exact .inl (hleft w' hstop)
  · have hstop : Function.update s.stop w true w' = true := hstop
    by_cases hne : w' = w
    · rw [hne]
      exact wake_worker_self
    · rw [hother hne] at hstop
      show (s.wake w).worker w' ≠ .blocked
      simp [hleft w' hstop]
  · obtain rfl : w = w' := DestructorPhase.joining.inj hjoining
    exact Function.update_self ..

theorem step_keeps (hpos : 0 < threadCount) (h : s.Conserved) (hs : s.Stopped)
    {action : PoolAction H (Fin threadCount)} (hstep : s.step action = some s') :
    s'.Conserved ∧ s'.Stopped := by
  cases action with
  | tryEnqueue caller handle =>
    obtain ⟨hcall, hstep⟩ := Option.ite_none_right_eq_some.mp hstep
    obtain rfl := Option.some.inj hstep
    exact step_tryEnqueue hpos h hs hcall handle
  | notify woken =>
    obtain ⟨-, hstep⟩ := Option.ite_none_left_eq_some.mp hstep
    have h' : ({ s with notifications := s.notifications - 1 } :
        WorkerPool H threadCount).Conserved :=
      ⟨h.bounded, h.order, h.resumed, h.once, h.held, h.holder, h.missing⟩
    have hs' : ({ s with notifications := s.notifications - 1 } :
        WorkerPool H threadCount).Stopped :=
      ⟨hs.exited, hs.begun, hs.joined, hs.awake, hs.returned, hs.joining, hs.owed⟩
    cases woken with
    | some w =>
      obtain ⟨-, hstep⟩ := Option.ite_none_right_eq_some.mp hstep
      obtain rfl := Option.some.inj hstep
      exact ⟨wake_conserved h', wake_stopped hs'⟩
    | none =>
      obtain ⟨-, hstep⟩ := Option.ite_none_right_eq_some.mp hstep
      obtain rfl := Option.some.inj hstep
      exact ⟨h', hs'⟩
  | wake w =>
    obtain ⟨-, hstep⟩ := Option.ite_none_right_eq_some.mp hstep
    obtain rfl := Option.some.inj hstep
    exact ⟨wake_conserved h, wake_stopped hs⟩
  | wait w =>
    simp only [step] at hstep
    split at hstep
    · rename_i hw
      obtain rfl := Option.some.inj hstep
      exact step_wait h hs hw
    · cases hstep
  | resume w =>
    simp only [step] at hstep
    split at hstep
    · rename_i entry hw
      obtain rfl := Option.some.inj hstep
      have hs' : ({ s with resumed := s.resumed ++ [entry] } : WorkerPool H threadCount).Stopped :=
        ⟨hs.exited, hs.begun, hs.joined, hs.awake, hs.returned, hs.joining, hs.owed⟩
      exact ⟨h.resume hw, hs'.setWorker (by simp [hw]) (by simp) (by simp)⟩
    · cases hstep
  | finish w =>
    simp only [step] at hstep
    split at hstep
    · rename_i entry hw
      obtain rfl := Option.some.inj hstep
      exact ⟨h.setWorker (by simp [hw]) (by simp),
        hs.setWorker (by simp [hw]) (by simp) (by simp)⟩
    · cases hstep
  | destroy =>
    simp only [step] at hstep
    split at hstep
    · rename_i hbegun
      obtain rfl := Option.some.inj hstep
      exact ⟨h.setDestructor _ _, hs.exited, fun w _ => by simp,
        fun w hstop => absurd hbegun (hs.begun w hstop), hs.awake,
        fun hreturned => (by cases hreturned), fun _ hjoining => (by cases hjoining), hs.owed⟩
    · cases hstep
  | requestStop w =>
    simp only [step] at hstep
    split at hstep
    · rename_i hbetween
      obtain ⟨-, hstep⟩ := Option.ite_none_left_eq_some.mp hstep
      obtain rfl := Option.some.inj hstep
      exact ⟨(wake_conserved h).setDestructor _ _, hs.requestStop hbetween⟩
    · cases hstep
  | join =>
    simp only [step] at hstep
    split at hstep
    · rename_i w hjoining
      split at hstep
      · rename_i hw
        obtain rfl := Option.some.inj hstep
        refine ⟨h.setDestructor _ _, hs.exited, fun w' _ => by simp, fun w' hstop => .inl ?_,
          hs.awake, fun hreturned => (by cases hreturned), fun _ hnext => (by cases hnext),
          hs.owed⟩
        rcases hs.joined w' hstop with hexited | hlast
        · exact hexited
        · obtain rfl := DestructorPhase.joining.inj (hjoining.symm.trans hlast)
          exact hw
      · cases hstep
    · cases hstep
  | destroyed =>
    simp only [step] at hstep
    split at hstep
    · rename_i hbetween
      obtain ⟨hall, hstep⟩ := Option.ite_none_right_eq_some.mp hstep
      obtain rfl := Option.some.inj hstep
      refine ⟨h.setDestructor _ _, hs.exited, fun w _ => by simp, fun w hstop => .inl ?_,
        hs.awake, fun _ => hall, fun w _ => hall w, hs.owed⟩
      exact (hs.joined w hstop).resolve_right (by simp [hbetween])
    · cases hstep

/-- The pool is never stuck in its destructor: the worker that is waited for can go on, or the
destructor can. -/
theorem exists_step_of_destructor (hs : s.Stopped) (hbegun : s.destructor ≠ .notBegun)
    (hreturned : s.destructor ≠ .returned) :
    ∃ action : PoolAction H (Fin threadCount),
      (∀ caller handle, action ≠ .tryEnqueue caller handle) ∧ (∀ w, action ≠ .wake w) ∧
        (s.step action).isSome = true := by
  cases hdestructor : s.destructor with
  | notBegun => exact absurd hdestructor hbegun
  | returned => exact absurd hdestructor hreturned
  | betweenThreads =>
    by_cases hall : ∀ w, s.stop w = true
    · exact ⟨.destroyed, by simp, by simp, by simp [step, hdestructor, hall]⟩
    · obtain ⟨w, hw⟩ := not_forall.mp hall
      exact ⟨.requestStop w, by simp, by simp, by simp [step, hdestructor, hw]⟩
  | joining w =>
    cases hw : s.worker w with
    | waiting => exact ⟨.wait w, by simp, by simp, by simp [step, hw]⟩
    | blocked => exact absurd hw (hs.awake w (hs.joining w hdestructor))
    | taken entry => exact ⟨.resume w, by simp, by simp, by simp [step, hw]⟩
    | running entry => exact ⟨.finish w, by simp, by simp, by simp [step, hw]⟩
    | exited => exact ⟨.join, by simp, by simp, by simp [step, hdestructor, hw]⟩

end Steps

theorem Conserved.runsAccepted (h : s.Conserved) (hs : s.Stopped) : s.RunsAccepted where
  bounded := h.bounded
  order := h.order
  once := h.once
  resumed e he := mem_accepted.mp (h.order ▸ List.mem_append_left _ (h.resumed he))
  complete hreturned i call hcall hresult howed := by
    have hexited : ∀ w, s.worker w = .exited := fun w =>
      (hs.joined w (hs.returned hreturned w)).resolve_right (by simp [hreturned])
    have haccepted : (⟨i, call.handle⟩ : PoolEntry H) ∈ s.taken ++ s.queue :=
      h.order ▸ mem_accepted.mpr ⟨call, hcall, hresult, rfl⟩
    rcases List.mem_append.mp haccepted with htaken | hqueue
    · rcases h.missing _ htaken with hresumed | ⟨w, hw⟩
      · exact List.count_eq_one_of_mem h.once (List.mem_map_of_mem hresumed)
      · rw [hexited w] at hw
        cases hw
    · rw [hs.owed hexited _ hqueue call hcall] at howed
      cases howed

/-- In every run of a pool with a worker, whatever was accepted before the destruction or from
the pool's work is resumed once before the destructor returns, in the order of acceptance and
within the bound, and nothing else is resumed. -/
theorem runs_accepted {queueCapacity : ℕ} (hpos : 0 < threadCount)
    {actions : List (PoolAction H (Fin threadCount))}
    (hrun : Transition.run step (start queueCapacity : WorkerPool H threadCount) actions = some s) :
    s.RunsAccepted := by
  have hinv : s.Conserved ∧ s.Stopped :=
    Transition.run_induction step (P := fun _ s => s.Conserved ∧ s.Stopped)
      ⟨conserved_start, stopped_start⟩ (fun _ _ _ _ h hstep => step_keeps hpos h.1 h.2 hstep) hrun
  exact hinv.1.runsAccepted hinv.2

/-- Two workers; the work of the second enqueues more work after the first has left. -/
def lateWork (first second : Fin 2) : List (PoolAction ℕ (Fin 2)) :=
  [.wait second, .tryEnqueue .outside 7, .tryEnqueue .outside 8, .notify (some second),
    .wait second, .resume second, .destroy, .requestStop first, .wait first, .join,
    .requestStop second, .tryEnqueue (.work second) 9, .tryEnqueue .outside 10, .notify none,
    .finish second, .wait second, .resume second, .finish second, .wait second, .join, .destroyed]

theorem runs_accepted_lateWork :
    ∃ s : WorkerPool ℕ 2, Transition.run step (start 1) (lateWork 0 1) = some s ∧
      s.destructor = .returned ∧ s.resumed.map PoolEntry.handle = [7, 9] ∧ s.RunsAccepted := by
  obtain ⟨s, hrun, hreturned, hresumed⟩ : ∃ s : WorkerPool ℕ 2,
      Transition.run step (start 1) (lateWork 0 1) = some s ∧ s.destructor = .returned ∧
        s.resumed.map PoolEntry.handle = [7, 9] := ⟨_, rfl, rfl, rfl⟩
  exact ⟨s, hrun, hreturned, hresumed, runs_accepted Nat.two_pos hrun⟩

end WorkerPool

end SurfaceAi.Runtime
