import SurfaceAi.Library.Transition
import Mathlib.Algebra.BigOperators.Fin
import Mathlib.Algebra.Order.BigOperators.Group.Finset

/-! How the worker threads of a stage count dropped frames. Each reads the queue's counter, moves
a tracker that all of them share up to what it read, and adds the way it moved it to the metric:
the way is known from the exchange that succeeds, so no two threads count the same drop. -/

namespace SurfaceAi.Pipeline

open Transition

/-- Where a worker is in its accumulation of the drop count. -/
inductive DropPhase where
  | elsewhere
  | counted (dc : ℕ)
  | loaded (dc prev : ℕ)
  | exchanged (dc prev : ℕ)
  deriving DecidableEq, Repr

/-- What a worker has moved the tracker by and not yet added. -/
def DropPhase.inFlight : DropPhase → ℕ
  | .exchanged dc prev => dc - prev
  | _ => 0

@[simp] theorem inFlight_elsewhere : DropPhase.elsewhere.inFlight = 0 := rfl

@[simp] theorem inFlight_counted (dc : ℕ) : (DropPhase.counted dc).inFlight = 0 := rfl

@[simp] theorem inFlight_loaded (dc prev : ℕ) : (DropPhase.loaded dc prev).inFlight = 0 := rfl

@[simp] theorem inFlight_exchanged (dc prev : ℕ) :
    (DropPhase.exchanged dc prev).inFlight = dc - prev := rfl

/-- The queue's counter, the tracker shared by the workers of the stage, the metric, and the
workers. -/
structure DropAccounting (ι : Type) where
  droppedCount : ℕ
  tracker : ℕ
  framesDropped : ℕ
  workers : ι → DropPhase

/-- A step of a worker, or of the queue's counter. A relaxed load, and the load of an exchange
that fails, give a value the counter or the tracker has had; an exchange may fail although the
tracker is the value expected. -/
inductive DropStep (ι : Type) where
  | drop (droppedCount : ℕ)
  | readDroppedCount (worker : ι) (value : ℕ)
  | loadTracker (worker : ι) (value : ℕ)
  | leaveLoop (worker : ι)
  | exchange (worker : ι)
  | exchangeFails (worker : ι) (value : ℕ)
  | addDelta (worker : ι)

namespace DropAccounting

variable {ι : Type} [DecidableEq ι]

/-- The workers of a stage as the first `Start` launches them: nothing is counted yet. -/
def launched (ι : Type) (droppedCount : ℕ) : DropAccounting ι :=
  ⟨droppedCount, 0, 0, fun _ => .elsewhere⟩

variable (s : DropAccounting ι)

def setWorker (worker : ι) (phase : DropPhase) : DropAccounting ι :=
  { s with workers := Function.update s.workers worker phase }

def step : DropStep ι → Option (DropAccounting ι)
  | .drop droppedCount =>
    if s.droppedCount ≤ droppedCount ∧ droppedCount < 2 ^ 64 then
      some { s with droppedCount := droppedCount }
    else none
  | .readDroppedCount worker value =>
    match s.workers worker with
    | .elsewhere => if value ≤ s.droppedCount then some (s.setWorker worker (.counted value)) else none
    | _ => none
  | .loadTracker worker value =>
    match s.workers worker with
    | .counted dc => if value ≤ s.tracker then some (s.setWorker worker (.loaded dc value)) else none
    | _ => none
  | .leaveLoop worker =>
    match s.workers worker with
    | .loaded dc prev => if dc > prev then none else some (s.setWorker worker .elsewhere)
    | _ => none
  | .exchange worker =>
    match s.workers worker with
    | .loaded dc prev =>
      if dc > prev ∧ s.tracker = prev then
        some { s.setWorker worker (.exchanged dc prev) with tracker := dc }
      else none
    | _ => none
  | .exchangeFails worker value =>
    match s.workers worker with
    | .loaded dc prev =>
      if dc > prev ∧ value ≤ s.tracker then some (s.setWorker worker (.loaded dc value)) else none
    | _ => none
  | .addDelta worker =>
    match s.workers worker with
    | .exchanged dc prev =>
      some { s.setWorker worker .elsewhere with
        framesDropped := (s.framesDropped + (dc - prev)) % 2 ^ 64 }
    | _ => none

/-- No worker is between a successful exchange and its addition. -/
def Settled : Prop := ∀ worker dc prev, s.workers worker ≠ .exchanged dc prev

section Invariant

/-- The worker has read no more than the counter shows. -/
def Behind (droppedCount : ℕ) : DropPhase → Prop
  | .elsewhere => True
  | .counted dc => dc ≤ droppedCount
  | .loaded dc _ => dc ≤ droppedCount
  | .exchanged dc _ => dc ≤ droppedCount

theorem Behind.mono {d d' : ℕ} (h : d ≤ d') : ∀ {phase : DropPhase}, Behind d phase → Behind d' phase
  | .elsewhere, _ => trivial
  | .counted _, hb => Nat.le_trans hb h
  | .loaded _ _, hb => Nat.le_trans hb h
  | .exchanged _ _, hb => Nat.le_trans hb h

variable [Fintype ι] {s}

/-- The tracker is what was added and what is still to be added. -/
structure Accounted (s : DropAccounting ι) : Prop where
  bound : s.droppedCount < 2 ^ 64
  tracked : s.tracker ≤ s.droppedCount
  sum_eq : s.framesDropped + ∑ w, (s.workers w).inFlight = s.tracker
  behind : ∀ w, Behind s.droppedCount (s.workers w)

/-- Moving one worker changes the sum by what that worker has in flight. -/
theorem sum_inFlight_setWorker (s : DropAccounting ι) (worker : ι) (phase : DropPhase) :
    ∑ w, ((s.setWorker worker phase).workers w).inFlight + (s.workers worker).inFlight =
      ∑ w, (s.workers w).inFlight + phase.inFlight := by
  have hupdate : (fun w => ((s.setWorker worker phase).workers w).inFlight) =
      Function.update (fun w => (s.workers w).inFlight) worker phase.inFlight := by
    funext w
    rcases eq_or_ne w worker with rfl | hne
    · simp [setWorker]
    · simp [setWorker, Function.update_of_ne hne]
  rw [hupdate, Finset.sum_update_of_mem (Finset.mem_univ worker),
    ← Finset.add_sum_erase _ _ (Finset.mem_univ worker), Finset.sdiff_singleton_eq_erase]
  omega

omit [Fintype ι] in
theorem behind_setWorker (h : ∀ w, Behind s.droppedCount (s.workers w)) {worker : ι}
    {phase : DropPhase} (hphase : Behind s.droppedCount phase) (w : ι) :
    Behind s.droppedCount ((s.setWorker worker phase).workers w) := by
  rcases eq_or_ne w worker with rfl | hne
  · simpa [setWorker] using hphase
  · simpa [setWorker, Function.update_of_ne hne] using h w

/-- A step of a worker that has nothing in flight before it or after it. -/
theorem Accounted.setWorker (h : Accounted s) {worker : ι} {phase : DropPhase}
    (hbefore : (s.workers worker).inFlight = 0) (hafter : phase.inFlight = 0)
    (hphase : Behind s.droppedCount phase) : Accounted (s.setWorker worker phase) where
  bound := h.bound
  tracked := h.tracked
  sum_eq := by
    have hsum := sum_inFlight_setWorker s worker phase
    have hold := h.sum_eq
    change s.framesDropped + _ = s.tracker
    omega
  behind := behind_setWorker h.behind hphase

/-- The tracker moves by what the worker that moved it has in flight from then on. -/
theorem Accounted.exchange (h : Accounted s) {worker : ι} {dc prev : ℕ}
    (hphase : s.workers worker = .loaded dc prev) (hlt : prev < dc) (htracker : s.tracker = prev) :
    Accounted { s.setWorker worker (.exchanged dc prev) with tracker := dc } := by
  have hdc : dc ≤ s.droppedCount := by simpa [hphase, Behind] using h.behind worker
  refine ⟨h.bound, hdc, ?_, behind_setWorker h.behind hdc⟩
  have hsum := sum_inFlight_setWorker s worker (.exchanged dc prev)
  have hold := h.sum_eq
  rw [hphase] at hsum
  change s.framesDropped + ∑ w, ((s.setWorker worker (.exchanged dc prev)).workers w).inFlight = dc
  rw [inFlight_loaded, inFlight_exchanged] at hsum
  omega

/-- What was in flight is added, and the addition does not wrap around. -/
theorem Accounted.addDelta (h : Accounted s) {worker : ι} {dc prev : ℕ}
    (hphase : s.workers worker = .exchanged dc prev) :
    Accounted { s.setWorker worker .elsewhere with
      framesDropped := (s.framesDropped + (dc - prev)) % 2 ^ 64 } := by
  refine ⟨h.bound, h.tracked, ?_, behind_setWorker h.behind trivial⟩
  have hsum := sum_inFlight_setWorker s worker .elsewhere
  have hold := h.sum_eq
  have htracked := h.tracked
  have hbound := h.bound
  rw [hphase] at hsum
  rw [inFlight_exchanged, inFlight_elsewhere] at hsum
  change (s.framesDropped + (dc - prev)) % 2 ^ 64 +
    ∑ w, ((s.setWorker worker .elsewhere).workers w).inFlight = s.tracker
  rw [Nat.mod_eq_of_lt (by omega)]
  omega

theorem Accounted.step {s' : DropAccounting ι} (h : Accounted s) (a : DropStep ι)
    (hstep : s.step a = some s') : Accounted s' := by
  cases a with
  | drop droppedCount =>
    obtain ⟨⟨hle, hlt⟩, heq⟩ := Option.ite_none_right_eq_some.mp hstep
    obtain rfl := Option.some.inj heq
    exact ⟨hlt, h.tracked.trans hle, h.sum_eq, fun w => (h.behind w).mono hle⟩
  | readDroppedCount worker value =>
    simp only [DropAccounting.step] at hstep
    split at hstep
    next hphase =>
      obtain ⟨hle, heq⟩ := Option.ite_none_right_eq_some.mp hstep
      obtain rfl := Option.some.inj heq
      exact h.setWorker (by simp [hphase]) rfl hle
    next => cases hstep
  | loadTracker worker value =>
    simp only [DropAccounting.step] at hstep
    split at hstep
    next dc hphase =>
      obtain ⟨-, heq⟩ := Option.ite_none_right_eq_some.mp hstep
      obtain rfl := Option.some.inj heq
      have hdc : dc ≤ s.droppedCount := by simpa [hphase, Behind] using h.behind worker
      exact h.setWorker (by simp [hphase]) rfl hdc
    next => cases hstep
  | leaveLoop worker =>
    simp only [DropAccounting.step] at hstep
    split at hstep
    next dc prev hphase =>
      obtain ⟨-, heq⟩ := Option.ite_none_left_eq_some.mp hstep
      obtain rfl := Option.some.inj heq
      exact h.setWorker (by simp [hphase]) rfl trivial
    next => cases hstep
  | exchange worker =>
    simp only [DropAccounting.step] at hstep
    split at hstep
    next dc prev hphase =>
      obtain ⟨⟨hlt, htracker⟩, heq⟩ := Option.ite_none_right_eq_some.mp hstep
      obtain rfl := Option.some.inj heq
      exact h.exchange hphase hlt htracker
    next => cases hstep
  | exchangeFails worker value =>
    simp only [DropAccounting.step] at hstep
    split at hstep
    next dc prev hphase =>
      obtain ⟨-, heq⟩ := Option.ite_none_right_eq_some.mp hstep
      obtain rfl := Option.some.inj heq
      have hdc : dc ≤ s.droppedCount := by simpa [hphase, Behind] using h.behind worker
      exact h.setWorker (by simp [hphase]) rfl hdc
    next => cases hstep
  | addDelta worker =>
    simp only [DropAccounting.step] at hstep
    split at hstep
    next dc prev hphase =>
      obtain rfl := Option.some.inj hstep
      exact h.addDelta hphase
    next => cases hstep

theorem Accounted.run {steps : List (DropStep ι)} {droppedCount : ℕ}
    (hbound : droppedCount < 2 ^ 64)
    (hrun : run DropAccounting.step (launched ι droppedCount) steps = some s) : Accounted s := by
  refine run_induction DropAccounting.step (P := fun _ s => Accounted s) ?_ ?_ hrun
  · exact ⟨hbound, Nat.zero_le _, by simp [launched], fun _ => trivial⟩
  · exact fun _ s a s' h hstep => h.step a hstep

end Invariant

/-- Whenever no worker is between an exchange and its addition, the metric is the tracker, and it
never exceeds what the queue has dropped. -/
theorem framesDropped_counted_once [Fintype ι] (droppedCount : ℕ)
    (hbound : droppedCount < 2 ^ 64) (steps : List (DropStep ι)) (s : DropAccounting ι)
    (hrun : run step (launched ι droppedCount) steps = some s) :
    (s.Settled → s.framesDropped = s.tracker) ∧ s.framesDropped ≤ s.tracker ∧
      s.tracker ≤ s.droppedCount := by
  have h := Accounted.run hbound hrun
  have hsum := h.sum_eq
  refine ⟨fun hsettled => ?_, by omega, h.tracked⟩
  have hnone : ∑ w, (s.workers w).inFlight = 0 := by
    refine Finset.sum_eq_zero fun w _ => ?_
    cases hphase : s.workers w with
    | exchanged dc prev => exact absurd hphase (hsettled w dc prev)
    | elsewhere => rfl
    | counted dc => rfl
    | loaded dc prev => rfl
  omega

/-- Two workers see the same three drops; the exchange of the second fails, and it leaves. -/
def sharedDrops : List (DropStep Bool) :=
  [.drop 3, .readDroppedCount false 3, .readDroppedCount true 3, .loadTracker false 0,
    .loadTracker true 0, .exchangeFails false 0, .exchange false, .exchangeFails true 3,
    .leaveLoop true, .addDelta false]

theorem framesDropped_counted_once_shared :
    ∃ s, run step (launched Bool 0) sharedDrops = some s ∧ s.framesDropped = 3 ∧
      ((s.Settled → s.framesDropped = s.tracker) ∧ s.framesDropped ≤ s.tracker ∧
        s.tracker ≤ s.droppedCount) := by
  obtain ⟨s, hs⟩ : ∃ s, run step (launched Bool 0) sharedDrops = some s := ⟨_, rfl⟩
  have hthree : (run step (launched Bool 0) sharedDrops).map framesDropped = some 3 := by decide
  rw [hs] at hthree
  exact ⟨s, hs, Option.some.inj hthree, framesDropped_counted_once 0 (by decide) sharedDrops s hs⟩

end DropAccounting

end SurfaceAi.Pipeline
