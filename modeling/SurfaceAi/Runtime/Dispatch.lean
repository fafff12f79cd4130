import SurfaceAi.Library.Transition
import SurfaceAi.Runtime.TaskGraph

/-! `PipelineExecutor::Dispatch` with its threads: the dispatcher, the pool thread that runs the
wrapper `RunAndSignal` around the work, and the threads that resume the work after it suspended.
A frame is destroyed by hand, so who destroys it and who may still resume it is part of the
state. -/

namespace SurfaceAi.Runtime

/-- What a dispatch is given: the stop token, the answer of `Submit`, and work that suspends so
many times before it returns its result. -/
structure DispatchCall where
  stopRequested : Bool
  submitted : Result Unit
  suspensions : ℕ
  produces : Result Unit

namespace DispatchCall

variable (call : DispatchCall)

/-- The error of a dispatch that never runs the work. -/
def refusal : Option ErrorInfo :=
  if call.stopRequested then some ⟨.runtimeCancelled, "dispatch cancelled before submission"⟩
  else
    match call.submitted with
    | .error e => some e
    | .ok () => none

/-- What the caller is told: why the work did not run, or its own final result. -/
def reported : Result Unit :=
  match call.refusal with
  | some e => .error e
  | none => call.produces

/-- The work is refused, or it runs through without suspending. -/
def RunsThrough : Prop :=
  call.stopRequested = true ∨ (∃ e, call.submitted = .error e) ∨ call.suspensions = 0

end DispatchCall

/-- The frame of the work. When it is resumed it goes on to its next suspension, of which so many
are left, or to its end. -/
inductive WorkFrame where
  | suspended (left : ℕ)
  | done
  | destroyed
  deriving DecidableEq

/-- Where `Dispatch` is. -/
inductive DispatcherPhase where
  | checking
  | creating
  | submitting
  | destroyingWrapper (e : ErrorInfo)
  | destroyingWork (e : ErrorInfo)
  | waiting
  | returned (result : Option (Result Unit))

/-- Where the frame of `RunAndSignal` is: not there, not started, or at one of its lines. What it
took from the work is nothing where there was nothing to take. -/
inductive WrapperPhase where
  | absent
  | created
  | submitted
  | taking
  | destroyingWork (result : Option (Result Unit))
  | setting (result : Option (Result Unit))
  | returning
  | destroyed

structure CompletionState where
  ready : Bool
  result : Option (Result Unit)

inductive DispatchAction where
  | checkStop
  | createWrapper
  | submit
  | destroyWrapper
  | destroyWork
  | wait
  | poolResume
  | poolTake
  | poolDestroy
  | poolSet
  | poolReturn
  | resume

/-- The dispatch in progress. `resumerPending` is set while another thread is to resume the work.
Beside it stand how often the frames were made and destroyed, whether the result was taken before
there was one, and whether the work was resumed when it was done or destroyed. -/
structure DispatchRun where
  call : DispatchCall
  dispatcher : DispatcherPhase
  wrapper : WrapperPhase
  frame : WorkFrame
  result : Option (Result Unit)
  resumerPending : Bool
  state : CompletionState
  workDestroys : ℕ
  wrapperFrames : ℕ
  wrapperDestroys : ℕ
  readEarly : Bool
  resumedLate : Bool

namespace DispatchRun

def start (call : DispatchCall) : DispatchRun where
  call := call
  dispatcher := .checking
  wrapper := .absent
  frame := .suspended call.suspensions
  result := none
  resumerPending := false
  state := ⟨false, some (.ok ())⟩
  workDestroys := 0
  wrapperFrames := 0
  wrapperDestroys := 0
  readEarly := false
  resumedLate := false

variable (s : DispatchRun)

/-- `work.resume()`. -/
def resumeWork : DispatchRun :=
  match s.frame with
  | .suspended 0 => { s with frame := .done, result := some s.call.produces }
  | .suspended (left + 1) => { s with frame := .suspended left, resumerPending := true }
  | _ => { s with resumedLate := true }

/-- `work.destroy()`. -/
def destroyWork : DispatchRun :=
  { s with frame := .destroyed, workDestroys := s.workDestroys + 1 }

def destroyWrapper : DispatchRun :=
  { s with wrapper := .destroyed, wrapperDestroys := s.wrapperDestroys + 1 }

def step : DispatchAction → Option DispatchRun
  | .checkStop =>
    match s.dispatcher with
    | .checking =>
      if s.call.stopRequested then some { s with
        dispatcher :=
          .destroyingWork ⟨.runtimeCancelled, "dispatch cancelled before submission"⟩ }
      else some { s with dispatcher := .creating }
    | _ => none
  | .createWrapper =>
    match s.dispatcher with
    | .creating => some { s with
        dispatcher := .submitting
        wrapper := .created
        wrapperFrames := s.wrapperFrames + 1 }
    | _ => none
  | .submit =>
    match s.dispatcher with
    | .submitting =>
      match s.call.submitted with
      | .ok () => some { s with dispatcher := .waiting, wrapper := .submitted }
      | .error e => some { s with dispatcher := .destroyingWrapper e }
    | _ => none
  | .destroyWrapper =>
    match s.dispatcher with
    | .destroyingWrapper e => some { s.destroyWrapper with dispatcher := .destroyingWork e }
    | _ => none
  | .destroyWork =>
    match s.dispatcher with
    | .destroyingWork e => some { s.destroyWork with dispatcher := .returned (some (.error e)) }
    | _ => none
  | .wait =>
    match s.dispatcher with
    | .waiting =>
      if s.state.ready then some { s with dispatcher := .returned s.state.result } else none
    | _ => none
  | .poolResume =>
    match s.wrapper with
    | .submitted => some { s.resumeWork with wrapper := .taking }
    | _ => none
  | .poolTake =>
    match s.wrapper with
    | .taking => some { s with
        wrapper := .destroyingWork s.result
        readEarly := s.readEarly || s.result.isNone }
    | _ => none
  | .poolDestroy =>
    match s.wrapper with
    | .destroyingWork result => some { s.destroyWork with wrapper := .setting result }
    | _ => none
  | .poolSet =>
    match s.wrapper with
    | .setting result => some { s with wrapper := .returning, state := ⟨true, result⟩ }
    | _ => none
  | .poolReturn =>
    match s.wrapper with
    | .returning => some s.destroyWrapper
    | _ => none
  | .resume =>
    if s.resumerPending then some { s with resumerPending := false }.resumeWork else none

/-- The dispatch reports the work's own final result, or why it did not run. It is read only once
it is there, the work is destroyed once and not resumed when it is gone, and at the end, which is
always reached, no frame is left. -/
structure Reports (call : DispatchCall) : Prop where
  read : s.readEarly = false
  resumed : s.resumedLate = false
  workOnce : s.workDestroys ≤ 1
  wrapperOnce : s.wrapperDestroys ≤ s.wrapperFrames ∧ s.wrapperFrames ≤ 1
  returned : ∀ result, s.dispatcher = .returned result →
    result = some call.reported ∧ s.workDestroys = 1
  settled : (∀ action, s.step action = none) →
    (∃ result, s.dispatcher = .returned result) ∧ s.wrapperDestroys = s.wrapperFrames

/-! ### Work that runs through -/

/-- Nothing was run or destroyed yet. -/
structure Fresh : Prop where
  frame : s.frame = .suspended s.call.suspensions
  result : s.result = none
  ready : s.state.ready = false
  workDestroys : s.workDestroys = 0
  wrapperDestroys : s.wrapperDestroys = 0

/-- What the wrapper has done so far. -/
def Wrapped : Prop :=
  match s.wrapper with
  | .submitted => s.Fresh ∧ s.call.suspensions = 0
  | .taking => s.result = some s.call.produces ∧ s.state.ready = false ∧ s.workDestroys = 0 ∧
      s.wrapperDestroys = 0
  | .destroyingWork result => result = some s.call.produces ∧ s.state.ready = false ∧
      s.workDestroys = 0 ∧ s.wrapperDestroys = 0
  | .setting result => result = some s.call.produces ∧ s.state.ready = false ∧
      s.workDestroys = 1 ∧ s.wrapperDestroys = 0
  | .returning => s.state = ⟨true, some s.call.produces⟩ ∧ s.workDestroys = 1 ∧
      s.wrapperDestroys = 0
  | .destroyed => s.state = ⟨true, some s.call.produces⟩ ∧ s.workDestroys = 1 ∧
      s.wrapperDestroys = 1
  | _ => False

/-- No wrapper is left after a refusal. -/
structure Unwrapped : Prop where
  wrapper : s.wrapper = .absent ∨ s.wrapper = .destroyed
  destroys : s.wrapperDestroys = s.wrapperFrames
  frames : s.wrapperFrames ≤ 1

/-- Where the dispatcher is says what became of the two frames. -/
def Dispatched : Prop :=
  match s.dispatcher with
  | .checking => s.Fresh ∧ s.wrapper = .absent ∧ s.wrapperFrames = 0
  | .creating => s.call.stopRequested = false ∧ s.Fresh ∧ s.wrapper = .absent ∧
      s.wrapperFrames = 0
  | .submitting => s.call.stopRequested = false ∧ s.Fresh ∧ s.wrapper = .created ∧
      s.wrapperFrames = 1
  | .destroyingWrapper e => s.call.refusal = some e ∧ s.Fresh ∧ s.wrapper = .created ∧
      s.wrapperFrames = 1
  | .destroyingWork e => s.call.refusal = some e ∧ s.Unwrapped ∧ s.workDestroys = 0
  | .waiting => s.call.refusal = none ∧ s.Wrapped ∧ s.wrapperFrames = 1
  | .returned result => result = some s.call.reported ∧
      ((∃ e, s.call.refusal = some e) ∧ s.Unwrapped ∧ s.workDestroys = 1 ∨
        s.call.refusal = none ∧ s.Wrapped ∧ s.wrapperFrames = 1 ∧ s.state.ready = true)

/-- The work is never resumed by another thread. -/
structure Undisturbed : Prop where
  runsThrough : s.call.RunsThrough
  pending : s.resumerPending = false
  read : s.readEarly = false
  resumed : s.resumedLate = false
  dispatched : s.Dispatched

variable {s} {s' : DispatchRun}

theorem undisturbed_start {call : DispatchCall} (h : call.RunsThrough) :
    (start call).Undisturbed :=
  ⟨h, rfl, rfl, rfl, ⟨rfl, rfl, rfl, rfl, rfl⟩, rfl, rfl⟩

theorem Fresh.setPhases (h : s.Fresh) (dispatcher : DispatcherPhase) (wrapper : WrapperPhase)
    (frames : ℕ) : ({ s with
      dispatcher := dispatcher
      wrapper := wrapper
      wrapperFrames := frames } : DispatchRun).Fresh :=
  ⟨h.frame, h.result, h.ready, h.workDestroys, h.wrapperDestroys⟩

theorem Wrapped.setDispatcher (h : s.Wrapped) (dispatcher : DispatcherPhase) :
    ({ s with dispatcher := dispatcher } : DispatchRun).Wrapped := by
  cases hphase : s.wrapper with
  | submitted =>
    rw [Wrapped, hphase] at h
    exact ⟨h.1.setPhases dispatcher .submitted s.wrapperFrames, h.2⟩
  | _ =>
    rw [Wrapped, hphase] at h
    exact h

/-- The result is ready when the wrapper has set it. -/
theorem Wrapped.result_of_ready (h : s.Wrapped) (hready : s.state.ready = true) :
    s.state.result = some s.call.produces := by
  simp only [Wrapped] at h
  split at h
  · exact absurd (hready.symm.trans h.1.ready) (by simp)
  · exact absurd (hready.symm.trans h.2.1) (by simp)
  · exact absurd (hready.symm.trans h.2.1) (by simp)
  · exact absurd (hready.symm.trans h.2.1) (by simp)
  · rw [h.1]
  · rw [h.1]
  · exact h.elim

/-- While the wrapper is there to be run, the dispatcher waits or has the result. -/
theorem Dispatched.wrapped (h : s.Dispatched) (habsent : s.wrapper ≠ .absent)
    (hcreated : s.wrapper ≠ .created) (hdestroyed : s.wrapper ≠ .destroyed) :
    s.call.refusal = none ∧ s.Wrapped ∧ s.wrapperFrames = 1 ∧
      (s.dispatcher = .waiting ∨
        s.dispatcher = .returned (some s.call.reported) ∧ s.state.ready = true) := by
  simp only [Dispatched] at h
  split at h
  · exact absurd h.2.1 habsent
  · exact absurd h.2.2.1 habsent
  · exact absurd h.2.2.1 hcreated
  · exact absurd h.2.2.1 hcreated
  · exact absurd h.2.1.wrapper (by simp [habsent, hdestroyed])
  · rename_i hwaiting
    exact ⟨h.1, h.2.1, h.2.2, .inl hwaiting⟩
  · rename_i result hreturned
    obtain ⟨rfl, ⟨-, hunwrapped, -⟩ | ⟨hrefusal, hwrapped, hframes, hready⟩⟩ := h
    · exact absurd hunwrapped.wrapper (by simp [habsent, hdestroyed])
    · exact ⟨hrefusal, hwrapped, hframes, .inr ⟨hreturned, hready⟩⟩

/-- A step of the wrapper, before which nothing is ready or after which everything is. -/
theorem dispatched_of_wrapped (hrefusal : s'.call.refusal = none) (h : s'.Wrapped)
    (hframes : s'.wrapperFrames = 1)
    (hdispatcher : s'.dispatcher = .waiting ∨
      s'.dispatcher = .returned (some s'.call.reported) ∧ s'.state.ready = true) :
    s'.Dispatched := by
  rcases hdispatcher with hwaiting | ⟨hreturned, hready⟩
  · rw [Dispatched, hwaiting]
    exact ⟨hrefusal, h, hframes⟩
  · rw [Dispatched, hreturned]
    exact ⟨rfl, .inr ⟨hrefusal, h, hframes, hready⟩⟩

theorem Undisturbed.poolStep (h : s.Undisturbed) {action : DispatchAction}
    (hpool : action = .poolResume ∨ action = .poolTake ∨ action = .poolDestroy ∨
      action = .poolSet ∨ action = .poolReturn) (hstep : s.step action = some s') :
    s'.Undisturbed := by
  have hwrapped := h.dispatched.wrapped
  rcases hpool with rfl | rfl | rfl | rfl | rfl
  · simp only [step] at hstep
    split at hstep
    · rename_i hphase
      obtain rfl := Option.some.inj hstep
      obtain ⟨hrefusal, hfact, hframes, hdispatcher⟩ :=
        hwrapped (by simp [hphase]) (by simp [hphase]) (by simp [hphase])
      rw [Wrapped, hphase] at hfact
      obtain ⟨hfresh, hnone⟩ := hfact
      have hframe : s.frame = .suspended 0 := hnone ▸ hfresh.frame
      rw [resumeWork, hframe]
      refine ⟨h.runsThrough, h.pending, h.read, h.resumed,
        dispatched_of_wrapped hrefusal ?_ hframes hdispatcher⟩
      exact ⟨rfl, hfresh.ready, hfresh.workDestroys, hfresh.wrapperDestroys⟩
    · cases hstep
  · simp only [step] at hstep
    split at hstep
    · rename_i hphase
      obtain rfl := Option.some.inj hstep
      obtain ⟨hrefusal, hfact, hframes, hdispatcher⟩ :=
        hwrapped (by simp [hphase]) (by simp [hphase]) (by simp [hphase])
      rw [Wrapped, hphase] at hfact
      obtain ⟨hresult, hrest⟩ := hfact
      refine ⟨h.runsThrough, h.pending, ?_, h.resumed,
        dispatched_of_wrapped hrefusal ⟨hresult, hrest⟩ hframes hdispatcher⟩
      simp [h.read, hresult]
    · cases hstep
  · simp only [step] at hstep
    split at hstep
    · rename_i result hphase
      obtain rfl := Option.some.inj hstep
      obtain ⟨hrefusal, hfact, hframes, hdispatcher⟩ :=
        hwrapped (by simp [hphase]) (by simp [hphase]) (by simp [hphase])
      rw [Wrapped, hphase] at hfact
      obtain ⟨hresult, hready, hdestroys, hwrapper⟩ := hfact
      exact ⟨h.runsThrough, h.pending, h.read, h.resumed,
        dispatched_of_wrapped hrefusal ⟨hresult, hready, congrArg (· + 1) hdestroys, hwrapper⟩
          hframes hdispatcher⟩
    · cases hstep
  · simp only [step] at hstep
    split at hstep
    · rename_i result hphase
      obtain rfl := Option.some.inj hstep
      obtain ⟨hrefusal, hfact, hframes, hdispatcher⟩ :=
        hwrapped (by simp [hphase]) (by simp [hphase]) (by simp [hphase])
      rw [Wrapped, hphase] at hfact
      obtain ⟨rfl, hready, hdestroys, hwrapper⟩ := hfact
      refine ⟨h.runsThrough, h.pending, h.read, h.resumed,
        dispatched_of_wrapped hrefusal ⟨rfl, hdestroys, hwrapper⟩ hframes ?_⟩
      exact hdispatcher.imp_right fun hreturned => ⟨hreturned.1, rfl⟩
    · cases hstep
  · simp only [step] at hstep
    split at hstep
    · rename_i hphase
      obtain rfl := Option.some.inj hstep
      obtain ⟨hrefusal, hfact, hframes, hdispatcher⟩ :=
        hwrapped (by simp [hphase]) (by simp [hphase]) (by simp [hphase])
      rw [Wrapped, hphase] at hfact
      obtain ⟨hstate, hdestroys, hwrapper⟩ := hfact
      exact ⟨h.runsThrough, h.pending, h.read, h.resumed,
        dispatched_of_wrapped hrefusal ⟨hstate, hdestroys, congrArg (· + 1) hwrapper⟩ hframes
          hdispatcher⟩
    · cases hstep

theorem Undisturbed.step (h : s.Undisturbed) {action : DispatchAction}
    (hstep : s.step action = some s') : s'.Undisturbed := by
  have hfact := h.dispatched
  cases action with
  | poolResume | poolTake | poolDestroy | poolSet | poolReturn => exact h.poolStep (by simp) hstep
  | checkStop =>
    simp only [DispatchRun.step] at hstep
    split at hstep
    · rename_i hphase
      rw [Dispatched, hphase] at hfact
      obtain ⟨hfresh, hwrapper, hframes⟩ := hfact
      split_ifs at hstep with hstop <;> obtain rfl := Option.some.inj hstep
      · refine ⟨h.runsThrough, h.pending, h.read, h.resumed, ?_, ?_, hfresh.workDestroys⟩
        · exact if_pos hstop
        · exact ⟨.inl hwrapper, hfresh.wrapperDestroys.trans hframes.symm, by simp [hframes]⟩
      · exact ⟨h.runsThrough, h.pending, h.read, h.resumed, by simpa using hstop,
          hfresh.setPhases .creating s.wrapper s.wrapperFrames, hwrapper, hframes⟩
    · cases hstep
  | createWrapper =>
    simp only [DispatchRun.step] at hstep
    split at hstep
    · rename_i hphase
      rw [Dispatched, hphase] at hfact
      obtain ⟨hstop, hfresh, -, hframes⟩ := hfact
      obtain rfl := Option.some.inj hstep
      exact ⟨h.runsThrough, h.pending, h.read, h.resumed, hstop,
        hfresh.setPhases .submitting .created (s.wrapperFrames + 1), rfl,
        congrArg (· + 1) hframes⟩
    · cases hstep
  | submit =>
    simp only [DispatchRun.step] at hstep
    split at hstep
    · rename_i hphase
      rw [Dispatched, hphase] at hfact
      obtain ⟨hstop, hfresh, hwrapper, hframes⟩ := hfact
      split at hstep <;> rename_i hsubmitted <;> obtain rfl := Option.some.inj hstep
      · have hnone : s.call.suspensions = 0 :=
          (h.runsThrough.resolve_left (by simp [hstop])).resolve_left (by simp [hsubmitted])
        refine ⟨h.runsThrough, h.pending, h.read, h.resumed, ?_,
          ⟨hfresh.setPhases .waiting .submitted s.wrapperFrames, hnone⟩, hframes⟩
        show s.call.refusal = none
        simp [DispatchCall.refusal, hstop, hsubmitted]
      · rename_i e
        refine ⟨h.runsThrough, h.pending, h.read, h.resumed, ?_,
          hfresh.setPhases _ s.wrapper s.wrapperFrames, hwrapper, hframes⟩
        show s.call.refusal = some e
        simp [DispatchCall.refusal, hstop, hsubmitted]
    · cases hstep
  | destroyWrapper =>
    simp only [DispatchRun.step] at hstep
    split at hstep
    · rename_i e hphase
      rw [Dispatched, hphase] at hfact
      obtain ⟨hrefusal, hfresh, -, hframes⟩ := hfact
      obtain rfl := Option.some.inj hstep
      refine ⟨h.runsThrough, h.pending, h.read, h.resumed, hrefusal,
        ⟨.inr rfl, ?_, Nat.le_of_eq hframes⟩,
        hfresh.workDestroys⟩
      exact (congrArg (· + 1) hfresh.wrapperDestroys).trans hframes.symm
    · cases hstep
  | destroyWork =>
    simp only [DispatchRun.step] at hstep
    split at hstep
    · rename_i e hphase
      rw [Dispatched, hphase] at hfact
      obtain ⟨hrefusal, hunwrapped, hdestroys⟩ := hfact
      obtain rfl := Option.some.inj hstep
      refine ⟨h.runsThrough, h.pending, h.read, h.resumed, ?_, .inl ⟨⟨e, hrefusal⟩,
        ⟨hunwrapped.wrapper, hunwrapped.destroys, hunwrapped.frames⟩, congrArg (· + 1) hdestroys⟩⟩
      show some (.error e) = some s.call.reported
      rw [DispatchCall.reported, hrefusal]
    · cases hstep
  | wait =>
    simp only [DispatchRun.step] at hstep
    split at hstep
    · rename_i hphase
      rw [Dispatched, hphase] at hfact
      obtain ⟨hrefusal, hwrapped, hframes⟩ := hfact
      obtain ⟨hready, hstep⟩ := Option.ite_none_right_eq_some.mp hstep
      obtain rfl := Option.some.inj hstep
      refine ⟨h.runsThrough, h.pending, h.read, h.resumed, ?_,
        .inr ⟨hrefusal, hwrapped.setDispatcher _, hframes, hready⟩⟩
      show s.state.result = some s.call.reported
      rw [hwrapped.result_of_ready hready, DispatchCall.reported, hrefusal]
    · cases hstep
  | resume =>
    rw [DispatchRun.step, if_neg (by simp [h.pending])] at hstep
    cases hstep

theorem Wrapped.counts (h : s.Wrapped) : s.workDestroys ≤ 1 ∧ s.wrapperDestroys ≤ 1 := by
  simp only [Wrapped] at h
  split at h
  · exact ⟨by simp [h.1.workDestroys], by simp [h.1.wrapperDestroys]⟩
  · exact ⟨by simp [h.2.2.1], by simp [h.2.2.2]⟩
  · exact ⟨by simp [h.2.2.1], by simp [h.2.2.2]⟩
  · exact ⟨by simp [h.2.2.1], by simp [h.2.2.2]⟩
  · exact ⟨by simp [h.2.1], by simp [h.2.2]⟩
  · exact ⟨by simp [h.2.1], by simp [h.2.2]⟩
  · exact h.elim

/-- A wrapper that was submitted goes on until its frame is gone. -/
theorem Wrapped.gone (h : s.Wrapped) (hstuck : ∀ action, s.step action = none) :
    s.state.ready = true ∧ s.workDestroys = 1 ∧ s.wrapperDestroys = 1 := by
  cases hphase : s.wrapper with
  | submitted => exact absurd (hstuck .poolResume) (by simp [DispatchRun.step, hphase])
  | taking => exact absurd (hstuck .poolTake) (by simp [DispatchRun.step, hphase])
  | destroyingWork result => exact absurd (hstuck .poolDestroy) (by simp [DispatchRun.step, hphase])
  | setting result => exact absurd (hstuck .poolSet) (by simp [DispatchRun.step, hphase])
  | returning => exact absurd (hstuck .poolReturn) (by simp [DispatchRun.step, hphase])
  | destroyed =>
    rw [Wrapped, hphase] at h
    obtain ⟨hstate, hwork, hwrapper⟩ := h
    exact ⟨by rw [hstate], hwork, hwrapper⟩
  | absent | created =>
    rw [Wrapped, hphase] at h
    exact h.elim

theorem Dispatched.counts (h : s.Dispatched) :
    s.workDestroys ≤ 1 ∧ s.wrapperDestroys ≤ s.wrapperFrames ∧ s.wrapperFrames ≤ 1 := by
  simp only [Dispatched] at h
  split at h
  · obtain ⟨hfresh, -, hframes⟩ := h
    simp [hfresh.workDestroys, hfresh.wrapperDestroys, hframes]
  · obtain ⟨-, hfresh, -, hframes⟩ := h
    simp [hfresh.workDestroys, hfresh.wrapperDestroys, hframes]
  · obtain ⟨-, hfresh, -, hframes⟩ := h
    simp [hfresh.workDestroys, hfresh.wrapperDestroys, hframes]
  · obtain ⟨-, hfresh, -, hframes⟩ := h
    simp [hfresh.workDestroys, hfresh.wrapperDestroys, hframes]
  · obtain ⟨-, hunwrapped, hwork⟩ := h
    simp [hwork, hunwrapped.destroys, hunwrapped.frames]
  · obtain ⟨-, hwrapped, hframes⟩ := h
    have hcounts := hwrapped.counts
    omega
  · obtain ⟨-, ⟨-, hunwrapped, hwork⟩ | ⟨-, hwrapped, hframes, -⟩⟩ := h
    · simp [hwork, hunwrapped.destroys, hunwrapped.frames]
    · have hcounts := hwrapped.counts
      omega

/-- A dispatch that can go no further has returned, and no frame is left. -/
theorem Dispatched.settled (h : s.Dispatched) (hstuck : ∀ action, s.step action = none) :
    (∃ result, s.dispatcher = .returned result) ∧ s.wrapperDestroys = s.wrapperFrames := by
  cases hphase : s.dispatcher with
  | checking =>
    refine absurd (hstuck .checkStop) ?_
    simp only [DispatchRun.step, hphase]
    split_ifs <;> simp
  | creating => exact absurd (hstuck .createWrapper) (by simp [DispatchRun.step, hphase])
  | submitting =>
    refine absurd (hstuck .submit) ?_
    simp only [DispatchRun.step, hphase]
    split <;> simp
  | destroyingWrapper e =>
    exact absurd (hstuck .destroyWrapper) (by simp [DispatchRun.step, hphase])
  | destroyingWork e => exact absurd (hstuck .destroyWork) (by simp [DispatchRun.step, hphase])
  | waiting =>
    rw [Dispatched, hphase] at h
    have hready := (h.2.1.gone hstuck).1
    exact absurd (hstuck .wait) (by simp [DispatchRun.step, hphase, hready])
  | returned result =>
    rw [Dispatched, hphase] at h
    obtain ⟨-, ⟨-, hunwrapped, -⟩ | ⟨-, hwrapped, hframes, -⟩⟩ := h
    · exact ⟨⟨result, rfl⟩, hunwrapped.destroys⟩
    · exact ⟨⟨result, rfl⟩, (hwrapped.gone hstuck).2.2.trans hframes.symm⟩

theorem Undisturbed.reports (h : s.Undisturbed) : s.Reports s.call where
  read := h.read
  resumed := h.resumed
  workOnce := h.dispatched.counts.1
  wrapperOnce := h.dispatched.counts.2
  returned result hreturned := by
    have hfact := h.dispatched
    rw [Dispatched, hreturned] at hfact
    obtain ⟨hresult, ⟨-, -, hwork⟩ | ⟨-, hwrapped, -, hready⟩⟩ := hfact
    · exact ⟨hresult, hwork⟩
    · refine ⟨hresult, ?_⟩
      simp only [Wrapped] at hwrapped
      split at hwrapped
      · exact absurd (hready.symm.trans hwrapped.1.ready) (by simp)
      · exact absurd (hready.symm.trans hwrapped.2.1) (by simp)
      · exact absurd (hready.symm.trans hwrapped.2.1) (by simp)
      · exact absurd (hready.symm.trans hwrapped.2.1) (by simp)
      · exact hwrapped.2.1
      · exact hwrapped.2.1
      · exact hwrapped.elim
  settled := h.dispatched.settled

theorem call_resumeWork : s.resumeWork.call = s.call := by
  rw [resumeWork]
  split <;> rfl

theorem call_of_step {action : DispatchAction} (hstep : s.step action = some s') :
    s'.call = s.call := by
  cases action with
  | checkStop | submit =>
    simp only [DispatchRun.step] at hstep
    split at hstep
    · split at hstep <;> (obtain rfl := Option.some.inj hstep; rfl)
    · cases hstep
  | wait =>
    simp only [DispatchRun.step] at hstep
    split at hstep
    · obtain ⟨-, hstep⟩ := Option.ite_none_right_eq_some.mp hstep
      obtain rfl := Option.some.inj hstep
      rfl
    · cases hstep
  | resume =>
    obtain ⟨-, hstep⟩ := Option.ite_none_right_eq_some.mp hstep
    obtain rfl := Option.some.inj hstep
    exact call_resumeWork
  | poolResume =>
    simp only [DispatchRun.step] at hstep
    split at hstep
    · obtain rfl := Option.some.inj hstep
      exact call_resumeWork
    · cases hstep
  | _ =>
    simp only [DispatchRun.step] at hstep
    split at hstep
    · obtain rfl := Option.some.inj hstep
      rfl
    · cases hstep

theorem call_of_run {call : DispatchCall} {actions : List DispatchAction}
    (hrun : Transition.run DispatchRun.step (start call) actions = some s) : s.call = call :=
  Transition.run_induction DispatchRun.step (P := fun _ s => s.call = call) rfl
    (fun _ _ _ _ h hstep => (call_of_step hstep).trans h) hrun

theorem undisturbed_of_run {call : DispatchCall} (h : call.RunsThrough)
    {actions : List DispatchAction}
    (hrun : Transition.run DispatchRun.step (start call) actions = some s) : s.Undisturbed :=
  Transition.run_induction DispatchRun.step (P := fun _ s => s.Undisturbed) (undisturbed_start h)
    (fun _ _ _ _ h hstep => h.step hstep) hrun

/-- A dispatch reports the work's own final result in every run if and only if the work is refused
or runs through without suspending: whatever suspends is asked for its result too early in some
run. -/
theorem reports_iff_runsThrough (call : DispatchCall) :
    (∀ (actions : List DispatchAction) (s : DispatchRun),
      Transition.run DispatchRun.step (start call) actions = some s → s.Reports call) ↔
      call.RunsThrough := by
  constructor
  · intro h
    by_contra hsuspends
    simp only [DispatchCall.RunsThrough, not_or, Bool.not_eq_true] at hsuspends
    obtain ⟨hstop, hsubmitted, hsome⟩ := hsuspends
    obtain ⟨left, hleft⟩ := Nat.exists_eq_succ_of_ne_zero hsome
    have hok : call.submitted = .ok () := by
      cases hs : call.submitted with
      | error e => exact absurd ⟨e, hs⟩ hsubmitted
      | ok u => rfl
    obtain ⟨s, hrun, hread⟩ : ∃ s, Transition.run DispatchRun.step (start call)
        [.checkStop, .createWrapper, .submit, .poolResume, .poolTake] = some s ∧
        s.readEarly = true := by
      simp [DispatchRun.step, start, hstop, hok, resumeWork, hleft]
    exact absurd ((h _ s hrun).read.symm.trans hread) (by simp)
  · intro h actions s hrun
    rw [← call_of_run hrun]
    exact (undisturbed_of_run h hrun).reports

/-- Work that awaits one copy. -/
def oneCopy : DispatchCall where
  stopRequested := false
  submitted := .ok ()
  suspensions := 1
  produces := .ok ()

/-- The copy lands after the pool thread has destroyed the frame it resumes. -/
theorem oneCopy_resumed_late :
    ∃ s, Transition.run DispatchRun.step (start oneCopy)
        [.checkStop, .createWrapper, .submit, .poolResume, .poolTake, .poolDestroy, .poolSet, .wait,
          .resume, .poolReturn] = some s ∧
      s.dispatcher = .returned none ∧ s.readEarly = true ∧ s.resumedLate = true ∧
      ¬s.Reports oneCopy := by
  refine ⟨_, rfl, rfl, rfl, rfl, fun h => ?_⟩
  exact absurd h.read Bool.noConfusion

/-- The answers that `dispatch` of the task graph asks for, of work that runs through. -/
def callOf (env : Environment) (node : TaskNode) (run : Run) : DispatchCall where
  stopRequested := env.stopRequested run.asked
  submitted := env.submit run.ask.asked node.stageId
  suspensions := 0
  produces := env.work run.ask.ask.asked node.id

theorem reported_callOf (env : Environment) (node : TaskNode) (run : Run) :
    (callOf env node run).reported = (dispatch env node run).1 := by
  rw [DispatchCall.reported, DispatchCall.refusal, dispatch]
  cases hstop : env.stopRequested run.asked with
  | true => simp [callOf, hstop]
  | false =>
    cases hsubmitted : env.submit run.ask.asked node.stageId with
    | error e => simp [callOf, hstop, hsubmitted]
    | ok u => simp [callOf, hstop, hsubmitted]

/-- What the task graph's `dispatch` returns is what the threads come to, in every order. -/
theorem returned_eq_dispatch {env : Environment} {node : TaskNode} {run : Run}
    {actions : List DispatchAction}
    (hrun : Transition.run DispatchRun.step (start (callOf env node run)) actions = some s)
    {result : Option (Result Unit)} (hreturned : s.dispatcher = .returned result) :
    result = some (dispatch env node run).1 := by
  rw [← reported_callOf, ← call_of_run hrun]
  exact ((undisturbed_of_run (.inr (.inr rfl)) hrun).reports.returned result hreturned).1

end DispatchRun

end SurfaceAi.Runtime
