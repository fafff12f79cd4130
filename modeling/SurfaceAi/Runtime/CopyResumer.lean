import SurfaceAi.Core.Error
import SurfaceAi.Library.Transition

/-! One asynchronous copy and whoever resumes its coroutine: the caller, which drives the
coroutine in the loop of `SyncAwaitable`, the driver, which reports the end of the copy, and the
callback thread, to which the report is forwarded. -/

namespace SurfaceAi.Runtime

inductive Resumer where
  | caller
  | callback
  deriving DecidableEq

/-- Where `EnqueueAsyncCopy` stands before it suspends; the caller runs it. -/
inductive CopyPoint where
  | entry
  | notStopped
  | acquired
  | launched
  | unregistered
  deriving DecidableEq

/-- The coroutine: suspended at its start, in the awaiter or at its end, running, or gone. In
`continuing` it is past the awaiter. -/
inductive CopyFrame where
  | created
  | starting (point : CopyPoint)
  | awaiting
  | continuing (runner : Resumer)
  | finished
  | destroyed
  deriving DecidableEq

/-- `SyncAwaitable`. In `suspending` the caller is in `await_suspend` of the awaiter, with the
completion callback registered. -/
inductive CallerPhase where
  | ready
  | testing
  | resuming
  | inside
  | suspending
  | taking
  | returned
  deriving DecidableEq

inductive CallbackPhase where
  | idle
  | resuming
  | inside
  deriving DecidableEq

inductive CopyState where
  | none
  | inFlight
  | landed
  deriving DecidableEq

/-- The copy with its three threads. An error status is the text that CUDA has for it. Beside the
members of the source stand the number of times the coroutine was resumed from the awaiter, and
whether a coroutine that is not suspended was resumed, or one that is gone was touched. -/
structure CopyRun where
  frame : CopyFrame
  caller : CallerPhase
  callback : CallbackPhase
  copy : CopyState
  registered : Bool
  fired : Bool
  queued : Bool
  status : Option String
  result : Option (Result Unit)
  sourceHeld : Bool
  transferHeld : Bool
  resumes : ℕ
  misused : Bool

inductive CopyAction where
  | test
  | resume
  | checkStop (requested : Bool)
  | acquire (transfer : Result Unit)
  | memcpyAsync (status : Option String)
  | addCallback (status : Option String)
  | synchronize
  | suspendReturn
  | coReturn
  | take
  | complete
  | onStreamDone (status : Option String)
  | pop
  | callbackResume

namespace CopyRun

/-- The coroutine as the caller gets it; the source slab moved into its frame. -/
def start : CopyRun :=
  ⟨.created, .ready, .idle, .none, false, false, false, none, none, true, false, 0, false⟩

variable (s : CopyRun)

/-- `handle.resume()`. -/
def resumed (runner : Resumer) : CopyRun :=
  match s.frame with
  | .created => { s with frame := .starting .entry }
  | .awaiting => { s with frame := .continuing runner, resumes := s.resumes + 1 }
  | _ => { s with misused := true }

/-- `co_return`: the transfer slab, a local, goes back to its pool. -/
def finish (runner : Resumer) (result : Result Unit) : CopyRun :=
  let s' := { s with frame := .finished, result := some result, transferHeld := false }
  match runner with
  | .caller => { s' with caller := .testing }
  | .callback => { s' with callback := .idle }

/-- What `EnqueueAsyncCopy` makes of the status. -/
def outcome : Result Unit :=
  match s.status with
  | none => .ok ()
  | some text => fail .coreUnknown ("GPU async copy failed: " ++ text)

/-- Nothing is said of what follows a misuse. -/
def step (s : CopyRun) (action : CopyAction) : Option CopyRun :=
  if s.misused then none else
  match action with
  | .test =>
    let next := if s.frame = .finished then CallerPhase.taking
      else if s.caller = .ready then .testing else .resuming
    if s.caller = .ready ∨ s.caller = .testing then some { s with caller := next } else none
  | .resume =>
    if s.caller = .resuming then some { s.resumed .caller with caller := .inside } else none
  | .checkStop requested =>
    if s.frame = .starting .entry then
      if requested then
        some (s.finish .caller (fail .runtimeCancelled
          "EnqueueAsyncCopy cancelled before issuing cudaMemcpyAsync"))
      else some { s with frame := .starting .notStopped }
    else none
  | .acquire transfer =>
    if s.frame = .starting .notStopped then
      match transfer with
      | .ok () => some { s with frame := .starting .acquired, transferHeld := true }
      | .error e => some (s.finish .caller (.error e))
    else none
  | .memcpyAsync status =>
    if s.frame = .starting .acquired then
      match status with
      | none => some { s with frame := .starting .launched, status := none, copy := .inFlight }
      | some text => some { s with frame := .continuing .caller, status := some text }
    else none
  | .addCallback status =>
    if s.frame = .starting .launched then
      match status with
      | none => some { s with frame := .awaiting, registered := true, caller := .suspending }
      | some text => some { s with frame := .starting .unregistered, status := some text }
    else none
  | .synchronize =>
    if s.frame = .starting .unregistered ∧ s.copy = .landed then
      some { s with frame := .continuing .caller }
    else none
  | .suspendReturn =>
    -- the status of the registration is written into the frame once the callback may run
    if s.caller = .suspending then
      some { s with caller := .testing, status := none, misused := s.frame = .destroyed }
    else none
  | .coReturn =>
    match s.frame with
    | .continuing runner => some (s.finish runner s.outcome)
    | _ => none
  | .take =>
    if s.caller = .taking then
      some { s with caller := .returned, frame := .destroyed, sourceHeld := false }
    else none
  | .complete => if s.copy = .inFlight then some { s with copy := .landed } else none
  | .onStreamDone status =>
    if s.registered ∧ s.copy = .landed ∧ s.fired = false then
      if s.frame = .destroyed then some { s with fired := true, misused := true }
      else some { s with fired := true, status := status, queued := true }
    else none
  | .pop =>
    if s.callback = .idle ∧ s.queued then some { s with queued := false, callback := .resuming }
    else none
  | .callbackResume =>
    if s.callback = .resuming then some { s.resumed .callback with callback := .inside } else none

/-- The copy has one resumer: its coroutine goes on from the awaiter once, after the completion
callback, is not touched when it is gone, and keeps both slabs while the copy is in flight. -/
structure SingleResumer : Prop where
  atMostOnce : s.resumes ≤ 1
  afterCallback : 0 < s.resumes → s.fired = true
  once : s.registered = true → s.frame = .finished ∨ s.frame = .destroyed → s.resumes = 1
  notMisused : s.misused = false
  slabs : s.copy = .inFlight → s.sourceHeld = true ∧ s.transferHeld = true

/-- A schedule in which the loop of `SyncAwaitable` tests a coroutine whose copy was issued only
when the callback thread has run it to its end. -/
def LateTest (s : CopyRun) : CopyAction → Prop
  | .test => s.registered = true → s.frame = .finished
  | _ => True

instance (s : CopyRun) (action : CopyAction) : Decidable (s.LateTest action) := by
  cases action <;> unfold LateTest <;> infer_instance

/-- Before the callback is registered the caller alone acts. -/
def BeforeCallback : CopyFrame → Prop
  | .created =>
    (s.caller = .ready ∨ s.caller = .testing ∨ s.caller = .resuming) ∧ s.copy = .none
  | .starting point => s.caller = .inside ∧
      (s.copy ≠ .none → (point = .launched ∨ point = .unregistered)) ∧
      (point ≠ .entry → point ≠ .notStopped → s.transferHeld = true)
  | .awaiting => False
  | .continuing runner => runner = .caller ∧ s.caller = .inside ∧ s.copy ≠ .inFlight
  | .finished => (s.caller = .testing ∨ s.caller = .taking) ∧ s.copy ≠ .inFlight
  | .destroyed => s.caller = .returned ∧ s.copy ≠ .inFlight

/-- The report is to come, queued, or in the hands of the callback thread. -/
inductive Reported : Bool → Bool → CallbackPhase → Prop where
  | notYet : Reported false false .idle
  | queued : Reported true true .idle
  | popped : Reported true false .resuming

/-- The callback thread has resumed the coroutine, with the one report there is. -/
structure Delivered (resumes : ℕ) (fired queued : Bool) (copy : CopyState) : Prop where
  once : resumes = 1
  fired : fired = true
  notQueued : queued = false
  landed : copy = .landed

/-- After it the callback thread alone acts on the coroutine, until it is finished. -/
def AfterCallback : CopyFrame → Prop
  | .awaiting => (s.caller = .suspending ∨ s.caller = .testing) ∧ s.transferHeld = true ∧
      s.resumes = 0 ∧ Reported s.fired s.queued s.callback ∧ (s.fired = true → s.copy = .landed)
  | .continuing runner => runner = .callback ∧ (s.caller = .suspending ∨ s.caller = .testing) ∧
      s.callback = .inside ∧ Delivered s.resumes s.fired s.queued s.copy
  | .finished => (s.caller = .suspending ∨ s.caller = .testing ∨ s.caller = .taking) ∧
      s.callback = .idle ∧ Delivered s.resumes s.fired s.queued s.copy
  | .destroyed => s.caller = .returned ∧ s.callback = .idle ∧ Delivered s.resumes s.fired s.queued s.copy
  | _ => False

structure Inv : Prop where
  notMisused : s.misused = false
  source : s.frame ≠ .destroyed → s.sourceHeld = true
  unregistered : s.registered = false → s.BeforeCallback s.frame ∧ s.resumes = 0 ∧
    s.fired = false ∧ s.queued = false ∧ s.callback = .idle
  registered : s.registered = true → s.AfterCallback s.frame

section Steps

variable {s} {s' : CopyRun}

section Reports

variable {fired queued : Bool} {callback : CallbackPhase}

theorem Reported.idle_of (h : Reported fired queued callback)
    (hyet : fired = false ∨ queued = true) : callback = .idle := by
  cases h with
  | notYet => rfl
  | queued => rfl
  | popped => simp at hyet

theorem Reported.fired_of (h : Reported fired queued callback)
    (hunder : queued = true ∨ callback = .resuming) : fired = true := by
  cases h with
  | notYet => simp at hunder
  | queued => rfl
  | popped => rfl

theorem Reported.notQueued_of (h : Reported fired queued callback) (hpopped : callback = .resuming) :
    queued = false := by
  cases h with
  | notYet => rfl
  | queued => cases hpopped
  | popped => rfl

theorem Reported.whose (h : Reported fired queued callback) :
    fired = false ∨ callback = .resuming ∨ queued = true ∧ callback = .idle := by
  cases h with
  | notYet => exact .inl rfl
  | queued => exact .inr (.inr ⟨rfl, rfl⟩)
  | popped => exact .inr (.inl rfl)

end Reports

theorem inv_start : start.Inv where
  notMisused := rfl
  source _ := rfl
  unregistered _ := ⟨⟨.inl rfl, rfl⟩, rfl, rfl, rfl, rfl⟩
  registered h := by cases h

theorem Delivered.singleResumer (h : Delivered s.resumes s.fired s.queued s.copy) (hmisused : s.misused = false) :
    s.SingleResumer where
  atMostOnce := Nat.le_of_eq h.once
  afterCallback _ := h.fired
  once _ _ := h.once
  notMisused := hmisused
  slabs hcopy := by
    rw [h.landed] at hcopy
    cases hcopy

/-- While the caller alone acts, a copy in flight means that the coroutine is being started. -/
theorem BeforeCallback.slabs (h : s.BeforeCallback s.frame) (hcopy : s.copy = .inFlight)
    (hsource : s.frame ≠ .destroyed → s.sourceHeld = true) :
    s.sourceHeld = true ∧ s.transferHeld = true := by
  cases hframe : s.frame with
  | starting point =>
    rw [hframe] at h
    obtain ⟨-, hpoint, hheld⟩ := h
    refine ⟨hsource (by simp [hframe]), ?_⟩
    rcases hpoint (by simp [hcopy]) with rfl | rfl
    · exact hheld (by simp) (by simp)
    · exact hheld (by simp) (by simp)
  | created => simp [hframe, BeforeCallback, hcopy] at h
  | awaiting => simp [hframe, BeforeCallback] at h
  | continuing runner => simp [hframe, BeforeCallback, hcopy] at h
  | finished => simp [hframe, BeforeCallback, hcopy] at h
  | destroyed => simp [hframe, BeforeCallback, hcopy] at h

/-- What holds of every state of such a run is what was to hold of it. -/
theorem Inv.singleResumer (h : s.Inv) : s.SingleResumer := by
  cases hreg : s.registered with
  | false =>
    obtain ⟨hbefore, hresumes, -⟩ := h.unregistered hreg
    exact ⟨by omega, by omega, fun hc => absurd (hreg.symm.trans hc) (by simp), h.notMisused,
      fun hcopy => hbefore.slabs hcopy h.source⟩
  | true =>
    have hafter := h.registered hreg
    cases hframe : s.frame with
    | created => simp [hframe, AfterCallback] at hafter
    | starting point => simp [hframe, AfterCallback] at hafter
    | awaiting =>
      rw [hframe] at hafter
      obtain ⟨-, hheld, hresumes, -, -⟩ := hafter
      exact ⟨by omega, by omega, fun _ hend => by simp [hframe] at hend, h.notMisused,
        fun _ => ⟨h.source (by simp [hframe]), hheld⟩⟩
    | continuing runner =>
      rw [hframe] at hafter
      exact hafter.2.2.2.singleResumer h.notMisused
    | finished =>
      rw [hframe] at hafter
      exact hafter.2.2.singleResumer h.notMisused
    | destroyed =>
      rw [hframe] at hafter
      exact hafter.2.2.singleResumer h.notMisused

/-- A coroutine that is being started has no callback registered. -/
theorem Inv.starting {point : CopyPoint} (h : s.Inv) (hframe : s.frame = .starting point) :
    s.registered = false ∧ s.BeforeCallback (.starting point) ∧ s.resumes = 0 ∧
      s.fired = false ∧ s.queued = false ∧ s.callback = .idle := by
  have hreg : s.registered = false := by
    by_contra hc
    have hafter := h.registered ((Bool.not_eq_false _).mp hc)
    rw [hframe] at hafter
    exact hafter
  rw [← hframe]
  exact ⟨hreg, h.unregistered hreg⟩

/-- Nothing is under way in the frame that the report is about. -/
theorem Inv.reporting (h : s.Inv) (hreport : s.registered = true ∧ s.fired = false ∨
    s.queued = true ∨ s.callback = .resuming) :
    s.registered = true ∧ s.frame = .awaiting ∧ s.AfterCallback .awaiting := by
  have hreg : s.registered = true := by
    by_contra hc
    obtain ⟨-, -, hfired, hqueued, hidle⟩ := h.unregistered ((Bool.not_eq_true _).mp hc)
    rcases hreport with ⟨hr, -⟩ | hq | hb
    · exact hc hr
    · simp [hqueued] at hq
    · simp [hidle] at hb
  have hafter := h.registered hreg
  cases hframe : s.frame with
  | created => simp [hframe, AfterCallback] at hafter
  | starting point => simp [hframe, AfterCallback] at hafter
  | awaiting =>
    rw [hframe] at hafter
    exact ⟨hreg, rfl, hafter⟩
  | continuing runner =>
    rw [hframe] at hafter
    obtain ⟨-, -, hinside, hd⟩ := hafter
    simp [hd.fired, hd.notQueued, hinside] at hreport
  | finished =>
    rw [hframe] at hafter
    obtain ⟨-, hidle, hd⟩ := hafter
    simp [hd.fired, hd.notQueued, hidle] at hreport
  | destroyed =>
    rw [hframe] at hafter
    obtain ⟨-, hidle, hd⟩ := hafter
    simp [hd.fired, hd.notQueued, hidle] at hreport

/-! ### The caller -/

theorem Inv.test (h : s.Inv) (hcaller : s.caller = .ready ∨ s.caller = .testing)
    (hlate : s.registered = true → s.frame = .finished) :
    ({ s with caller := if s.frame = .finished then .taking
        else if s.caller = .ready then .testing else .resuming } : CopyRun).Inv where
  notMisused := h.notMisused
  source := h.source
  unregistered hreg := by
    obtain ⟨hbefore, hrest⟩ := h.unregistered hreg
    refine ⟨?_, hrest⟩
    cases hframe : s.frame with
    | created =>
      rw [hframe] at hbefore
      refine ⟨.inr ?_, hbefore.2⟩
      by_cases hready : s.caller = .ready
      · simp [hready]
      · simp [hready]
    | starting point =>
      rw [hframe] at hbefore
      simp [hbefore.1] at hcaller
    | awaiting => simp [hframe, BeforeCallback] at hbefore
    | continuing runner =>
      rw [hframe] at hbefore
      simp [hbefore.2.1] at hcaller
    | finished =>
      rw [hframe] at hbefore
      exact ⟨.inr (by simp), hbefore.2⟩
    | destroyed =>
      rw [hframe] at hbefore
      simp [hbefore.1] at hcaller
  registered hreg := by
    have hframe := hlate hreg
    have hafter := h.registered hreg
    simp only [hframe, if_true] at hafter ⊢
    exact ⟨.inr (.inr rfl), hafter.2⟩

theorem Inv.resume (h : s.Inv) (hcaller : s.caller = .resuming) :
    ({ s.resumed .caller with caller := .inside } : CopyRun).Inv := by
  have hreg : s.registered = false := by
    by_contra hc
    have hafter := h.registered ((Bool.not_eq_false _).mp hc)
    cases hframe : s.frame <;> simp [hframe, AfterCallback, hcaller] at hafter
  obtain ⟨hbefore, hrest⟩ := h.unregistered hreg
  have hframe : s.frame = .created := by
    cases hframe : s.frame <;> simp [hframe, BeforeCallback, hcaller] at hbefore ⊢
  rw [hframe] at hbefore
  rw [resumed, hframe]
  refine ⟨h.notMisused, fun _ => h.source (by simp [hframe]), fun _ => ⟨?_, hrest⟩, fun hc => ?_⟩
  · exact ⟨rfl, fun hcopy => absurd hbefore.2 hcopy, fun hentry => absurd rfl hentry⟩
  · exact absurd (hreg.symm.trans hc) (by simp)

theorem Inv.suspendReturn (h : s.Inv) (hcaller : s.caller = .suspending) :
    ({ s with caller := .testing, status := none, misused := s.frame = .destroyed } : CopyRun).Inv := by
  have hreg : s.registered = true := by
    by_contra hc
    obtain ⟨hbefore, -⟩ := h.unregistered ((Bool.not_eq_true _).mp hc)
    cases hframe : s.frame <;> simp [hframe, BeforeCallback, hcaller] at hbefore
  have hafter := h.registered hreg
  cases hframe : s.frame with
  | created => simp [hframe, AfterCallback] at hafter
  | starting point => simp [hframe, AfterCallback] at hafter
  | destroyed => simp [hframe, AfterCallback, hcaller] at hafter
  | awaiting =>
    rw [hframe] at hafter
    exact ⟨by simp, fun _ => h.source (by simp [hframe]), fun hc => absurd (hreg.symm.trans hc)
      (by simp), fun _ => ⟨.inr rfl, hafter.2⟩⟩
  | continuing runner =>
    rw [hframe] at hafter
    obtain ⟨hrunner, -, hinside, hd⟩ := hafter
    exact ⟨by simp, fun _ => h.source (by simp [hframe]), fun hc => absurd (hreg.symm.trans hc)
      (by simp), fun _ => ⟨hrunner, .inr rfl, hinside, hd⟩⟩
  | finished =>
    rw [hframe] at hafter
    obtain ⟨-, hidle, hd⟩ := hafter
    exact ⟨by simp, fun _ => h.source (by simp [hframe]), fun hc => absurd (hreg.symm.trans hc)
      (by simp), fun _ => ⟨.inr (.inl rfl), hidle, hd⟩⟩

theorem Inv.take (h : s.Inv) (hcaller : s.caller = .taking) :
    ({ s with caller := .returned, frame := .destroyed, sourceHeld := false } : CopyRun).Inv := by
  refine ⟨h.notMisused, fun hc => absurd rfl hc, fun hreg => ?_, fun hreg => ?_⟩
  · obtain ⟨hbefore, hrest⟩ := h.unregistered hreg
    refine ⟨⟨rfl, ?_⟩, hrest⟩
    cases hframe : s.frame <;> simp_all [BeforeCallback]
  · have hafter := h.registered hreg
    cases hframe : s.frame with
    | finished =>
      rw [hframe] at hafter
      obtain ⟨-, hidle, hd⟩ := hafter
      exact ⟨rfl, hidle, hd⟩
    | created => simp [hframe, AfterCallback] at hafter
    | starting point => simp [hframe, AfterCallback] at hafter
    | awaiting => simp [hframe, AfterCallback, hcaller] at hafter
    | continuing runner => simp [hframe, AfterCallback, hcaller] at hafter
    | destroyed => simp [hframe, AfterCallback, hcaller] at hafter

/-! ### The coroutine -/

/-- A step of the coroutine that is being started. -/
theorem Inv.atStart {point : CopyPoint} {s' : CopyRun} (h : s.Inv)
    (hframe : s.frame = .starting point) (hmisused : s'.misused = s.misused)
    (hsource : s'.sourceHeld = s.sourceHeld) (hreg : s'.registered = s.registered)
    (hsame : s'.resumes = s.resumes ∧ s'.fired = s.fired ∧ s'.queued = s.queued ∧
      s'.callback = s.callback)
    (hbefore : s.BeforeCallback (.starting point) → s'.BeforeCallback s'.frame) : s'.Inv := by
  obtain ⟨hr, hb, hresumes, hfired, hqueued, hidle⟩ := h.starting hframe
  refine ⟨hmisused.trans h.notMisused, fun _ => hsource.trans (h.source (by simp [hframe])),
    fun _ => ?_, fun hc => absurd ((hreg.trans hr).symm.trans hc) (by simp)⟩
  obtain ⟨h₁, h₂, h₃, h₄⟩ := hsame
  exact ⟨hbefore hb, h₁.trans hresumes, h₂.trans hfired, h₃.trans hqueued, h₄.trans hidle⟩

theorem Inv.addCallback (h : s.Inv) (hframe : s.frame = .starting .launched) :
    ({ s with frame := .awaiting, registered := true, caller := .suspending } : CopyRun).Inv := by
  obtain ⟨-, hbefore, hresumes, hfired, hqueued, hidle⟩ := h.starting hframe
  refine ⟨h.notMisused, fun _ => h.source (by simp [hframe]), fun hc => (by cases hc), fun _ => ?_⟩
  refine ⟨.inl rfl, hbefore.2.2 (by simp) (by simp), hresumes, ?_, fun hc => ?_⟩
  · show Reported s.fired s.queued s.callback
    rw [hfired, hqueued, hidle]
    exact .notYet
  · exact absurd (hfired.symm.trans hc) (by simp)

theorem Inv.coReturn {runner : Resumer} {result : Result Unit} (h : s.Inv)
    (hframe : s.frame = .continuing runner) : (s.finish runner result).Inv := by
  cases hreg : s.registered with
  | false =>
    obtain ⟨hbefore, hrest⟩ := h.unregistered hreg
    rw [hframe] at hbefore
    obtain ⟨rfl, -, hcopy⟩ := hbefore
    exact ⟨h.notMisused, fun _ => h.source (by simp [hframe]),
      fun _ => ⟨⟨.inl rfl, hcopy⟩, hrest⟩, fun hc => absurd (hreg.symm.trans hc) (by simp)⟩
  | true =>
    have hafter := h.registered hreg
    rw [hframe] at hafter
    obtain ⟨rfl, hcaller, -, hd⟩ := hafter
    refine ⟨h.notMisused, fun _ => h.source (by simp [hframe]),
      fun hc => absurd (hreg.symm.trans hc) (by simp), fun _ => ⟨?_, rfl, hd⟩⟩
    exact hcaller.elim .inl fun hc => .inr (.inl hc)

/-! ### The driver and the callback thread -/

theorem Inv.complete (h : s.Inv) (hcopy : s.copy = .inFlight) :
    ({ s with copy := .landed } : CopyRun).Inv := by
  refine ⟨h.notMisused, h.source, fun hreg => ?_, fun hreg => ?_⟩
  · obtain ⟨hbefore, hrest⟩ := h.unregistered hreg
    refine ⟨?_, hrest⟩
    cases hframe : s.frame with
    | starting point =>
      rw [hframe] at hbefore
      exact ⟨hbefore.1, fun _ => hbefore.2.1 (by simp [hcopy]), hbefore.2.2⟩
    | created => simp [hframe, BeforeCallback, hcopy] at hbefore
    | awaiting => simp [hframe, BeforeCallback] at hbefore
    | continuing runner => simp [hframe, BeforeCallback, hcopy] at hbefore
    | finished => simp [hframe, BeforeCallback, hcopy] at hbefore
    | destroyed => simp [hframe, BeforeCallback, hcopy] at hbefore
  · have hafter := h.registered hreg
    cases hframe : s.frame with
    | awaiting =>
      rw [hframe] at hafter
      obtain ⟨hcaller, hheld, hresumes, hreport, -⟩ := hafter
      exact ⟨hcaller, hheld, hresumes, hreport, fun _ => rfl⟩
    | created => simp [hframe, AfterCallback] at hafter
    | starting point => simp [hframe, AfterCallback] at hafter
    | continuing runner =>
      rw [hframe] at hafter
      exact absurd (hcopy.symm.trans hafter.2.2.2.landed) (by simp)
    | finished =>
      rw [hframe] at hafter
      exact absurd (hcopy.symm.trans hafter.2.2.landed) (by simp)
    | destroyed =>
      rw [hframe] at hafter
      exact absurd (hcopy.symm.trans hafter.2.2.landed) (by simp)

theorem Inv.onStreamDone (h : s.Inv) (status : Option String) (hreg : s.registered = true)
    (hcopy : s.copy = .landed) (hfired : s.fired = false) : s.frame ≠ .destroyed ∧
      ({ s with fired := true, status := status, queued := true } : CopyRun).Inv := by
  obtain ⟨-, hframe, hcaller, hheld, hresumes, hreport, -⟩ := h.reporting (.inl ⟨hreg, hfired⟩)
  refine ⟨by simp [hframe], h.notMisused, h.source, fun hc => absurd (hreg.symm.trans hc) (by simp),
    fun _ => ?_⟩
  rw [hframe]
  refine ⟨hcaller, hheld, hresumes, ?_, fun _ => hcopy⟩
  show Reported true true s.callback
  rw [hreport.idle_of (.inl hfired)]
  exact .queued

theorem Inv.pop (h : s.Inv) (hqueued : s.queued = true) :
    ({ s with queued := false, callback := .resuming } : CopyRun).Inv := by
  obtain ⟨hreg, hframe, hcaller, hheld, hresumes, hreport, hlanded⟩ := h.reporting (.inr (.inl hqueued))
  refine ⟨h.notMisused, h.source, fun hc => absurd (hreg.symm.trans hc) (by simp), fun _ => ?_⟩
  rw [hframe]
  refine ⟨hcaller, hheld, hresumes, ?_, hlanded⟩
  show Reported s.fired false .resuming
  rw [hreport.fired_of (.inl hqueued)]
  exact .popped

theorem Inv.callbackResume (h : s.Inv) (hcallback : s.callback = .resuming) :
    ({ s.resumed .callback with callback := .inside } : CopyRun).Inv := by
  obtain ⟨hreg, hframe, hcaller, -, hresumes, hreport, hlanded⟩ :=
    h.reporting (.inr (.inr hcallback))
  rw [resumed, hframe]
  refine ⟨h.notMisused, fun _ => h.source (by simp [hframe]),
    fun hc => absurd (hreg.symm.trans hc) (by simp), fun _ => ⟨rfl, hcaller, rfl, ?_⟩⟩
  have hfired := hreport.fired_of (.inr hcallback)
  exact ⟨by simp [hresumes], hfired, hreport.notQueued_of hcallback, hlanded hfired⟩

theorem Inv.step {action : CopyAction} (h : s.Inv) (hlate : s.LateTest action)
    (hstep : s.step action = some s') : s'.Inv := by
  unfold CopyRun.step at hstep
  rw [if_neg (by simp [h.notMisused])] at hstep
  cases action with
  | test =>
    obtain ⟨hcaller, hstep⟩ := Option.ite_none_right_eq_some.mp hstep
    obtain rfl := Option.some.inj hstep
    exact h.test hcaller hlate
  | resume =>
    obtain ⟨hcaller, hstep⟩ := Option.ite_none_right_eq_some.mp hstep
    obtain rfl := Option.some.inj hstep
    exact h.resume hcaller
  | checkStop requested =>
    obtain ⟨hframe, hstep⟩ := Option.ite_none_right_eq_some.mp hstep
    have hnone : s.BeforeCallback (.starting .entry) → s.copy = .none := fun hb =>
      by_contra fun hc => by simpa using hb.2.1 hc
    split_ifs at hstep
    · obtain rfl := Option.some.inj hstep
      exact h.atStart hframe rfl rfl rfl ⟨rfl, rfl, rfl, rfl⟩ fun hb =>
        ⟨.inl rfl, by simp [finish, hnone hb]⟩
    · obtain rfl := Option.some.inj hstep
      exact h.atStart hframe rfl rfl rfl ⟨rfl, rfl, rfl, rfl⟩ fun hb =>
        ⟨hb.1, fun hc => absurd (hnone hb) hc, fun _ hc => absurd rfl hc⟩
  | acquire transfer =>
    obtain ⟨hframe, hstep⟩ := Option.ite_none_right_eq_some.mp hstep
    have hnone : s.BeforeCallback (.starting .notStopped) → s.copy = .none := fun hb =>
      by_contra fun hc => by simpa using hb.2.1 hc
    cases transfer with
    | ok =>
      obtain rfl := Option.some.inj hstep
      exact h.atStart hframe rfl rfl rfl ⟨rfl, rfl, rfl, rfl⟩ fun hb =>
        ⟨hb.1, fun hc => absurd (hnone hb) hc, fun _ _ => rfl⟩
    | error e =>
      obtain rfl := Option.some.inj hstep
      exact h.atStart hframe rfl rfl rfl ⟨rfl, rfl, rfl, rfl⟩ fun hb =>
        ⟨.inl rfl, by simp [finish, hnone hb]⟩
  | memcpyAsync status =>
    obtain ⟨hframe, hstep⟩ := Option.ite_none_right_eq_some.mp hstep
    have hnone : s.BeforeCallback (.starting .acquired) → s.copy = .none := fun hb =>
      by_contra fun hc => by simpa using hb.2.1 hc
    cases status with
    | none =>
      obtain rfl := Option.some.inj hstep
      exact h.atStart hframe rfl rfl rfl ⟨rfl, rfl, rfl, rfl⟩ fun hb =>
        ⟨hb.1, fun _ => .inl rfl, fun _ _ => hb.2.2 (by simp) (by simp)⟩
    | some text =>
      obtain rfl := Option.some.inj hstep
      exact h.atStart hframe rfl rfl rfl ⟨rfl, rfl, rfl, rfl⟩ fun hb =>
        ⟨rfl, hb.1, by simp [hnone hb]⟩
  | addCallback status =>
    obtain ⟨hframe, hstep⟩ := Option.ite_none_right_eq_some.mp hstep
    cases status with
    | none =>
      obtain rfl := Option.some.inj hstep
      exact h.addCallback hframe
    | some text =>
      obtain rfl := Option.some.inj hstep
      exact h.atStart hframe rfl rfl rfl ⟨rfl, rfl, rfl, rfl⟩ fun hb =>
        ⟨hb.1, fun _ => .inr rfl, fun _ _ => hb.2.2 (by simp) (by simp)⟩
  | synchronize =>
    obtain ⟨⟨hframe, hcopy⟩, hstep⟩ := Option.ite_none_right_eq_some.mp hstep
    obtain rfl := Option.some.inj hstep
    exact h.atStart hframe rfl rfl rfl ⟨rfl, rfl, rfl, rfl⟩ fun hb => ⟨rfl, hb.1, by simp [hcopy]⟩
  | suspendReturn =>
    obtain ⟨hcaller, hstep⟩ := Option.ite_none_right_eq_some.mp hstep
    obtain rfl := Option.some.inj hstep
    exact h.suspendReturn hcaller
  | coReturn =>
    dsimp only at hstep
    split at hstep
    · rename_i runner hframe
      obtain rfl := Option.some.inj hstep
      exact h.coReturn hframe
    · cases hstep
  | take =>
    obtain ⟨hcaller, hstep⟩ := Option.ite_none_right_eq_some.mp hstep
    obtain rfl := Option.some.inj hstep
    exact h.take hcaller
  | complete =>
    obtain ⟨hcopy, hstep⟩ := Option.ite_none_right_eq_some.mp hstep
    obtain rfl := Option.some.inj hstep
    exact h.complete hcopy
  | onStreamDone status =>
    obtain ⟨⟨hreg, hcopy, hfired⟩, hstep⟩ := Option.ite_none_right_eq_some.mp hstep
    obtain ⟨hframe, hinv⟩ := h.onStreamDone status hreg hcopy hfired
    rw [if_neg hframe] at hstep
    obtain rfl := Option.some.inj hstep
    exact hinv
  | pop =>
    obtain ⟨⟨-, hqueued⟩, hstep⟩ := Option.ite_none_right_eq_some.mp hstep
    obtain rfl := Option.some.inj hstep
    exact h.pop hqueued
  | callbackResume =>
    obtain ⟨hcallback, hstep⟩ := Option.ite_none_right_eq_some.mp hstep
    obtain rfl := Option.some.inj hstep
    exact h.callbackResume hcallback

end Steps

/-! ### Every run -/

/-- In every run in which the loop of `SyncAwaitable` comes late enough, the copy has one
resumer. -/
theorem singleResumer_of_lateTest {s : CopyRun}
    (h : Transition.Reachable step LateTest start s) : s.SingleResumer :=
  (h.invariant inv_start fun _ _ _ hinv hlate hstep => hinv.step hlate hstep).singleResumer

section Early

variable {s : CopyRun} (hsane : s.misused = false)
include hsane

theorem step_resume (hcaller : s.caller = .resuming) :
    s.step .resume = some { s.resumed .caller with caller := .inside } := by
  simp [step, hsane, hcaller]

theorem step_pop (hidle : s.callback = .idle) (hqueued : s.queued = true) :
    s.step .pop = some { s with queued := false, callback := .resuming } := by
  simp [step, hsane, hidle, hqueued]

variable (hcaller : s.caller = .resuming)
include hcaller

/-- The callback thread runs the coroutine that the caller resumes. -/
theorem resume_running {runner : Resumer} (hframe : s.frame = .continuing runner) :
    ∃ s', Transition.run step s [.resume] = some s' ∧ ¬s'.SingleResumer := by
  refine ⟨{ s with misused := true, caller := .inside }, ?_, fun hs => by cases hs.notMisused⟩
  rw [Transition.run_cons, step_resume hsane hcaller, resumed, hframe]
  rfl

/-- The caller is the first to resume the coroutine, with the copy still under way. -/
theorem resume_before_callback (hframe : s.frame = .awaiting) (hfired : s.fired = false) :
    ∃ s', Transition.run step s [.resume] = some s' ∧ ¬s'.SingleResumer := by
  refine ⟨{ s with frame := .continuing .caller, resumes := s.resumes + 1, caller := .inside }, ?_,
    fun hs => ?_⟩
  · rw [Transition.run_cons, step_resume hsane hcaller, resumed, hframe]
    rfl
  · exact absurd (hfired.symm.trans (hs.afterCallback (Nat.succ_pos _))) (by simp)

/-- The callback thread has the report and resumes the coroutine a second time. -/
theorem resume_twice (hframe : s.frame = .awaiting) (hcallback : s.callback = .resuming) :
    ∃ s', Transition.run step s [.resume, .callbackResume] = some s' ∧ ¬s'.SingleResumer := by
  refine ⟨{ s with
    frame := .continuing .caller
    resumes := s.resumes + 1
    caller := .inside
    misused := true
    callback := .inside }, ?_, fun hs => by cases hs.notMisused⟩
  simp [step, resumed, hsane, hcaller, hframe, hcallback]

end Early

/-- Where the loop comes earlier, the caller's own resume, or that of the callback thread after it,
breaks the rule. -/
theorem earlyTest_breaks {s s' : CopyRun} (h : Transition.Reachable step LateTest start s)
    (hearly : ¬s.LateTest .test) (hstep : s.step .test = some s') :
    ∃ actions s'', Transition.run step s' actions = some s'' ∧ ¬s''.SingleResumer := by
  have hinv := h.invariant inv_start fun _ _ _ hinv hlate hstep => hinv.step hlate hstep
  have hsane := hinv.notMisused
  obtain ⟨hreg, hframe⟩ : s.registered = true ∧ s.frame ≠ .finished := Classical.not_imp.mp hearly
  have hafter := hinv.registered hreg
  have hready : s.caller ≠ .ready := by
    intro hready
    cases hf : s.frame <;> simp [hf, AfterCallback, hready] at hafter
  obtain ⟨htesting, rfl⟩ : s.caller = .testing ∧ s' = { s with caller := .resuming } := by
    simpa [step, hsane, hready, hframe, eq_comm] using hstep
  have hunder : (∃ runner, s.frame = .continuing runner) ∨ s.frame = .awaiting ∧
      Reported s.fired s.queued s.callback := by
    cases hf : s.frame with
    | created => simp [hf, AfterCallback] at hafter
    | starting point => simp [hf, AfterCallback] at hafter
    | finished => exact absurd hf hframe
    | destroyed => simp [hf, AfterCallback, htesting] at hafter
    | continuing runner => exact .inl ⟨runner, rfl⟩
    | awaiting =>
      rw [hf] at hafter
      exact .inr ⟨rfl, hafter.2.2.2.1⟩
  rcases hunder with ⟨runner, hf⟩ | ⟨hf, hreport⟩
  · exact ⟨[.resume], resume_running hsane rfl hf⟩
  rcases hreport.whose with hfired | hpopped | ⟨hqueued, hidle⟩
  · exact ⟨[.resume], resume_before_callback hsane rfl hf hfired⟩
  · exact ⟨[.resume, .callbackResume], resume_twice hsane rfl hf hpopped⟩
  · obtain ⟨s'', hrun, hbreaks⟩ := resume_twice
      (s := { s with caller := .resuming, queued := false, callback := .resuming }) hsane rfl hf rfl
    have hpop := step_pop (s := { s with caller := .resuming }) hsane hidle hqueued
    refine ⟨[.pop, .resume, .callbackResume], s'', ?_, hbreaks⟩
    rw [Transition.run_cons, hpop]
    exact hrun

/-- The callback thread has finished the coroutine before the caller comes back to its loop. -/
def quickCopy : List CopyAction :=
  [.test, .test, .resume, .checkStop false, .acquire (.ok ()), .memcpyAsync none,
    .addCallback none, .complete, .onStreamDone none, .pop, .callbackResume, .coReturn,
    .suspendReturn, .test, .take]

theorem singleResumer_quickCopy :
    ∃ s : CopyRun, Transition.run (fun s a => if s.LateTest a then s.step a else none) start
        quickCopy = some s ∧ s.frame = .destroyed ∧ s.resumes = 1 ∧ s.SingleResumer :=
  ⟨_, rfl, rfl, rfl, singleResumer_of_lateTest (.of_run step quickCopy rfl)⟩

/-- The copy is slower: the loop resumes the coroutine, takes its result and destroys it. -/
def slowCopy : List CopyAction :=
  [.test, .test, .resume, .checkStop false, .acquire (.ok ()), .memcpyAsync none,
    .addCallback none, .suspendReturn, .test, .resume, .coReturn, .test, .take]

/-- Both slabs are back in their pools with the copy in flight, and the completion callback then
reads the frame that is gone. -/
theorem slowCopy_resumed_early :
    ∃ s s' : CopyRun, Transition.run step start slowCopy = some s ∧
      Transition.run step s [.complete, .onStreamDone none] = some s' ∧
      s.copy = .inFlight ∧ s.sourceHeld = false ∧ s.transferHeld = false ∧ s.resumes = 1 ∧
      s.fired = false ∧ ¬s.SingleResumer ∧ s'.misused = true ∧ ¬s'.SingleResumer :=
  ⟨_, _, rfl, rfl, rfl, rfl, rfl, rfl, rfl, fun h => absurd (h.afterCallback (by decide)) (by decide),
    rfl, fun h => absurd h.notMisused (by decide)⟩

end CopyRun

end SurfaceAi.Runtime
