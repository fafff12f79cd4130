import SurfaceAi.Core.Error
import SurfaceAi.Library.Transition
import Mathlib.Data.List.Pairwise
import Mathlib.Data.List.Range

/-! The context assembles its modules, starts them and stops them in reverse order. The
documented life cycle is a line of states; which of them a call leaves the context in is compared
with it. -/

namespace SurfaceAi

inductive LifecycleState where
  | created
  | initialized
  | running
  | stopped
  | destroyed
  deriving DecidableEq

inductive Hook where
  | onInitialize
  | onStart
  | onStop
  deriving DecidableEq

/-- A call of a module's hook. A module is its place in the order of registration. -/
structure HookCall where
  hook : Hook
  module : ℕ
  result : Result Unit

/-- The context, with the modules by their number. Beside it stand the hook calls so far and
whether a `Start` has succeeded. -/
structure Context where
  state : LifecycleState
  registered : ℕ
  trace : List HookCall
  started : Bool

/-- A call of the context, with what the hook of each module returns to it. -/
inductive ContextCall where
  | registerModule
  | initializeModules (outcome : ℕ → Result Unit)
  | startModules (outcome : ℕ → Result Unit)
  | stopModules (outcome : ℕ → Result Unit)

namespace Context

def new : Context := ⟨.created, 0, [], false⟩

/-- The hooks that a loop calls that ends at the first failure. -/
def hookCalls (hook : Hook) (outcome : ℕ → Result Unit) : List ℕ → List HookCall
  | [] => []
  | m :: ms =>
    ⟨hook, m, outcome m⟩ :: if hasValue (outcome m) then hookCalls hook outcome ms else []

variable (s : Context)

def modules : List ℕ := List.range s.registered

def registerModule : Result Unit × Context :=
  if s.state ≠ .created then
    (fail .lifecycleRegisterAfterAssembly "cannot register a module after assembly", s)
  else (.ok (), { s with registered := s.registered + 1 })

/-- `Initialize`. -/
def initializeModules (outcome : ℕ → Result Unit) : Result Unit × Context :=
  let s' := { s with trace := s.trace ++ hookCalls .onInitialize outcome s.modules }
  match checkAll outcome s.modules with
  | .error e => (.error e, s')
  | .ok () => (.ok (), { s' with state := .initialized })

/-- `Start`. -/
def startModules (outcome : ℕ → Result Unit) : Result Unit × Context :=
  let s' := { s with trace := s.trace ++ hookCalls .onStart outcome s.modules }
  match checkAll outcome s.modules with
  | .error e => (.error e, s')
  | .ok () => (.ok (), { s' with state := .running, started := true })

/-- `Stop`: it goes on after a failure and returns the first one. -/
def stopModules (outcome : ℕ → Result Unit) : Result Unit × Context :=
  let firstError := s.modules.reverse.foldl (fun firstError m =>
    if !hasValue (outcome m) && hasValue firstError then outcome m else firstError) (.ok ())
  (firstError, { s with
    state := .stopped
    trace := s.trace ++ s.modules.reverse.map fun m => ⟨.onStop, m, outcome m⟩ })

def step : ContextCall → Option Context
  | .registerModule => some s.registerModule.2
  | .initializeModules outcome => some (s.initializeModules outcome).2
  | .startModules outcome => some (s.startModules outcome).2
  | .stopModules outcome => some (s.stopModules outcome).2

/-- The documented transitions. A call in another state, and one that fails, leaves it. -/
def documented : ContextCall → LifecycleState
  | .registerModule => s.state
  | .initializeModules outcome =>
    if s.state = .created ∧ ∀ m ∈ s.modules, outcome m = .ok () then .initialized else s.state
  | .startModules outcome =>
    if s.state = .initialized ∧ ∀ m ∈ s.modules, outcome m = .ok () then .running else s.state
  | .stopModules _ => if s.state = .running then .stopped else s.state

/-- `OnInitialize` has succeeded of every module. -/
def AllInitialized : Prop := ∀ m ∈ s.modules, (⟨.onInitialize, m, .ok ()⟩ : HookCall) ∈ s.trace

/-- The modules whose `OnStop` was called, in order. -/
def stopCalls : List ℕ := (s.trace.filter (·.hook = .onStop)).map HookCall.module

/-- A call is as the life cycle has it: the state goes along the documented transitions;
`OnStart` is called only after every module's `OnInitialize` succeeded and `OnStop` only after a
`Start` that succeeded, on no module twice and in reverse order. -/
structure Linear (call : ContextCall) (s' : Context) : Prop where
  state : s'.state = s.documented call
  starts : ∀ c ∈ s'.trace.drop s.trace.length, c.hook = .onStart → s.AllInitialized
  stops : ∀ c ∈ s'.trace.drop s.trace.length, c.hook = .onStop → s.started = true
  stopOrder : s'.stopCalls.Pairwise (· > ·)

/-- A call in a state in which it goes along the line, or one that fails where it would go back. -/
def Admits : ContextCall → Prop
  | .registerModule => True
  | .initializeModules outcome => s.state = .created ∨ s.state = .initialized ∨
      ∃ m ∈ s.modules, outcome m ≠ .ok ()
  | .startModules outcome => s.state = .initialized ∨ s.state = .running ∨
      s.state = .stopped ∧ ∃ m ∈ s.modules, outcome m ≠ .ok ()
  | .stopModules _ => s.state = .running ∨ s.state = .stopped ∧ s.modules = []

/-! ### The hooks of one call -/

section Hooks

variable {hook : Hook} {outcome : ℕ → Result Unit} {ms : List ℕ} {c : HookCall}

theorem mem_hookCalls (h : c ∈ hookCalls hook outcome ms) :
    c.hook = hook ∧ c.module ∈ ms ∧ c.result = outcome c.module := by
  induction ms with
  | nil => cases h
  | cons m ms ih =>
    rcases List.mem_cons.mp h with rfl | hrest
    · exact ⟨rfl, List.mem_cons_self, rfl⟩
    · split_ifs at hrest
      · obtain ⟨hhook, hmem, hresult⟩ := ih hrest
        exact ⟨hhook, List.mem_cons_of_mem _ hmem, hresult⟩
      · cases hrest

/-- A loop that succeeds has called every hook. -/
theorem mem_hookCalls_of_ok (h : ∀ m ∈ ms, outcome m = .ok ()) {m : ℕ} (hm : m ∈ ms) :
    ⟨hook, m, .ok ()⟩ ∈ hookCalls hook outcome ms := by
  induction ms with
  | nil => cases hm
  | cons a ms ih =>
    have ha := h a List.mem_cons_self
    rw [hookCalls, ha]
    rcases List.mem_cons.mp hm with rfl | hrest
    · exact List.mem_cons_self
    · exact List.mem_cons_of_mem _ (ih (fun m hm => h m (List.mem_cons_of_mem _ hm)) hrest)

/-- A loop that fails has not succeeded with the last hook. -/
theorem last_not_mem_hookCalls (hms : ms.Nodup) (h : ∃ m ∈ ms, outcome m ≠ .ok ()) {last : ℕ}
    (hlast : ms.getLast? = some last) :
    (⟨hook, last, .ok ()⟩ : HookCall) ∉ hookCalls hook outcome ms := by
  induction ms with
  | nil => cases hlast
  | cons a ms ih =>
    obtain ⟨hfresh, hms⟩ := List.nodup_cons.mp hms
    intro hmem
    rcases List.mem_cons.mp hmem with heq | hrest
    · obtain ⟨-, rfl, hok⟩ := HookCall.mk.inj heq
      have hnil : ms = [] := by
        by_contra hne
        rw [List.getLast?_cons_of_ne_nil hne] at hlast
        exact hfresh (List.mem_of_getLast? hlast)
      obtain ⟨m, hm, hfails⟩ := h
      rw [hnil, List.mem_singleton] at hm
      rw [hm] at hfails
      exact hfails hok.symm
    · split_ifs at hrest with hok
      · have hne : ms ≠ [] := by
          rintro rfl
          cases hrest
        rw [List.getLast?_cons_of_ne_nil hne] at hlast
        refine ih hms ?_ hlast hrest
        obtain ⟨m, hm, hfails⟩ := h
        rcases List.mem_cons.mp hm with rfl | hm
        · obtain ⟨u, hu⟩ := hasValue_iff.mp hok
          exact absurd hu hfails
        · exact ⟨m, hm, hfails⟩
      · cases hrest

end Hooks

variable {s} {outcome : ℕ → Result Unit}

theorem initializeModules_snd : (s.initializeModules outcome).2 = { s with
    state := if ∀ m ∈ s.modules, outcome m = .ok () then .initialized else s.state
    trace := s.trace ++ hookCalls .onInitialize outcome s.modules } := by
  rw [initializeModules]
  cases hresult : checkAll outcome s.modules with
  | error e => rw [if_neg fun hall => by simp [checkAll_eq_ok.mpr hall] at hresult]
  | ok u => rw [if_pos (checkAll_eq_ok.mp hresult)]

theorem startModules_snd : (s.startModules outcome).2 = { s with
    state := if ∀ m ∈ s.modules, outcome m = .ok () then .running else s.state
    started := if ∀ m ∈ s.modules, outcome m = .ok () then true else s.started
    trace := s.trace ++ hookCalls .onStart outcome s.modules } := by
  rw [startModules]
  cases hresult : checkAll outcome s.modules with
  | error e =>
    have hfails : ¬∀ m ∈ s.modules, outcome m = .ok () := fun hall => by
      simp [checkAll_eq_ok.mpr hall] at hresult
    simp only [if_neg hfails]
  | ok u => simp only [if_pos (checkAll_eq_ok.mp hresult)]

/-- Hooks of the assembly are no stops. -/
theorem stopCalls_of_hookCalls {s' : Context} {hook : Hook} (hhook : hook ≠ .onStop)
    (htrace : s'.trace = s.trace ++ hookCalls hook outcome s.modules) :
    s'.stopCalls = s.stopCalls := by
  have hnone : (hookCalls hook outcome s.modules).filter (·.hook = .onStop) = [] := by
    rw [List.filter_eq_nil_iff]
    intro c hc
    simpa [(mem_hookCalls hc).1] using hhook
  rw [stopCalls, htrace, List.filter_append, hnone, List.append_nil]
  rfl

theorem stopCalls_stopModules :
    (s.stopModules outcome).2.stopCalls = s.stopCalls ++ s.modules.reverse := by
  have hall : (s.modules.reverse.map fun m => (⟨.onStop, m, outcome m⟩ : HookCall)).filter
      (·.hook = .onStop) = s.modules.reverse.map fun m => ⟨.onStop, m, outcome m⟩ := by
    rw [List.filter_eq_self]
    intro c hc
    obtain ⟨m, -, rfl⟩ := List.mem_map.mp hc
    rfl
  rw [stopModules, stopCalls, List.filter_append, hall, List.map_append, List.map_map]
  exact congrArg _ (List.map_id _)

theorem modules_decreasing : s.modules.reverse.Pairwise (· > ·) :=
  List.pairwise_reverse.mpr List.pairwise_lt_range

/-- A context that has gone along the line so far. In the state `created` a module is not
initialized, as the last hook has not succeeded. -/
structure Assembled (s : Context) : Prop where
  state : s.state ≠ .destroyed
  known : ∀ c ∈ s.trace, c.module < s.registered
  created : s.state = .created → ∀ last, last + 1 = s.registered →
    (⟨.onInitialize, last, .ok ()⟩ : HookCall) ∉ s.trace
  allInitialized : s.state ≠ .created → s.AllInitialized
  started : s.state = .running ∨ s.state = .stopped → s.started = true
  notStopped : s.state ≠ .stopped → s.stopCalls = []
  stopped : s.state = .stopped → s.stopCalls = s.modules.reverse

theorem assembled_new : new.Assembled where
  state := by simp [new]
  known _ h := by cases h
  created _ _ _ h := by cases h
  allInitialized h := absurd rfl h
  started h := by simp [new] at h
  notStopped _ := rfl
  stopped h := by simp [new] at h

theorem Assembled.stopOrder (h : s.Assembled) : s.stopCalls.Pairwise (· > ·) := by
  by_cases hstopped : s.state = .stopped
  · rw [h.stopped hstopped]
    exact modules_decreasing
  · rw [h.notStopped hstopped]
    exact List.Pairwise.nil

/-- In the state `created` there is no module, or one that is not initialized. -/
theorem Assembled.not_allInitialized (h : s.Assembled) (hcreated : s.state = .created)
    (hsome : s.modules ≠ []) : ¬s.AllInitialized := by
  intro hall
  obtain ⟨last, hlast⟩ : ∃ last, last + 1 = s.registered := by
    refine ⟨s.registered - 1, Nat.sub_add_cancel (Nat.pos_of_ne_zero fun hzero => hsome ?_)⟩
    rw [modules, hzero]
    rfl
  exact h.created hcreated last hlast (hall last (List.mem_range.mpr (by omega)))

/-! ### One call -/

theorem linear_registerModule (h : s.Assembled) :
    s.Linear .registerModule s.registerModule.2 := by
  rw [registerModule]
  split_ifs
  · exact ⟨rfl, by simp, by simp, h.stopOrder⟩
  · exact ⟨rfl, by simp, by simp, h.stopOrder⟩

theorem Assembled.registerModule (h : s.Assembled) : s.registerModule.2.Assembled := by
  rw [Context.registerModule]
  split_ifs with hstate
  · exact h
  · have hcreated : s.state = .created := not_not.mp hstate
    have hstopped : s.state ≠ .stopped := by simp [hcreated]
    refine ⟨h.state, fun c hc => Nat.lt_succ_of_lt (h.known c hc), fun _ last hlast hmem => ?_,
      fun hs => absurd hcreated hs, h.started, h.notStopped, fun hs => absurd hs hstopped⟩
    -- the new module was not called yet
    have hknown := h.known _ hmem
    have hlast : last + 1 = s.registered + 1 := hlast
    have hknown : last < s.registered := hknown
    omega

theorem linear_initializeModules_iff (h : s.Assembled) :
    s.Linear (.initializeModules outcome) (s.initializeModules outcome).2 ↔
      s.Admits (.initializeModules outcome) := by
  rw [initializeModules_snd]
  constructor
  · intro hlinear
    have hstate := hlinear.state
    simp only [documented] at hstate
    by_cases hall : ∀ m ∈ s.modules, outcome m = .ok ()
    · by_cases hcreated : s.state = .created
      · exact .inl hcreated
      · rw [if_pos hall, if_neg fun hboth => hcreated hboth.1] at hstate
        exact .inr (.inl hstate.symm)
    · exact .inr (.inr (by simpa using hall))
  · intro hadmits
    refine ⟨?_, fun c hc hstart => ?_, fun c hc hstop => ?_, ?_⟩
    · simp only [documented]
      rcases hadmits with hcreated | hinitialized | ⟨m, hm, hfails⟩
      · simp only [hcreated, true_and]
      · simp [hinitialized]
      · have hall : ¬∀ m ∈ s.modules, outcome m = .ok () := fun hall => hfails (hall m hm)
        rw [if_neg hall, if_neg fun hboth => hall hboth.2]
    · rw [List.drop_left] at hc
      rw [(mem_hookCalls hc).1] at hstart
      cases hstart
    · rw [List.drop_left] at hc
      rw [(mem_hookCalls hc).1] at hstop
      cases hstop
    · rw [stopCalls_of_hookCalls (by simp) rfl]
      exact h.stopOrder

/-- What the assembly keeps when hooks of modules that are there are called. -/
theorem Assembled.known_append (h : s.Assembled) {hook : Hook} :
    ∀ c ∈ s.trace ++ hookCalls hook outcome s.modules, c.module < s.registered := by
  intro c hc
  rcases List.mem_append.mp hc with hold | hnew
  · exact h.known c hold
  · exact List.mem_range.mp (mem_hookCalls hnew).2.1

theorem Assembled.initializeModules (h : s.Assembled)
    (hadmits : s.Admits (.initializeModules outcome)) :
    (s.initializeModules outcome).2.Assembled := by
  rw [initializeModules_snd]
  have hstops : ({ s with
      state := if ∀ m ∈ s.modules, outcome m = .ok () then .initialized else s.state
      trace := s.trace ++ hookCalls .onInitialize outcome s.modules } : Context).stopCalls =
      s.stopCalls :=
    stopCalls_of_hookCalls (by simp) rfl
  by_cases hall : ∀ m ∈ s.modules, outcome m = .ok ()
  · have hnotStopped : s.state ≠ .stopped := by
      rcases hadmits with hcreated | hinitialized | ⟨m, hm, hfails⟩
      · simp [hcreated]
      · simp [hinitialized]
      · exact absurd (hall m hm) hfails
    rw [if_pos hall] at hstops ⊢
    refine ⟨by simp, h.known_append, by simp, fun _ m hm => ?_, by simp, fun _ => ?_, by simp⟩
    · exact List.mem_append_right _ (mem_hookCalls_of_ok hall hm)
    · exact hstops.trans (h.notStopped hnotStopped)
  · rw [if_neg hall] at hstops ⊢
    refine ⟨h.state, h.known_append, fun hcreated last hlast hmem => ?_, fun hcreated m hm => ?_,
      h.started, fun hstopped => hstops.trans (h.notStopped hstopped),
      fun hstopped => hstops.trans (h.stopped hstopped)⟩
    · rcases List.mem_append.mp hmem with hold | hnew
      · exact h.created hcreated last hlast hold
      · refine last_not_mem_hookCalls List.nodup_range (by simpa [modules] using hall) ?_ hnew
        have hlast : last + 1 = s.registered := hlast
        rw [← hlast, List.range_succ, List.getLast?_concat]
    · exact List.mem_append_left _ (h.allInitialized hcreated m hm)

theorem linear_startModules_iff (h : s.Assembled) :
    s.Linear (.startModules outcome) (s.startModules outcome).2 ↔
      s.Admits (.startModules outcome) := by
  rw [startModules_snd]
  constructor
  · intro hlinear
    have hstate := hlinear.state
    simp only [documented] at hstate
    cases hs : s.state with
    | initialized => exact .inl hs
    | running => exact .inr (.inl hs)
    | destroyed => exact absurd hs h.state
    | stopped =>
      refine .inr (.inr ⟨hs, ?_⟩)
      by_contra hnone
      push Not at hnone
      rw [if_pos hnone, if_neg (by simp [hs]), hs] at hstate
      cases hstate
    | created =>
      -- the first `OnStart` is called too early, or the state skips one
      exfalso
      by_cases hsome : s.modules = []
      · rw [if_pos (by simp [hsome]), if_neg (by simp [hs]), hs] at hstate
        cases hstate
      · obtain ⟨m, ms, hms⟩ := List.exists_cons_of_ne_nil hsome
        have hfirst : (⟨.onStart, m, outcome m⟩ : HookCall) ∈
            (s.trace ++ hookCalls .onStart outcome s.modules).drop s.trace.length := by
          rw [List.drop_left, hms]
          exact List.mem_cons_self
        exact h.not_allInitialized hs hsome (hlinear.starts _ hfirst rfl)
  · intro hadmits
    have hnotCreated : s.state ≠ .created := by
      rcases hadmits with hs | hs | ⟨hs, -⟩ <;> simp [hs]
    refine ⟨?_, fun _ _ _ => h.allInitialized hnotCreated, fun c hc hstop => ?_, ?_⟩
    · simp only [documented]
      rcases hadmits with hinitialized | hrunning | ⟨-, m, hm, hfails⟩
      · simp only [hinitialized, true_and]
      · simp [hrunning]
      · have hall : ¬∀ m ∈ s.modules, outcome m = .ok () := fun hall => hfails (hall m hm)
        rw [if_neg hall, if_neg fun hboth => hall hboth.2]
    · rw [List.drop_left] at hc
      rw [(mem_hookCalls hc).1] at hstop
      cases hstop
    · rw [stopCalls_of_hookCalls (by simp) rfl]
      exact h.stopOrder

theorem Assembled.startModules (h : s.Assembled) (hadmits : s.Admits (.startModules outcome)) :
    (s.startModules outcome).2.Assembled := by
  rw [startModules_snd]
  have hnotCreated : s.state ≠ .created := by
    rcases hadmits with hs | hs | ⟨hs, -⟩ <;> simp [hs]
  have hinitialized : ∀ m ∈ s.modules, (⟨.onInitialize, m, .ok ()⟩ : HookCall) ∈
      s.trace ++ hookCalls .onStart outcome s.modules := fun m hm =>
    List.mem_append_left _ (h.allInitialized hnotCreated m hm)
  have hstops : ({ s with
      state := if ∀ m ∈ s.modules, outcome m = .ok () then .running else s.state
      started := if ∀ m ∈ s.modules, outcome m = .ok () then true else s.started
      trace := s.trace ++ hookCalls .onStart outcome s.modules } : Context).stopCalls =
      s.stopCalls :=
    stopCalls_of_hookCalls (by simp) rfl
  by_cases hall : ∀ m ∈ s.modules, outcome m = .ok ()
  · have hnotStopped : s.state ≠ .stopped := by
      rcases hadmits with hs | hs | ⟨-, m, hm, hfails⟩
      · simp [hs]
      · simp [hs]
      · exact absurd (hall m hm) hfails
    simp only [if_pos hall] at hstops ⊢
    exact ⟨by simp, h.known_append, by simp, fun _ => hinitialized, fun _ => rfl,
      fun _ => hstops.trans (h.notStopped hnotStopped), by simp⟩
  · simp only [if_neg hall] at hstops ⊢
    exact ⟨h.state, h.known_append, fun hcreated => absurd hcreated hnotCreated,
      fun _ => hinitialized, h.started, fun hs => hstops.trans (h.notStopped hs),
      fun hs => hstops.trans (h.stopped hs)⟩

theorem linear_stopModules_iff (h : s.Assembled) :
    s.Linear (.stopModules outcome) (s.stopModules outcome).2 ↔
      s.Admits (.stopModules outcome) := by
  constructor
  · intro hlinear
    have hstate : LifecycleState.stopped = s.documented (.stopModules outcome) := hlinear.state
    simp only [documented] at hstate
    by_cases hrunning : s.state = .running
    · exact .inl hrunning
    · rw [if_neg hrunning] at hstate
      refine .inr ⟨hstate.symm, ?_⟩
      -- a second `OnStop` of the last module is out of order
      have horder := hlinear.stopOrder
      rw [stopCalls_stopModules, h.stopped hstate.symm, List.pairwise_append] at horder
      rw [List.eq_nil_iff_forall_not_mem]
      intro m hm
      have hm : m ∈ s.modules.reverse := List.mem_reverse.mpr hm
      exact lt_irrefl m (horder.2.2 m hm m hm)
  · intro hadmits
    have hstarted : s.started = true := h.started (hadmits.imp_right And.left)
    refine ⟨?_, fun c hc hstart => ?_, fun _ _ _ => hstarted, ?_⟩
    · show LifecycleState.stopped = s.documented (.stopModules outcome)
      rcases hadmits with hs | ⟨hs, -⟩ <;> simp [documented, hs]
    · have hc : c ∈ (s.trace ++ _).drop s.trace.length := hc
      rw [List.drop_left] at hc
      obtain ⟨m, -, rfl⟩ := List.mem_map.mp hc
      cases hstart
    · rw [stopCalls_stopModules]
      rcases hadmits with hs | ⟨-, hnone⟩
      · rw [h.notStopped (by simp [hs]), List.nil_append]
        exact modules_decreasing
      · rw [hnone, List.reverse_nil, List.append_nil]
        exact h.stopOrder

theorem Assembled.stopModules (h : s.Assembled) (hadmits : s.Admits (.stopModules outcome)) :
    (s.stopModules outcome).2.Assembled := by
  have hnotCreated : s.state ≠ .created := by
    rcases hadmits with hs | ⟨hs, -⟩ <;> simp [hs]
  refine ⟨by simp [Context.stopModules], fun c hc => ?_, by simp [Context.stopModules],
    fun _ m hm => List.mem_append_left _ (h.allInitialized hnotCreated m hm),
    fun _ => h.started (hadmits.imp_right And.left), fun hs => absurd rfl hs, fun _ => ?_⟩
  · rcases List.mem_append.mp hc with hold | hnew
    · exact h.known c hold
    · obtain ⟨m, hm, rfl⟩ := List.mem_map.mp hnew
      exact List.mem_range.mp (List.mem_reverse.mp hm)
  · rw [stopCalls_stopModules]
    rcases hadmits with hs | ⟨hs, hnone⟩
    · rw [h.notStopped (by simp [hs]), List.nil_append]
      rfl
    · have hsame : (s.stopModules outcome).2.modules = s.modules := rfl
      rw [h.stopped hs, hsame, hnone]
      rfl

/-- A run of calls is along the documented life cycle if and only if no call starts or stops out
of turn and none that succeeds goes back: `Initialize` after `Running` and `Start` after `Stopped`
only where a hook fails, `Start` only once initialized, and `Stop` only while running, or again
without modules. -/
theorem linear_iff_admits (calls : List ContextCall) :
    Transition.Along step (fun s call s' => s.Linear call s') new calls ↔
      Transition.Along step (fun s call _ => s.Admits call) new calls := by
  have hlinear : ∀ s call s', Assembled s → step s call = some s' →
      (s.Linear call s' ↔ s.Admits call) := by
    intro s call s' h hstep
    cases call with
    | registerModule =>
      obtain rfl := Option.some.inj hstep
      exact iff_of_true (linear_registerModule h) trivial
    | initializeModules outcome =>
      obtain rfl := Option.some.inj hstep
      exact linear_initializeModules_iff h
    | startModules outcome =>
      obtain rfl := Option.some.inj hstep
      exact linear_startModules_iff h
    | stopModules outcome =>
      obtain rfl := Option.some.inj hstep
      exact linear_stopModules_iff h
  refine Transition.along_iff hlinear ?_ assembled_new calls
  intro s call s' h hstep hgood
  have hadmits := (hlinear s call s' h hstep).mp hgood
  cases call with
  | registerModule =>
    obtain rfl := Option.some.inj hstep
    exact h.registerModule
  | initializeModules outcome =>
    obtain rfl := Option.some.inj hstep
    exact h.initializeModules hadmits
  | startModules outcome =>
    obtain rfl := Option.some.inj hstep
    exact h.startModules hadmits
  | stopModules outcome =>
    obtain rfl := Option.some.inj hstep
    exact h.stopModules hadmits

/-- A module is started that was never initialized, and stopped twice. -/
theorem unguarded_calls :
    ¬Transition.Along step (fun s call s' => s.Linear call s') new
        [.registerModule, .startModules fun _ => .ok ()] ∧
    ¬Transition.Along step (fun s call s' => s.Linear call s') new
        [.registerModule, .initializeModules fun _ => .ok (), .startModules fun _ => .ok (),
          .stopModules fun _ => .ok (), .stopModules fun _ => .ok ()] := by
  constructor
  · intro h
    obtain ⟨-, h⟩ := h _ rfl
    obtain ⟨h, -⟩ := h _ rfl
    exact absurd h.state (by decide)
  · intro h
    obtain ⟨-, h⟩ := h _ rfl
    obtain ⟨-, h⟩ := h _ rfl
    obtain ⟨-, h⟩ := h _ rfl
    obtain ⟨-, h⟩ := h _ rfl
    obtain ⟨h, -⟩ := h _ rfl
    exact absurd h.stopOrder (by decide)

end Context

end SurfaceAi
