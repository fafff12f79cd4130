import Mathlib.Data.List.Induction

/-! Transition systems given by a partial step function. A run replays a list of actions;
a state is reachable by the steps a guard admits. An invariant is proved once for a
step. -/

namespace Transition

variable {S A : Type*} (step : S → A → Option S)

/-- Replay the actions in order. -/
def run (s : S) (actions : List A) : Option S := actions.foldlM step s

@[simp] theorem run_nil (s : S) : run step s [] = some s := rfl

@[simp] theorem run_cons (s : S) (a : A) (actions : List A) :
    run step s (a :: actions) = (step s a).bind fun s' => run step s' actions := rfl

theorem run_append (s : S) (xs ys : List A) :
    run step s (xs ++ ys) = (run step s xs).bind fun s' => run step s' ys := by
  rw [run, List.foldlM_append]
  rfl

/-- What holds at the start, with no action taken, and is kept by every further action. -/
theorem run_induction {P : List A → S → Prop} {start : S} (hstart : P [] start)
    (hstep : ∀ actions s a s', P actions s → step s a = some s' → P (actions ++ [a]) s')
    {actions : List A} {s : S} (h : run step start actions = some s) : P actions s := by
  induction actions using List.reverseRecOn generalizing s with
  | nil =>
    obtain rfl := Option.some.inj h
    exact hstart
  | append_singleton actions a ih =>
    rw [run_append, Option.bind_eq_some_iff] at h
    obtain ⟨s', hs', ha⟩ := h
    rw [run_cons, Option.bind_eq_some_iff] at ha
    obtain ⟨s'', hstep', hlast⟩ := ha
    obtain rfl := Option.some.inj hlast
    exact hstep actions s' a s'' (ih hs') hstep'

/-- The states reached from `start` by steps that meet the guard. -/
inductive Reachable (guard : S → A → Prop) (start : S) : S → Prop where
  | start : Reachable guard start start
  | next {s s' : S} {a : A} :
      Reachable guard start s → guard s a → step s a = some s' → Reachable guard start s'

/-- A run that stops at a step the guard does not admit. -/
theorem Reachable.of_run {guard : S → A → Prop} [∀ s a, Decidable (guard s a)] {start s : S}
    (actions : List A)
    (h : run (fun s a => if guard s a then step s a else none) start actions = some s) :
    Reachable step guard start s := by
  refine run_induction _ (P := fun _ s => Reachable step guard start s) .start ?_ h
  intro _ s a s' hs hstep
  obtain ⟨hguard, hstep⟩ := Option.ite_none_right_eq_some.mp hstep
  exact hs.next hguard hstep

/-- A run whose steps all meet the guard. -/
inductive Guarded (guard : S → A → Prop) (start : S) : List A → S → Prop where
  | start : Guarded guard start [] start
  | next {actions : List A} {s s' : S} {a : A} : Guarded guard start actions s → guard s a →
      step s a = some s' → Guarded guard start (actions ++ [a]) s'

/-- A run that stops at a step the guard does not admit. -/
theorem Guarded.of_run {guard : S → A → Prop} [∀ s a, Decidable (guard s a)] {start s : S}
    {actions : List A}
    (h : run (fun s a => if guard s a then step s a else none) start actions = some s) :
    Guarded step guard start actions s := by
  refine run_induction _ (P := Guarded step guard start) .start ?_ h
  intro actions s a s' hs hstep
  obtain ⟨hguard, hstep⟩ := Option.ite_none_right_eq_some.mp hstep
  exact hs.next hguard hstep

variable {step}

/-- An invariant of the start and of every guarded step holds in every reachable state. -/
theorem Reachable.invariant {guard : S → A → Prop} {start : S} {P : S → Prop} (hstart : P start)
    (hstep : ∀ s a s', P s → guard s a → step s a = some s' → P s') {s : S}
    (h : Reachable step guard start s) : P s := by
  induction h with
  | start => exact hstart
  | next _ hguard hs ih => exact hstep _ _ _ ih hguard hs

section Along

variable (step)

/-- Something holds of every step of a run, which ends at an action that is not possible. -/
def Along (P : S → A → S → Prop) : S → List A → Prop
  | _, [] => True
  | s, a :: actions => ∀ s', step s a = some s' → P s a s' ∧ Along P s' actions

variable {step} {P Q : S → A → S → Prop}

/-- Two properties hold along the same runs when they agree on a step after an invariant that
one of them keeps. -/
theorem along_iff {I : S → Prop}
    (hPQ : ∀ s a s', I s → step s a = some s' → (P s a s' ↔ Q s a s'))
    (hI : ∀ s a s', I s → step s a = some s' → P s a s' → I s') {s : S} (hs : I s)
    (actions : List A) : Along step P s actions ↔ Along step Q s actions := by
  induction actions generalizing s with
  | nil => exact Iff.rfl
  | cons a actions ih =>
    constructor
    · intro h s' hstep
      obtain ⟨hP, hrest⟩ := h s' hstep
      exact ⟨(hPQ s a s' hs hstep).mp hP, (ih (hI s a s' hs hstep hP)).mp hrest⟩
    · intro h s' hstep
      obtain ⟨hQ, hrest⟩ := h s' hstep
      have hP := (hPQ s a s' hs hstep).mpr hQ
      exact ⟨hP, (ih (hI s a s' hs hstep hP)).mpr hrest⟩

/-- What holds along a run holds of its last step. -/
theorem Along.last {actions : List A} {a : A} {s s' s'' : S}
    (h : Along step P s (actions ++ [a])) (hrun : run step s actions = some s')
    (hstep : step s' a = some s'') : P s' a s'' := by
  induction actions generalizing s with
  | nil =>
    obtain rfl := Option.some.inj hrun
    exact (h s'' hstep).1
  | cons b actions ih =>
    rw [run_cons, Option.bind_eq_some_iff] at hrun
    obtain ⟨t, ht, hrun⟩ := hrun
    exact ih (h t ht).2 hrun

end Along

section Admits

variable (step)

/-- Every action of a run meets the guard where it is tried. -/
def Admits (guard : S → A → Prop) : S → List A → Prop
  | _, [] => True
  | s, a :: actions => guard s a ∧ ∀ s', step s a = some s' → Admits guard s' actions

variable {step}

/-- When the guard says which steps are possible, it says which runs are. -/
theorem run_isSome_iff {guard : S → A → Prop} {s : S} {actions : List A}
    (h : ∀ s, ∀ a ∈ actions, (step s a).isSome ↔ guard s a) :
    (run step s actions).isSome ↔ Admits step guard s actions := by
  induction actions generalizing s with
  | nil => exact ⟨fun _ => trivial, fun _ => rfl⟩
  | cons a actions ih =>
    have hrest := fun s => ih (s := s) fun s b hb => h s b (List.mem_cons_of_mem a hb)
    rw [run_cons, Admits, ← h s a List.mem_cons_self]
    cases hstep : step s a with
    | none => simp
    | some s' => simp [hrest s']

/-- An invariant that is kept by the guarded steps, of the actions so far. -/
theorem Admits.invariant {guard : S → A → Prop} {P : S → Prop} {s s' : S} {actions : List A}
    (h : Admits step guard s actions) (hrun : run step s actions = some s') (hs : P s)
    (hstep : ∀ s, ∀ a ∈ actions, ∀ s', P s → guard s a → step s a = some s' → P s') : P s' := by
  induction actions generalizing s with
  | nil => exact Option.some.inj hrun ▸ hs
  | cons a actions ih =>
    rw [run_cons, Option.bind_eq_some_iff] at hrun
    obtain ⟨t, ht, hrun⟩ := hrun
    exact ih (h.2 t ht) hrun (hstep s a List.mem_cons_self t hs h.1 ht)
      fun s b hb => hstep s b (List.mem_cons_of_mem a hb)

end Admits

end Transition

/-! Operations of several threads on one object. Each takes effect at one step of a run and returns
at that step or a later one. A relation between the states and the object that every step keeps,
with the effects that have not been returned, orders the operations as if each were a single
step. -/

namespace Linearization

variable {S A E X T : Type*}

/-- What the steps of a run emit, in order. -/
def trace (step : S → A → Option S) (emit : S → A → Option E) : S → List A → List E
  | _, [] => []
  | s, a :: actions =>
    (emit s a).toList ++
      match step s a with
      | some s' => trace step emit s' actions
      | none => []

variable {step : S → A → Option S}

theorem trace_cons {emit : S → A → Option E} {s s' : S} {a : A} (h : step s a = some s')
    (actions : List A) :
    trace step emit s (a :: actions) = (emit s a).toList ++ trace step emit s' actions := by
  simp [trace, h]

variable [DecidableEq T] (owner : E → T)

/-- The events of one thread. -/
def eventsOf (t : T) (events : List E) : List E := events.filter fun e => owner e = t

@[simp] theorem eventsOf_append (t : T) (xs ys : List E) :
    eventsOf owner t (xs ++ ys) = eventsOf owner t xs ++ eventsOf owner t ys :=
  List.filter_append ..

variable {owner} {apply : X → E → Option X} {takes returns : S → A → Option E}
  {pending : S → T → List E} {R : S → X → Prop}

/-- The effects in the order of a run are a run of the object. Those of a thread are what its
operations return, in order, but for one that has not returned. -/
theorem run_of_steps
    (hstep : ∀ s x a s', R s x → step s a = some s' → ∃ x', R s' x' ∧
      Transition.run apply x (takes s a).toList = some x' ∧
        ∀ t, pending s t ++ eventsOf owner t (takes s a).toList =
          eventsOf owner t (returns s a).toList ++ pending s' t)
    {s s' : S} {x : X} {actions : List A} (h : R s x)
    (hrun : Transition.run step s actions = some s') :
    ∃ x', R s' x' ∧ Transition.run apply x (trace step takes s actions) = some x' ∧
      ∀ t, pending s t ++ eventsOf owner t (trace step takes s actions) =
        eventsOf owner t (trace step returns s actions) ++ pending s' t := by
  induction actions generalizing s x with
  | nil =>
    cases hrun
    exact ⟨x, h, rfl, by simp [trace, eventsOf]⟩
  | cons a actions ih =>
    rw [Transition.run_cons, Option.bind_eq_some_iff] at hrun
    obtain ⟨u, hu, hrun⟩ := hrun
    obtain ⟨y, hy, happly, howner⟩ := hstep s x a u h hu
    obtain ⟨z, hz, happly', howner'⟩ := ih hy hrun
    refine ⟨z, hz, ?_, fun t => ?_⟩
    · rw [trace_cons hu, Transition.run_append, happly]
      exact happly'
    · calc pending s t ++ eventsOf owner t (trace step takes s (a :: actions))
          = (pending s t ++ eventsOf owner t (takes s a).toList) ++
              eventsOf owner t (trace step takes u actions) := by
            rw [trace_cons hu, eventsOf_append, List.append_assoc]
        _ = eventsOf owner t (returns s a).toList ++
              (pending u t ++ eventsOf owner t (trace step takes u actions)) := by
            rw [howner, List.append_assoc]
        _ = eventsOf owner t (trace step returns s (a :: actions)) ++ pending s' t := by
            rw [howner', trace_cons hu, eventsOf_append, List.append_assoc]

end Linearization
