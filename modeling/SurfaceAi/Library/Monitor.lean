import SurfaceAi.Library.Transition

/-! Threads that share a state under a lock with one condition variable. A call waits until
the state is ready for its operation, performs it and wakes one of the waiting threads. A
woken thread looks again. Operations of one kind use up what those of another set free. -/

namespace Monitor

variable {σ Op K : Type*}

/-- When an operation may be performed, and what it does. -/
structure Ops (σ Op : Type*) where
  ready : Op → σ → Bool
  perform : Op → σ → σ

inductive Phase (Op : Type*) where
  | idle
  | waiting (op : Op)
  | woken (op : Op)
  deriving DecidableEq

def Phase.isWaiting : Phase Op → Bool
  | .waiting _ => true
  | _ => false

structure State (σ Op : Type*) where
  shared : σ
  threads : List (Phase Op)

/-- A thread calls an operation, or a woken one looks again; `target` is the waiting thread
that is woken if the operation is performed. -/
inductive Action (Op : Type*) where
  | call (t : ℕ) (op : Op) (target : Option ℕ)
  | resume (t : ℕ) (target : Option ℕ)

namespace State

variable (m : Ops σ Op) (s : State σ Op)

/-- Wake the waiting thread `target`, or nobody if none waits. -/
def notifyOne (target : Option ℕ) : Option (State σ Op) :=
  match target with
  | some u =>
    match s.threads[u]? with
    | some (.waiting op) => some { s with threads := s.threads.set u (.woken op) }
    | _ => none
  | none => if s.threads.any Phase.isWaiting then none else some s

/-- The critical section: perform and notify, or wait. -/
def enter (t : ℕ) (op : Op) (target : Option ℕ) : Option (State σ Op) :=
  if m.ready op s.shared then
    notifyOne ⟨m.perform op s.shared, s.threads.set t .idle⟩ target
  else
    match target with
    | none => some { s with threads := s.threads.set t (.waiting op) }
    | some _ => none

def step : Action Op → Option (State σ Op)
  | .call t op target =>
    match s.threads[t]? with
    | some .idle => s.enter m t op target
    | _ => none
  | .resume t target =>
    match s.threads[t]? with
    | some (.woken op) => s.enter m t op target
    | _ => none

/-- No thread is awake, yet the state is ready for one that waits. -/
def Stalled : Prop :=
  (∀ op, Phase.woken op ∉ s.threads) ∧ ∃ op, Phase.waiting op ∈ s.threads ∧ m.ready op s.shared

end State

/-- Operations of a kind are ready while there is slack for it. Performing one takes from its
own slack and adds at most one to the slack of the kind it frees. -/
structure Counted (m : Ops σ Op) (good : σ → Prop) (kind frees : Op → K) (slack : K → σ → ℕ) :
    Prop where
  good_perform : ∀ op x, good x → m.ready op x = true → good (m.perform op x)
  ready_iff : ∀ op x, good x → (m.ready op x = true ↔ 0 < slack (kind op) x)
  frees_ne : ∀ op, frees op ≠ kind op
  own : ∀ op x, good x → m.ready op x = true →
    slack (kind op) (m.perform op x) + 1 ≤ slack (kind op) x
  freed : ∀ op x, good x → m.ready op x = true →
    slack (frees op) (m.perform op x) ≤ slack (frees op) x + 1
  other : ∀ op x k, good x → m.ready op x = true → k ≠ kind op → k ≠ frees op →
    slack k (m.perform op x) ≤ slack k x

section Invariant

variable [DecidableEq K] (kind frees : Op → K) (slack : K → σ → ℕ)

def Phase.isWoken (k : K) : Phase Op → Bool
  | .woken op => kind op = k
  | _ => false

/-- The number of threads woken for an operation of a kind. -/
def wokenCount (k : K) (threads : List (Phase Op)) : ℕ := threads.countP (Phase.isWoken kind k)

def Waits (k : K) (threads : List (Phase Op)) : Prop :=
  ∃ op, Phase.waiting op ∈ threads ∧ kind op = k

/-- The thread woken after an operation waits for one of the kind it frees, if any thread
does. -/
def Matched (s : State σ Op) (op : Op) (target : Option ℕ) : Prop :=
  ∀ u op', target = some u → s.threads[u]? = some (.waiting op') →
    Waits kind (frees op) s.threads → kind op' = frees op

/-- The guard on a step. -/
def MatchedAction (s : State σ Op) : Action Op → Prop
  | .call _ op target => Matched kind frees s op target
  | .resume t target =>
    ∀ op, s.threads[t]? = some (.woken op) → Matched kind frees s op target

/-- Where a thread waits, the slack for it is not more than the threads woken for it. -/
def Served (s : State σ Op) : Prop :=
  ∀ k, Waits kind k s.threads → slack k s.shared ≤ wokenCount kind k s.threads

variable {kind frees slack}

theorem wokenCount_set {threads : List (Phase Op)} {t : ℕ} {p p' : Phase Op}
    (h : threads[t]? = some p) (k : K) :
    wokenCount kind k (threads.set t p') + (if p.isWoken kind k then 1 else 0) =
      wokenCount kind k threads + (if p'.isWoken kind k then 1 else 0) := by
  obtain ⟨ht, hp⟩ := List.getElem?_eq_some_iff.mp h
  have hle := @List.boole_getElem_le_countP _ (Phase.isWoken kind k) threads t ht
  rw [wokenCount, wokenCount, List.countP_set ht, hp] at *
  omega

omit [DecidableEq K] in
theorem Waits.of_set {threads : List (Phase Op)} {t : ℕ} {p : Phase Op} {k : K}
    (h : Waits kind k (threads.set t p)) :
    (∃ op, p = .waiting op ∧ kind op = k) ∨ Waits kind k threads := by
  obtain ⟨op, hmem, hkind⟩ := h
  rcases List.mem_or_eq_of_mem_set hmem with hmem | heq
  · exact .inr ⟨op, hmem, hkind⟩
  · exact .inl ⟨op, heq.symm, hkind⟩

/-- A thread inside the critical section: it has just called, or was woken. -/
def Inside (threads : List (Phase Op)) (t : ℕ) (op : Op) : Prop :=
  threads[t]? = some .idle ∨ threads[t]? = some (.woken op)

variable {m : Ops σ Op} {good : σ → Prop} {s s' : State σ Op} {t : ℕ} {op : Op}
  {target : Option ℕ}

/-- An operation performed and not yet notified leaves at most the freed kind one short. -/
theorem Served.perform (h : Served kind slack s) (hm : Counted m good kind frees slack)
    (hgood : good s.shared) (ht : Inside s.threads t op) (hready : m.ready op s.shared = true)
    {k : K} (hwaits : Waits kind k (s.threads.set t .idle)) :
    slack k (m.perform op s.shared) ≤
      wokenCount kind k (s.threads.set t .idle) + if k = frees op then 1 else 0 := by
  have hbefore : Waits kind k s.threads := by
    rcases hwaits.of_set with ⟨op', heq, -⟩ | hbefore
    · cases heq
    · exact hbefore
  have hserved := h k hbefore
  have hne := hm.frees_ne op
  have hcount : wokenCount kind k s.threads ≤
      wokenCount kind k (s.threads.set t .idle) + if k = kind op then 1 else 0 := by
    rcases ht with ht | ht
    · have := @wokenCount_set _ _ _ kind _ _ _ .idle ht k
      simp [Phase.isWoken] at this
      omega
    · have := @wokenCount_set _ _ _ kind _ _ _ .idle ht k
      simp only [Phase.isWoken, eq_comm] at this
      simp at this
      omega
  by_cases hown : k = kind op
  · subst hown
    have := hm.own op s.shared hgood hready
    rw [if_pos rfl] at hcount
    omega
  · rw [if_neg hown] at hcount
    by_cases hfreed : k = frees op
    · have := hm.freed op s.shared hgood hready
      rw [← hfreed] at this
      rw [if_pos hfreed]
      omega
    · have := hm.other op s.shared k hgood hready hown hfreed
      omega

/-- The notification goes to the freed kind if a thread waits for it. -/
theorem served_notifyOne (h : ∀ k, Waits kind k s.threads →
      slack k s.shared ≤ wokenCount kind k s.threads + if k = frees op then 1 else 0)
    (hmatched : Matched kind frees s op target) (hs : s.notifyOne target = some s') :
    Served kind slack s' := by
  cases target with
  | none =>
    simp only [State.notifyOne, Option.ite_none_left_eq_some] at hs
    obtain ⟨hnone, hs⟩ := hs
    obtain rfl := Option.some.inj hs
    rintro k ⟨op', hmem, -⟩
    exact absurd (List.any_eq_true.mpr ⟨_, hmem, rfl⟩) hnone
  | some u =>
    simp only [State.notifyOne] at hs
    split at hs <;> try cases hs
    next op' hu =>
      intro k hwaits
      have hbefore : Waits kind k s.threads := by
        rcases Waits.of_set hwaits with ⟨op'', heq, -⟩ | hbefore
        · cases heq
        · exact hbefore
      have hserved := h k hbefore
      have hcount := @wokenCount_set _ _ _ kind _ _ _ (.woken op') hu k
      simp only [Phase.isWoken, decide_eq_true_eq] at hcount
      show slack k s.shared ≤ wokenCount kind k (s.threads.set u (.woken op'))
      by_cases hfreed : k = frees op
      · have hkind : kind op' = k := by
          rw [hfreed]
          exact hmatched u op' rfl hu (hfreed ▸ hbefore)
        rw [if_pos hfreed] at hserved
        simp [hkind] at hcount
        omega
      · rw [if_neg hfreed] at hserved
        simp at hcount
        omega

/-- A thread that finds the state not ready waits; there is no slack for it. -/
theorem Served.wait (h : Served kind slack s) (hm : Counted m good kind frees slack)
    (hgood : good s.shared) (ht : Inside s.threads t op) (hready : ¬ m.ready op s.shared = true) :
    Served kind slack { s with threads := s.threads.set t (.waiting op) } := by
  intro k hwaits
  show slack k s.shared ≤ wokenCount kind k (s.threads.set t (.waiting op))
  by_cases hk : k = kind op
  · have hzero : ¬ 0 < slack (kind op) s.shared := fun hpos =>
      hready ((hm.ready_iff op s.shared hgood).mpr hpos)
    rw [hk]
    omega
  · have hbefore : Waits kind k s.threads := by
      rcases hwaits.of_set with ⟨op', heq, hkind⟩ | hbefore
      · obtain rfl := Phase.waiting.inj heq
        exact absurd hkind.symm hk
      · exact hbefore
    have hserved := h k hbefore
    have hkind : ¬ kind op = k := fun heq => hk heq.symm
    rcases ht with ht | ht
    · have := @wokenCount_set _ _ _ kind _ _ _ (.waiting op) ht k
      simp [Phase.isWoken] at this
      omega
    · have := @wokenCount_set _ _ _ kind _ _ _ (.waiting op) ht k
      simp [Phase.isWoken, hkind] at this
      omega

theorem notifyOne_shared (hs : s.notifyOne target = some s') : s'.shared = s.shared := by
  cases target with
  | none =>
    simp only [State.notifyOne, Option.ite_none_left_eq_some] at hs
    rw [← Option.some.inj hs.2]
  | some u =>
    simp only [State.notifyOne] at hs
    split at hs <;> cases hs
    rfl

/-- The critical section keeps the invariant. -/
theorem Served.enter (h : Served kind slack s) (hm : Counted m good kind frees slack)
    (hgood : good s.shared) (ht : Inside s.threads t op)
    (hmatched : Matched kind frees s op target) (hs : s.enter m t op target = some s') :
    good s'.shared ∧ Served kind slack s' := by
  unfold State.enter at hs
  split_ifs at hs with hready
  · have hserved := fun k => h.perform (k := k) hm hgood ht hready
    refine ⟨?_, served_notifyOne hserved ?_ hs⟩
    · rw [notifyOne_shared hs]
      exact hm.good_perform op s.shared hgood hready
    · intro u op' htarget hu hwaits
      have hwaits : Waits kind (frees op) s.threads := by
        rcases Waits.of_set hwaits with ⟨op'', heq, -⟩ | hbefore
        · cases heq
        · exact hbefore
      have hu : s.threads[u]? = some (.waiting op') := by
        rcases eq_or_ne t u with rfl | hne
        · rw [List.getElem?_set_self'] at hu
          rcases ht with ht | ht <;> simp [ht] at hu
        · rwa [List.getElem?_set_ne hne] at hu
      exact hmatched u op' htarget hu hwaits
  · cases target with
    | none =>
      obtain rfl := Option.some.inj hs
      exact ⟨hgood, h.wait hm hgood ht hready⟩
    | some u => cases hs

theorem Served.step (h : Served kind slack s) (hm : Counted m good kind frees slack)
    (hgood : good s.shared) {a : Action Op} (hmatched : MatchedAction kind frees s a)
    (hs : s.step m a = some s') : good s'.shared ∧ Served kind slack s' := by
  cases a with
  | call t op target =>
    simp only [State.step] at hs
    split at hs <;> try cases hs
    next ht => exact h.enter hm hgood (.inl ht) hmatched hs
  | resume t target =>
    simp only [State.step] at hs
    split at hs <;> try cases hs
    next op ht => exact h.enter hm hgood (.inr ht) (hmatched op ht) hs

theorem Served.not_stalled (h : Served kind slack s) (hm : Counted m good kind frees slack)
    (hgood : good s.shared) : ¬ s.Stalled m := by
  rintro ⟨hasleep, op, hmem, hready⟩
  have hslack := (hm.ready_iff op s.shared hgood).mp hready
  have hserved := h (kind op) ⟨op, hmem, rfl⟩
  have hpos : 0 < wokenCount kind (kind op) s.threads := by omega
  obtain ⟨p, hp, hwoken⟩ := List.countP_pos_iff.mp hpos
  cases p with
  | woken op' => exact hasleep op' hp
  | idle => cases hwoken
  | waiting op' => cases hwoken

/-- As long as every notification goes to the freed kind, no wake-up is lost. -/
theorem not_stalled_of_reachable (hm : Counted m good kind frees slack) {x : σ} (hx : good x)
    (n : ℕ)
    (h : Transition.Reachable (State.step m) (MatchedAction kind frees)
      ⟨x, List.replicate n .idle⟩ s) : ¬ s.Stalled m := by
  have hinv : good s.shared ∧ Served kind slack s := by
    apply h.invariant
    · refine ⟨hx, ?_⟩
      rintro k ⟨op, hmem, -⟩
      cases List.eq_of_mem_replicate hmem
    · intro s a s' hinv hmatched hs
      exact hinv.2.step hm hinv.1 hmatched hs
  exact hinv.2.not_stalled hm hinv.1

end Invariant

end Monitor
