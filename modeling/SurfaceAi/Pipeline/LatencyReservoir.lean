import SurfaceAi.Library.Ring
import SurfaceAi.Library.Transition
import Mathlib.Algebra.Group.Nat.Defs
import Mathlib.Data.List.Sort
import Mathlib.Order.Bounds.Defs

/-! The latencies a stage reports. Every worker of the stage keeps the last hundred latencies of its
own and publishes a high percentile of them; the frame that was measured last, by whichever worker,
has the word. With a hundred samples the percentile is their maximum. Latencies are finite, and the
counter that picks the slot is not followed to where it wraps. -/

namespace SurfaceAi.Pipeline

open RecentWindow

/-- A natural number rounded to 53 significant bits, to even where two are as near. -/
def roundSignificand (n : ℕ) : ℕ :=
  let unit := 2 ^ (n.log2 - 52)
  let low := n / unit
  if 2 * (n % unit) < unit ∨ (2 * (n % unit) = unit ∧ low % 2 = 0) then low * unit
  else (low + 1) * unit

/-- `static_cast<std::size_t>(static_cast<double>(count) * 0.99)`: the literal is
`8917127262193582 / 2 ^ 53`, and the product is rounded before it is truncated. -/
def scaledIndex (count : ℕ) : ℕ := roundSignificand (count * 8917127262193582) / 2 ^ 53

/-- `p99_idx`. -/
def p99Index (count : ℕ) : ℕ :=
  if count ≤ scaledIndex count then count - 1 else scaledIndex count

/-- For as many samples as there can be it is the last index. -/
theorem p99Index_eq : ∀ count ≤ 100, p99Index count = count - 1 := by
  decide +kernel

section Reservoir

variable {α : Type} [LinearOrder α]

/-- The thread's `latency_reservoir`, `reservoir_idx` and `reservoir_count`. -/
structure Reservoir (α : Type) where
  slots : List α
  idx : ℕ
  count : ℕ

/-- The first `count` samples, sorted. -/
def Reservoir.sorted (r : Reservoir α) : List α :=
  (r.slots.take r.count).mergeSort fun a b => decide (a ≤ b)

/-- A sample taken in, and the percentile that is published with it. -/
def Reservoir.record (r : Reservoir α) (elapsed : α) : Reservoir α × Option α :=
  let next : Reservoir α :=
    ⟨r.slots.set (r.idx % 100) elapsed, r.idx + 1, if r.count < 100 then r.count + 1 else r.count⟩
  (next, next.sorted[p99Index next.count]?)

/-- The reservoir of a thread that has measured these latencies. -/
structure Reservoir.Tracks (r : Reservoir α) (latencies : List α) : Prop where
  holds : Holds 100 r.slots latencies
  idx_eq : r.idx = latencies.length
  count_eq : r.count = min latencies.length 100

theorem Reservoir.Tracks.record {r : Reservoir α} {latencies : List α} (h : r.Tracks latencies)
    (elapsed : α) : (r.record elapsed).1.Tracks (latencies ++ [elapsed]) where
  holds := by
    have hpush := h.holds.push (Nat.succ_pos 99) elapsed
    rw [← h.idx_eq] at hpush
    exact hpush
  idx_eq := by
    rw [List.length_append, ← h.idx_eq]
    rfl
  count_eq := by
    have hcount := h.count_eq
    change (if r.count < 100 then r.count + 1 else r.count) = _
    rw [List.length_append, List.length_singleton]
    split_ifs <;> omega

theorem sorted_reservoir (r : Reservoir α) : r.sorted.Pairwise (· ≤ ·) := by
  have hsorted : r.sorted.Pairwise fun a b => decide (a ≤ b) = true := by
    apply List.pairwise_mergeSort
    · intro a b c hab hbc
      exact decide_eq_true (le_trans (of_decide_eq_true hab) (of_decide_eq_true hbc))
    · intro a b
      simpa using le_total a b
  exact hsorted.imp fun h => of_decide_eq_true h

/-- The last of a sorted list is its greatest element. -/
theorem isGreatest_last {l : List α} (h : l.Pairwise (· ≤ ·)) (hne : 0 < l.length) :
    ∃ p, l[l.length - 1]? = some p ∧ IsGreatest {x | x ∈ l} p := by
  have hlast : l.length - 1 < l.length := by omega
  refine ⟨l[l.length - 1], List.getElem?_eq_getElem hlast, List.getElem_mem hlast, ?_⟩
  intro x hx
  obtain ⟨k, hk, rfl⟩ := List.mem_iff_getElem.mp hx
  rcases Nat.lt_or_ge k (l.length - 1) with hlt | hge
  · exact List.pairwise_iff_getElem.mp h k (l.length - 1) hk hlast hlt
  · have heq : k = l.length - 1 := by omega
    subst heq
    exact le_refl _

/-- What is published is the greatest of the last hundred latencies. -/
theorem Reservoir.Tracks.p99 {r : Reservoir α} {latencies : List α} (h : r.Tracks latencies)
    (hne : latencies ≠ []) : ∃ p, r.sorted[p99Index r.count]? = some p ∧
      IsGreatest {x | x ∈ recent 100 latencies} p := by
  have hpos := List.length_pos_iff.mpr hne
  have hcount := h.count_eq
  have hlength : r.sorted.length = r.count := by
    rw [Reservoir.sorted, List.length_mergeSort, List.length_take, h.holds.length_eq]
    omega
  have hindex : p99Index r.count = r.sorted.length - 1 := by
    rw [p99Index_eq r.count (by omega), hlength]
  have hmem : {x | x ∈ r.sorted} = {x | x ∈ recent 100 latencies} := by
    ext x
    change x ∈ r.sorted ↔ x ∈ recent 100 latencies
    rw [Reservoir.sorted, List.mem_mergeSort, hcount, h.holds.mem_take (Nat.succ_pos 99)]
  rw [hindex, ← hmem]
  exact isGreatest_last (sorted_reservoir r) (by omega)

omit [LinearOrder α] in
theorem tracks_empty [Zero α] : Reservoir.Tracks ⟨List.replicate 100 (0 : α), 0, 0⟩ [] where
  holds := holds_nil (List.length_replicate ..)
  idx_eq := rfl
  count_eq := rfl

end Reservoir

/-! ### The workers of a stage -/

section Workers

variable {ι α : Type} [DecidableEq ι] [LinearOrder α]

/-- One worker: its reservoir, and the latency of a frame it has measured and not finished. -/
structure LatencyWorker (α : Type) where
  reservoir : Reservoir α
  pending : Option α

/-- A stage's workers and the latencies of its `StageMetrics`. -/
structure LatencyState (ι α : Type) where
  workers : ι → LatencyWorker α
  avgLatencyUs : α
  p99LatencyUs : α

/-- The steps of a worker that touch the metrics: the percentile once a frame has been measured, the
latency itself later, if the frame was processed without an error. -/
inductive LatencyAction (ι α : Type) where
  | measured (worker : ι) (elapsed : α)
  | finished (worker : ι) (ok : Bool)

namespace LatencyState

def initial [Zero α] : LatencyState ι α where
  workers := fun _ => ⟨⟨List.replicate 100 0, 0, 0⟩, none⟩
  avgLatencyUs := 0
  p99LatencyUs := 0

def step (s : LatencyState ι α) : LatencyAction ι α → Option (LatencyState ι α)
  | .measured worker elapsed =>
    match (s.workers worker).pending with
    | some _ => none
    | none =>
      let (reservoir, p99) := (s.workers worker).reservoir.record elapsed
      p99.map fun p99 =>
        { s with
          workers := Function.update s.workers worker ⟨reservoir, some elapsed⟩
          p99LatencyUs := p99 }
  | .finished worker ok =>
    (s.workers worker).pending.map fun elapsed =>
      { s with
        workers := Function.update s.workers worker ⟨(s.workers worker).reservoir, none⟩
        avgLatencyUs := if ok then elapsed else s.avgLatencyUs }

/-- The latencies a worker has measured, in order. -/
def latencies (worker : ι) (actions : List (LatencyAction ι α)) : List α :=
  actions.filterMap fun
    | .measured w elapsed => if w = worker then some elapsed else none
    | .finished _ _ => none

/-- The last action of a kind in a run, with what has happened before it. -/
def Latest (kind : LatencyAction ι α → Prop)
    (Q : List (LatencyAction ι α) → LatencyAction ι α → Prop)
    (actions : List (LatencyAction ι α)) : Prop :=
  ∃ front a back, actions = front ++ a :: back ∧ kind a ∧ (∀ b ∈ back, ¬ kind b) ∧ Q front a

def IsMeasured (a : LatencyAction ι α) : Prop := ∃ worker elapsed, a = .measured worker elapsed

def IsProcessed (a : LatencyAction ι α) : Prop := ∃ worker, a = .finished worker true

/-- The percentile is the greatest of the last hundred latencies of the worker that has measured
last. -/
def P99Of (p99 : α) (front : List (LatencyAction ι α)) (a : LatencyAction ι α) : Prop :=
  ∃ worker elapsed, a = .measured worker elapsed ∧
    IsGreatest {x | x ∈ recent 100 (latencies worker (front ++ [a]))} p99

/-- The latency is that of the frame that was processed last. -/
def LatencyOf (latency : α) (front : List (LatencyAction ι α)) (a : LatencyAction ι α) : Prop :=
  ∃ worker, a = .finished worker true ∧ (latencies worker front).getLast? = some latency

/-- What the metrics say after a run. -/
structure Reports [Zero α] (actions : List (LatencyAction ι α)) (s : LatencyState ι α) : Prop where
  tracks : ∀ w, (s.workers w).reservoir.Tracks (latencies w actions)
  pending : ∀ w elapsed, (s.workers w).pending = some elapsed →
    (latencies w actions).getLast? = some elapsed
  p99 : (∀ a ∈ actions, ¬ IsMeasured a) ∧ s.p99LatencyUs = 0 ∨
    Latest IsMeasured (P99Of s.p99LatencyUs) actions
  avg : (∀ a ∈ actions, ¬ IsProcessed a) ∧ s.avgLatencyUs = 0 ∨
    Latest IsProcessed (LatencyOf s.avgLatencyUs) actions

section Runs

variable {actions : List (LatencyAction ι α)} {a : LatencyAction ι α}
  {kind : LatencyAction ι α → Prop} {Q : List (LatencyAction ι α) → LatencyAction ι α → Prop}

omit [DecidableEq ι] [LinearOrder α] in
theorem latest_last (hkind : kind a) (hq : Q actions a) : Latest kind Q (actions ++ [a]) :=
  ⟨actions, a, [], rfl, hkind, List.forall_mem_nil _, hq⟩

omit [DecidableEq ι] [LinearOrder α] in
theorem Latest.append (h : Latest kind Q actions) (hkind : ¬ kind a) :
    Latest kind Q (actions ++ [a]) := by
  obtain ⟨front, b, back, rfl, hb, hback, hq⟩ := h
  refine ⟨front, b, back ++ [a], by simp, hb, ?_, hq⟩
  intro c hc
  rcases List.mem_append.mp hc with hc | hc
  · exact hback c hc
  · obtain rfl := List.mem_singleton.mp hc
    exact hkind

omit [DecidableEq ι] [LinearOrder α] in
/-- A value of a kind of actions that the last action is not of stays as it is. -/
theorem keeps_latest {value : α} [Zero α]
    (h : (∀ b ∈ actions, ¬ kind b) ∧ value = 0 ∨ Latest kind Q actions) (hkind : ¬ kind a) :
    (∀ b ∈ actions ++ [a], ¬ kind b) ∧ value = 0 ∨ Latest kind Q (actions ++ [a]) := by
  rcases h with ⟨hnone, hvalue⟩ | h
  · refine .inl ⟨?_, hvalue⟩
    intro b hb
    rcases List.mem_append.mp hb with hb | hb
    · exact hnone b hb
    · obtain rfl := List.mem_singleton.mp hb
      exact hkind
  · exact .inr (h.append hkind)

omit [LinearOrder α] in
theorem latencies_measured (w worker : ι) (elapsed : α) :
    latencies w (actions ++ [.measured worker elapsed]) =
      if worker = w then latencies w actions ++ [elapsed] else latencies w actions := by
  rw [latencies, List.filterMap_append]
  split_ifs with hw
  · simp [hw, latencies]
  · simp [hw, latencies]

omit [LinearOrder α] in
theorem latencies_finished (w worker : ι) (ok : Bool) :
    latencies w (actions ++ [.finished worker ok]) = latencies w actions := by
  rw [latencies, List.filterMap_append]
  simp [latencies]

variable [Zero α] {s s' : LatencyState ι α}

theorem Reports.measured (h : Reports actions s) {worker : ι} {elapsed : α}
    (hstep : s.step (.measured worker elapsed) = some s') :
    Reports (actions ++ [.measured worker elapsed]) s' := by
  rw [step] at hstep
  cases hpending : (s.workers worker).pending with
  | some other =>
    rw [hpending] at hstep
    cases hstep
  | none =>
    rw [hpending] at hstep
    have htracks := (h.tracks worker).record elapsed
    have hlatencies : latencies worker (actions ++ [.measured worker elapsed]) =
        latencies worker actions ++ [elapsed] := by
      rw [latencies_measured, if_pos rfl]
    obtain ⟨p, hp, hgreatest⟩ := htracks.p99 (by simp)
    have hrecord : ((s.workers worker).reservoir.record elapsed).2 = some p := hp
    simp only [hrecord, Option.map_some, Option.some.injEq] at hstep
    subst hstep
    refine ⟨?_, ?_, ?_, ?_⟩
    · intro w
      rw [latencies_measured]
      by_cases hw : worker = w
      · subst hw
        simp only [Function.update_self, if_true]
        exact htracks
      · simp only [Function.update_of_ne (Ne.symm hw), if_neg hw]
        exact h.tracks w
    · intro w e he
      rw [latencies_measured]
      by_cases hw : worker = w
      · subst hw
        simp only [Function.update_self, Option.some.injEq] at he
        subst he
        simp
      · simp only [Function.update_of_ne (Ne.symm hw)] at he
        rw [if_neg hw]
        exact h.pending w e he
    · apply Or.inr
      refine latest_last ⟨worker, elapsed, rfl⟩ ⟨worker, elapsed, rfl, ?_⟩
      rw [hlatencies]
      exact hgreatest
    · refine keeps_latest h.avg ?_
      rintro ⟨w, hw⟩
      cases hw

theorem Reports.finished (h : Reports actions s) {worker : ι} {ok : Bool}
    (hstep : s.step (.finished worker ok) = some s') :
    Reports (actions ++ [.finished worker ok]) s' := by
  obtain ⟨elapsed, hpending, rfl⟩ := Option.map_eq_some_iff.mp hstep
  refine ⟨?_, ?_, ?_, ?_⟩
  · intro w
    rw [latencies_finished]
    by_cases hw : w = worker
    · subst hw
      simp only [Function.update_self]
      exact h.tracks w
    · simp only [Function.update_of_ne hw]
      exact h.tracks w
  · intro w e he
    rw [latencies_finished]
    by_cases hw : w = worker
    · subst hw
      simp only [Function.update_self] at he
      cases he
    · simp only [Function.update_of_ne hw] at he
      exact h.pending w e he
  · refine keeps_latest h.p99 ?_
    rintro ⟨w, e, hw⟩
    cases hw
  · cases ok with
    | true =>
      have hlast := h.pending worker elapsed hpending
      exact .inr (latest_last ⟨worker, rfl⟩ ⟨worker, rfl, hlast⟩)
    | false =>
      refine keeps_latest h.avg ?_
      rintro ⟨w, hw⟩
      cases hw

theorem reports_of_run (h : Transition.run step initial actions = some s) : Reports actions s := by
  refine Transition.run_induction step (P := Reports) ?_ ?_ h
  · refine ⟨fun w => tracks_empty, ?_, .inl ⟨List.forall_mem_nil _, rfl⟩,
      .inl ⟨List.forall_mem_nil _, rfl⟩⟩
    intro w elapsed helapsed
    cases helapsed
  · intro actions s a s' hs hstep
    cases a with
    | measured worker elapsed => exact hs.measured hstep
    | finished worker ok => exact hs.finished hstep

/-- A worker that has no frame in hand can always take one in: the percentile is read in range. -/
theorem isSome_measured (h : Reports actions s) {worker : ι}
    (hpending : (s.workers worker).pending = none) (elapsed : α) :
    (s.step (.measured worker elapsed)).isSome := by
  obtain ⟨p, hp, -⟩ := ((h.tracks worker).record elapsed).p99 (by simp)
  have hrecord : ((s.workers worker).reservoir.record elapsed).2 = some p := hp
  rw [step, hpending]
  simp only [hrecord, Option.map_some, Option.isSome_some]

end Runs

end LatencyState

end Workers

end SurfaceAi.Pipeline
