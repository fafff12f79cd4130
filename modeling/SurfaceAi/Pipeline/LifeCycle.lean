import SurfaceAi.Core.Error

/-! `Start`, `Submit` and `Stop` as single calls. Starting and stopping visit the stages and
leave at the first hook that fails; `Start` sets the running flag before it visits any. -/

namespace SurfaceAi.Pipeline

/-- The stages in the order in which the map of nodes is visited, and the queue that `Submit`
pushes to. -/
structure StageSet (ι : Type) where
  nodes : List ι
  nodup : nodes.Nodup
  entryStageId : String
  entryQueue : Bool

/-- What the hook of each stage returns. -/
abbrev Hooks (ι : Type) := ι → Result Unit

/-- `started` are the stages whose `OnStart` has succeeded and that have not received `OnStop`
since; `opened` tells whether the last `Start` to succeed came after the last `Stop`. Neither
is data of the code. -/
structure LifeState (ι : Type) where
  running : Bool
  workers : Bool
  started : List ι
  opened : Bool
  deriving DecidableEq

inductive LifeCall (ι : Type) where
  | start (hooks : Hooks ι)
  | submit
  | stop (hooks : Hooks ι)

section Model

variable {ι : Type} [DecidableEq ι]

def LifeState.created : LifeState ι := ⟨false, false, [], false⟩

/-- The `OnStart` hooks in order, up to the first failure. -/
def startAll (hooks : Hooks ι) : List ι → List ι → Result Unit × List ι
  | [], started => (.ok (), started)
  | id :: rest, started =>
    match hooks id with
    | .ok _ => startAll hooks rest (id :: started)
    | .error e => (.error e, started)

/-- The `OnStop` hooks in order, up to the first failure. -/
def stopAll (hooks : Hooks ι) : List ι → List ι → Result Unit × List ι
  | [], started => (.ok (), started)
  | id :: rest, started =>
    match hooks id with
    | .ok _ => stopAll hooks rest (started.filter (· ≠ id))
    | .error e => (.error e, started.filter (· ≠ id))

variable (cfg : StageSet ι) (s : LifeState ι)

/-- `Start`; the workers are launched once all hooks have succeeded. -/
def start (hooks : Hooks ι) : Result Unit × LifeState ι :=
  if s.running then (fail .pipelineInvalidState "Pipeline already running", s)
  else
    match startAll hooks cfg.nodes s.started with
    | (.error e, started) => (.error e, { s with running := true, started := started })
    | (.ok _, started) => (.ok (), ⟨true, true, started, true⟩)

/-- `Submit` up to its push. -/
def submit : Result Unit :=
  if !s.running then fail .pipelineInvalidState "Pipeline not running — call Start() first"
  else if !cfg.entryQueue then
    fail .pipelineInvalidConfig ("No entry stage queue found for: " ++ cfg.entryStageId)
  else .ok ()

/-- `Stop`: the workers are joined and the queues drained before the hooks. -/
def stop (hooks : Hooks ι) : Result Unit × LifeState ι :=
  match stopAll hooks cfg.nodes.reverse s.started with
  | (result, started) => (result, ⟨false, false, started, false⟩)

/-- The state after a call. -/
def LifeState.after : LifeCall ι → LifeState ι
  | .start hooks => (start cfg s hooks).2
  | .submit => s
  | .stop hooks => (stop cfg s hooks).2

/-- A property of every call of a sequence, each in the state the earlier ones leave. -/
def Throughout (P : LifeState ι → LifeCall ι → Prop) : LifeState ι → List (LifeCall ι) → Prop
  | _, [] => True
  | s, call :: calls => P s call ∧ Throughout P (s.after cfg call) calls

/-- A call keeps the life cycle balanced. A `Start` that finds the pipeline running is refused
and does nothing. -/
def BalancedCall : LifeCall ι → Prop
  | .start hooks => s.running = false → hasValue (start cfg s hooks).1 = false →
      (start cfg s hooks).2.running = false ∧ (start cfg s hooks).2.started = []
  | .submit => hasValue (submit cfg s) = true → s.opened = true
  | .stop hooks => (stop cfg s hooks).2.started = []

/-- No stage fails to start, and none that fails to stop is visited before a stage that is
still to be stopped. -/
def HooksSucceed : LifeCall ι → Prop
  | .start hooks => s.running = false → ∀ id ∈ cfg.nodes, hasValue (hooks id) = true
  | .submit => True
  | .stop hooks => ∀ before after id, cfg.nodes = before ++ id :: after → id ∈ s.started →
      ∀ later ∈ after, hasValue (hooks later) = true

end Model

/-! ### The two loops -/

section Loops

variable {ι : Type} [DecidableEq ι] {hooks : Hooks ι}

omit [DecidableEq ι] in
theorem startAll_isOk_iff (l started : List ι) :
    hasValue (startAll hooks l started).1 = true ↔ ∀ id ∈ l, hasValue (hooks id) = true := by
  induction l generalizing started with
  | nil => simp [startAll]
  | cons id l ih =>
    cases hhook : hooks id with
    | ok _ =>
      simp only [startAll, hhook]
      rw [ih]
      simp [hhook]
    | error e => simp [startAll, hhook]

omit [DecidableEq ι] in
theorem mem_startAll {l started : List ι} {x : ι} (h : x ∈ (startAll hooks l started).2) :
    x ∈ l ∨ x ∈ started := by
  induction l generalizing started with
  | nil => exact .inr h
  | cons id l ih =>
    cases hhook : hooks id with
    | ok _ =>
      simp only [startAll, hhook] at h
      rcases ih h with hl | hs
      · exact .inl (List.mem_cons_of_mem _ hl)
      · rcases List.mem_cons.mp hs with rfl | hs
        · exact .inl List.mem_cons_self
        · exact .inr hs
    | error e =>
      simp only [startAll, hhook] at h
      exact .inr h

/-- The stages whose `OnStop` is called. -/
def Reached (hooks : Hooks ι) (x : ι) : List ι → Prop
  | [] => False
  | id :: rest => x = id ∨ hasValue (hooks id) = true ∧ Reached hooks x rest

theorem mem_stopAll_iff {l started : List ι} {x : ι} :
    x ∈ (stopAll hooks l started).2 ↔ x ∈ started ∧ ¬ Reached hooks x l := by
  induction l generalizing started with
  | nil => simp [stopAll, Reached]
  | cons id l ih =>
    cases hhook : hooks id with
    | ok _ =>
      simp only [stopAll, hhook, Reached, hasValue_ok]
      rw [ih, List.mem_filter]
      simp only [ne_eq, decide_eq_true_eq]
      tauto
    | error e =>
      simp only [stopAll, hhook, Reached, hasValue_error]
      rw [List.mem_filter]
      simp only [ne_eq, decide_eq_true_eq]
      tauto

omit [DecidableEq ι] in
/-- A stage is reached when all stages visited before it succeed. -/
theorem reached_iff {before after : List ι} {x : ι} (hx : x ∉ before) :
    Reached hooks x (before ++ x :: after) ↔ ∀ id ∈ before, hasValue (hooks id) = true := by
  induction before with
  | nil => simp [Reached]
  | cons id before ih =>
    have hne : x ≠ id := List.ne_of_not_mem_cons hx
    simp only [List.cons_append, Reached, hne, false_or, ih (List.not_mem_of_not_mem_cons hx),
      List.mem_cons, forall_eq_or_imp]

end Loops

/-! ### The balance -/

section Balance

variable {ι : Type} [DecidableEq ι] {cfg : StageSet ι} {s : LifeState ι}

/-- Only stages of the pipeline are started. -/
def StartedKnown (cfg : StageSet ι) (s : LifeState ι) : Prop := ∀ id ∈ s.started, id ∈ cfg.nodes

theorem startedKnown_after (h : StartedKnown cfg s) (call : LifeCall ι) :
    StartedKnown cfg (s.after cfg call) := by
  intro id hid
  cases call with
  | submit => exact h id hid
  | start hooks =>
    simp only [LifeState.after, start] at hid
    split_ifs at hid with hrunning
    · exact h id hid
    · have hmem : id ∈ (startAll hooks cfg.nodes s.started).2 := by
        split at hid
        · next hstart => rw [hstart]; exact hid
        · next hstart => rw [hstart]; exact hid
      rcases mem_startAll hmem with hnode | hold
      · exact hnode
      · exact h id hold
  | stop hooks =>
    have hmem : id ∈ (stopAll hooks cfg.nodes.reverse s.started).2 := hid
    exact h id (mem_stopAll_iff.mp hmem).1

omit [DecidableEq ι] in
/-- A `Start` that is not refused leaves the pipeline running, whatever it returns. -/
theorem start_of_stopped (cfg : StageSet ι) (h : s.running = false) (hooks : Hooks ι) :
    (start cfg s hooks).2.running = true ∧
      (hasValue (start cfg s hooks).1 = true ↔ ∀ id ∈ cfg.nodes, hasValue (hooks id) = true) := by
  rw [← startAll_isOk_iff cfg.nodes s.started]
  simp only [start, h, Bool.false_eq_true, if_false]
  split
  · next hstart => simp [hstart]
  · next hstart => simp [hstart]

theorem balancedCall_start_iff (hooks : Hooks ι) :
    BalancedCall cfg s (.start hooks) ↔ HooksSucceed cfg s (.start hooks) := by
  unfold BalancedCall HooksSucceed
  refine forall_congr' fun hstopped => ?_
  obtain ⟨hrunning, hok⟩ := start_of_stopped cfg hstopped hooks
  rw [← hok, hrunning]
  simp

theorem balancedCall_stop_iff (h : StartedKnown cfg s) (hooks : Hooks ι) :
    BalancedCall cfg s (.stop hooks) ↔ HooksSucceed cfg s (.stop hooks) := by
  have hreached : ∀ before after id, cfg.nodes = before ++ id :: after →
      (Reached hooks id cfg.nodes.reverse ↔
        ∀ later ∈ after, hasValue (hooks later) = true) := by
    intro before after id hnodes
    have hnodup := cfg.nodup
    rw [hnodes, List.nodup_append] at hnodup
    have hid : id ∉ after.reverse := by
      rw [List.mem_reverse]
      exact (List.nodup_cons.mp hnodup.2.1).1
    have hreverse : cfg.nodes.reverse = after.reverse ++ id :: before.reverse := by simp [hnodes]
    rw [hreverse, reached_iff hid]
    simp
  show (stopAll hooks cfg.nodes.reverse s.started).2 = [] ↔ _
  rw [List.eq_nil_iff_forall_not_mem]
  constructor
  · intro hempty before after id hnodes hstarted
    rw [← hreached before after id hnodes]
    by_contra hnot
    exact hempty id (mem_stopAll_iff.mpr ⟨hstarted, hnot⟩)
  · intro hhooks id hmem
    obtain ⟨hstarted, hnot⟩ := mem_stopAll_iff.mp hmem
    obtain ⟨before, after, hnodes⟩ := List.append_of_mem (h id hstarted)
    exact hnot ((hreached before after id hnodes).mpr (hhooks before after id hnodes hstarted))

/-- While all hooks succeed the running flag says that `Start` has succeeded. -/
theorem opened_after (h : s.running = s.opened) {call : LifeCall ι}
    (hok : HooksSucceed cfg s call) :
    (s.after cfg call).running = (s.after cfg call).opened := by
  cases call with
  | submit => exact h
  | stop hooks => rfl
  | start hooks =>
    simp only [LifeState.after, start]
    split_ifs with hrunning
    · exact h
    · have hstopped : s.running = false := by simpa using hrunning
      have hsuccess := (startAll_isOk_iff cfg.nodes s.started).mpr (hok hstopped)
      split
      · next hstart => simp [hstart] at hsuccess
      · rfl

omit [DecidableEq ι] in
theorem submit_running (h : hasValue (submit cfg s) = true) : s.running = true := by
  unfold submit at h
  split_ifs at h with hrunning
  · cases h
  · cases h
  · simpa using hrunning

theorem throughout_iff (hrunning : s.running = s.opened) (hknown : StartedKnown cfg s)
    (calls : List (LifeCall ι)) :
    Throughout cfg (BalancedCall cfg) s calls ↔ Throughout cfg (HooksSucceed cfg) s calls := by
  induction calls generalizing s with
  | nil => rfl
  | cons call calls ih =>
    have hcall : BalancedCall cfg s call ↔ HooksSucceed cfg s call := by
      cases call with
      | start hooks => exact balancedCall_start_iff hooks
      | submit => exact ⟨fun _ => trivial, fun _ hsubmit => hrunning ▸ submit_running hsubmit⟩
      | stop hooks => exact balancedCall_stop_iff hknown hooks
    unfold Throughout
    rw [hcall]
    refine and_congr_right fun hok => ?_
    exact ih (opened_after hrunning hok) (startedKnown_after hknown call)

end Balance

/-- In a sequence of calls of `Start`, `Submit` and `Stop`, every call keeps the life cycle
balanced exactly when every hook that matters succeeds. -/
theorem life_cycle_balanced_iff {ι : Type} [DecidableEq ι] (cfg : StageSet ι)
    (calls : List (LifeCall ι)) :
    Throughout cfg (BalancedCall cfg) .created calls ↔
      Throughout cfg (HooksSucceed cfg) .created calls :=
  throughout_iff rfl nofun calls

/-- The second stage fails to start: the pipeline counts as running without workers, and
accepts a frame. -/
theorem failed_start_accepts_frames :
    ¬ ∀ (cfg : StageSet ℕ) (calls : List (LifeCall ℕ)),
      Throughout cfg (BalancedCall cfg) .created calls := by
  intro h
  have hcalls := h ⟨[0, 1], by decide, "capture", true⟩
    [.start fun id => if id = 0 then .ok () else fail .pipelineInvalidState "camera", .submit]
  have hstart := hcalls.1 rfl rfl
  cases hstart.1

end SurfaceAi.Pipeline
