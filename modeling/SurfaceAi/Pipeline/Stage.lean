import SurfaceAi.Core.Error

/-! Stage kinds with the pools that run them, the key a detector is chosen by, and the
counters of a stage. Latencies and the depth last seen are not kept. -/

namespace SurfaceAi.Pipeline

inductive StageType where
  | capture | preprocess | inference | detect | ruleEval | reason | exportStage | custom
  deriving DecidableEq, Repr

inductive BackpressurePolicy where
  | block | dropOldest | degrade
  deriving DecidableEq, Repr

structure PoolConfig where
  threads : ℕ
  queueCapacity : ℕ
  deriving DecidableEq, Repr

/-- The pool that runs a stage. -/
def stageTypeToPoolKey : StageType → String
  | .capture | .preprocess => "Capture"
  | .inference | .detect => "Inference"
  | .ruleEval | .reason => "Reason"
  | .exportStage => "IO"
  | .custom => "Background"

/-- The pool sizes unless the configuration overrides them. -/
def poolConfigForKey (key : String) : PoolConfig :=
  if key = "Capture" then ⟨2, 8⟩
  else if key = "Inference" then ⟨1, 4⟩
  else if key = "Reason" then ⟨2, 16⟩
  else if key = "IO" then ⟨1, 32⟩
  else if key = "Background" then ⟨1, 16⟩
  else ⟨1, 8⟩

/-- The surface and the position of a frame. -/
abbrev BankKey := String × ℕ

structure StageMetrics where
  framesProcessed : ℕ := 0
  framesFailed : ℕ := 0
  framesDropped : ℕ := 0
  deriving DecidableEq, Repr

namespace StageMetrics

def countProcessed (m : StageMetrics) : StageMetrics :=
  { m with framesProcessed := m.framesProcessed + 1 }

def countFailed (m : StageMetrics) : StageMetrics :=
  { m with framesFailed := m.framesFailed + 1 }

def countDropped (m : StageMetrics) (n : ℕ) : StageMetrics :=
  { m with framesDropped := m.framesDropped + n }

/-- What a worker does with the result of `Process`: it counts the frame as processed and
keeps the output, or counts it as failed. -/
def settle {α : Type*} (m : StageMetrics) : Result α → Option α × StageMetrics
  | .ok output => (some output, m.countProcessed)
  | .error _ => (none, m.countFailed)

end StageMetrics

/-! The bounded queue in front of a stage, as the list of what it holds. The blocking
operations wait for room or for an item and are absent until then. -/

structure StageQueue (α : Type) where
  capacity : ℕ
  policy : BackpressurePolicy
  items : List α
  droppedCount : ℕ
  deriving DecidableEq

namespace StageQueue

variable {α : Type}

def create (capacity : ℕ) (policy : BackpressurePolicy) : StageQueue α := ⟨capacity, policy, [], 0⟩

variable (q : StageQueue α)

def depth : ℕ := q.items.length

def isFull : Bool := q.capacity ≤ q.depth

def isEmpty : Bool := q.items.isEmpty

theorem isFull_iff : q.isFull = true ↔ q.capacity ≤ q.items.length := decide_eq_true_iff

/-- `TryPush`: when full, refuse the item or drop the oldest one for it. -/
def tryPush (item : α) : Bool × StageQueue α :=
  if q.isFull then
    if q.policy = .dropOldest then
      (true, { q with items := q.items.tail ++ [item], droppedCount := q.droppedCount + 1 })
    else (false, q)
  else (true, { q with items := q.items ++ [item] })

def tryPop : Option (α × StageQueue α) :=
  match q.items with
  | [] => none
  | item :: items => some (item, { q with items := items })

/-- `PushBlocking` once its wait is over: the queue is not full. -/
def pushBlocking (item : α) : Option (StageQueue α) :=
  if q.isFull then none else some (q.tryPush item).2

theorem pushBlocking_eq_some {item : α} {q' : StageQueue α} :
    q.pushBlocking item = some q' ↔
      q.isFull = false ∧ q' = { q with items := q.items ++ [item] } := by
  unfold pushBlocking tryPush
  cases q.isFull with
  | true => simp
  | false => simp [eq_comm]

theorem tryPop_eq_some {item : α} {q' : StageQueue α} :
    q.tryPop = some (item, q') ↔
      ∃ items, q.items = item :: items ∧ q' = { q with items := items } := by
  unfold tryPop
  cases q.items with
  | nil => simp
  | cons first items => simp [and_assoc, eq_comm]

end StageQueue

end SurfaceAi.Pipeline
