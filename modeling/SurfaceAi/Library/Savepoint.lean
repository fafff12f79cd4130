import Mathlib.Data.List.Basic

/-! One connection's open transaction as a stack of named savepoints, newest first, each
with the content it saved. Rolling back to a savepoint restores its content, keeps it and
drops those above it; releasing it keeps the content and drops it with those above it. A
name means the newest savepoint that has it. -/

namespace Savepoint

structure Session (N σ : Type*) where
  content : σ
  begun : Bool
  savepoints : List (N × σ)

variable {N σ : Type*}

namespace Session

def inTransaction (s : Session N σ) : Bool := s.begun || !s.savepoints.isEmpty

/-- `BEGIN`, which a connection with a transaction open refuses. -/
def begin (s : Session N σ) : Option (Session N σ) :=
  if s.inTransaction then none else some { s with begun := true }

/-- Write to the content. -/
def set (s : Session N σ) (content : σ) : Session N σ := { s with content := content }

def savepoint (s : Session N σ) (name : N) : Session N σ :=
  { s with savepoints := (name, s.content) :: s.savepoints }

@[simp] theorem set_content (s : Session N σ) (c : σ) : (s.set c).content = c := rfl

@[simp] theorem set_savepoints (s : Session N σ) (c : σ) :
    (s.set c).savepoints = s.savepoints := rfl

@[simp] theorem savepoint_content (s : Session N σ) (name : N) :
    (s.savepoint name).content = s.content := rfl

@[simp] theorem savepoint_savepoints (s : Session N σ) (name : N) :
    (s.savepoint name).savepoints = (name, s.content) :: s.savepoints := rfl

theorem begin_content {s s' : Session N σ} (h : s.begin = some s') :
    s'.content = s.content ∧ s'.savepoints = s.savepoints := by
  unfold begin at h
  split_ifs at h
  obtain rfl := Option.some.inj h
  exact ⟨rfl, rfl⟩

variable [DecidableEq N]

/-- The newest savepoint of that name with those below it. -/
def upTo (name : N) : List (N × σ) → List (N × σ)
  | [] => []
  | (n, c) :: rest => if n = name then (n, c) :: rest else upTo name rest

def rollbackTo (s : Session N σ) (name : N) : Option (Session N σ) :=
  match upTo name s.savepoints with
  | [] => none
  | (n, c) :: rest => some { s with content := c, savepoints := (n, c) :: rest }

def release (s : Session N σ) (name : N) : Option (Session N σ) :=
  match upTo name s.savepoints with
  | [] => none
  | _ :: rest => some { s with savepoints := rest }

theorem upTo_of_notMem {name : N} {stack : List (N × σ)} (h : name ∉ stack.map Prod.fst) :
    upTo name stack = [] := by
  induction stack with
  | nil => rfl
  | cons p stack ih =>
    rw [List.map_cons, List.mem_cons, not_or] at h
    rw [upTo, if_neg (fun he => h.1 he.symm), ih h.2]

/-- Savepoints of other names on top are passed over. -/
theorem upTo_append {name : N} {newer : List (N × σ)} (h : name ∉ newer.map Prod.fst) (c : σ)
    (older : List (N × σ)) : upTo name (newer ++ (name, c) :: older) = (name, c) :: older := by
  induction newer with
  | nil => exact if_pos rfl
  | cons p newer ih =>
    rw [List.map_cons, List.mem_cons, not_or] at h
    rw [List.cons_append, upTo, if_neg (fun he => h.1 he.symm), ih h.2]

theorem rollbackTo_of_stack {s : Session N σ} {name : N} {newer older : List (N × σ)} {c : σ}
    (hs : s.savepoints = newer ++ (name, c) :: older) (h : name ∉ newer.map Prod.fst) :
    s.rollbackTo name = some { s with content := c, savepoints := (name, c) :: older } := by
  rw [rollbackTo, hs, upTo_append h]

theorem release_of_stack {s : Session N σ} {name : N} {newer older : List (N × σ)} {c : σ}
    (hs : s.savepoints = newer ++ (name, c) :: older) (h : name ∉ newer.map Prod.fst) :
    s.release name = some { s with savepoints := older } := by
  rw [release, hs, upTo_append h]

theorem rollbackTo_of_notMem {s : Session N σ} {name : N}
    (h : name ∉ s.savepoints.map Prod.fst) : s.rollbackTo name = none := by
  rw [rollbackTo, upTo_of_notMem h]

end Session

end Savepoint
