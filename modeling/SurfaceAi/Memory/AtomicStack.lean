import SurfaceAi.Library.Transition
import SurfaceAi.Memory.FreeList

/-! The lock-free list as a stack whose operations are single steps. A pop or a push takes effect at
the exchange that it wins, and a pop that finds the list empty where it loaded the head. -/

namespace SurfaceAi.Memory

open Linked Linearization

/-- What an operation on the stack comes to. -/
inductive StackEvent (T N : Type*) where
  | popped (t : T) (node : N)
  | empty (t : T)
  | pushed (t : T) (node : N)

namespace StackEvent

variable {T N : Type*}

def owner : StackEvent T N → T
  | .popped t _ => t
  | .empty t => t
  | .pushed t _ => t

/-- The operation as a single step of the stack. -/
def apply [DecidableEq N] (stack : List N) : StackEvent T N → Option (List N)
  | .popped _ node => if stack.head? = some node then some stack.tail else none
  | .empty _ => if stack = [] then some [] else none
  | .pushed _ node => some (node :: stack)

end StackEvent

namespace FreeList

variable {T N : Type*} [DecidableEq T] [DecidableEq N] (s : FreeList T N)

/-- A load of the head settles a pop that finds no node there. -/
def loads (t : T) : Option (StackEvent T N) :=
  if s.head.pointer = none then some (.empty t) else none

/-- The operation that takes effect at an access. -/
def takes (s : FreeList T N) : FreeListAccess T N → Option (StackEvent T N)
  | .popLoad t => s.loads t
  | .popExchange t spurious =>
    match s.phase t with
    | .popRead oldHead node _ =>
      if s.exchanges oldHead spurious then some (.popped t node) else s.loads t
    | _ => none
  | .pushExchange t spurious =>
    match s.phase t with
    | .pushLinked node oldHead =>
      if s.exchanges oldHead spurious then some (.pushed t node) else none
    | _ => none
  | _ => none

/-- The operation that returns at an access. -/
def returns (s : FreeList T N) : FreeListAccess T N → Option (StackEvent T N)
  | .popNext t =>
    match s.phase t with
    | .popLoaded oldHead => if oldHead.pointer = none then some (.empty t) else none
    | _ => none
  | .popExchange t spurious =>
    match s.phase t with
    | .popRead oldHead node _ =>
      if s.exchanges oldHead spurious then some (.popped t node) else none
    | _ => none
  | .pushExchange t spurious =>
    match s.phase t with
    | .pushLinked node oldHead =>
      if s.exchanges oldHead spurious then some (.pushed t node) else none
    | _ => none
  | _ => none

end FreeList

/-- A pop that is going to return a null pointer. -/
def FreeListPhase.pending {T N : Type*} (t : T) : FreeListPhase N → List (StackEvent T N)
  | .popLoaded oldHead => if oldHead.pointer = none then [.empty t] else []
  | _ => []

namespace FreeList

variable {T N : Type*} [DecidableEq T] [DecidableEq N]

def pending (s : FreeList T N) (t : T) : List (StackEvent T N) := (s.phase t).pending t

/-! ### One access -/

section Access

variable {s s' : FreeList T N} {nodes free : List N} {t : T} {node : N}
  {oldHead : TaggedHead N} {next : Option N} {phase : FreeListPhase N} {spurious : Bool}

omit [DecidableEq N] in
/-- An access concerns the thread that makes it. -/
theorem balanced (took gave : Option (StackEvent T N))
    (hphase : s'.phase = Function.update s.phase t phase)
    (htook : ∀ e ∈ took, e.owner = t) (hgave : ∀ e ∈ gave, e.owner = t)
    (hthread : (s.phase t).pending t ++ took.toList = gave.toList ++ phase.pending t) (t' : T) :
    s.pending t' ++ eventsOf StackEvent.owner t' took.toList =
      eventsOf StackEvent.owner t' gave.toList ++ s'.pending t' := by
  by_cases ht : t' = t
  · have hmine : ∀ e : Option (StackEvent T N), (∀ x ∈ e, x.owner = t) →
        eventsOf StackEvent.owner t e.toList = e.toList := by
      intro e he
      apply List.filter_eq_self.mpr
      intro x hx
      simpa using he x (Option.mem_toList.mp hx)
    rw [ht, hmine took htook, hmine gave hgave, pending, pending, hphase, Function.update_self]
    exact hthread
  · have hnone : ∀ e : Option (StackEvent T N), (∀ x ∈ e, x.owner = t) →
        eventsOf StackEvent.owner t' e.toList = [] := by
      intro e he
      apply List.filter_eq_nil_iff.mpr
      intro x hx
      rw [he x (Option.mem_toList.mp hx)]
      simpa using Ne.symm ht
    rw [hnone took htook, hnone gave hgave, pending, pending, hphase, Function.update_of_ne ht,
      List.append_nil, List.nil_append]

omit [DecidableEq T] [DecidableEq N] in
theorem loads_owner : ∀ e ∈ s.loads t, e.owner = t := by
  intro e he
  unfold loads at he
  split at he
  · cases he
    rfl
  · cases he

omit [DecidableEq T] [DecidableEq N] in
/-- The pop that has loaded the head owes what the load settled. -/
theorem pending_loads : (FreeListPhase.popLoaded s.head).pending t = (s.loads t).toList := by
  show (if s.head.pointer = none then [StackEvent.empty t] else []) = _
  rw [loads]
  split <;> rfl

omit [DecidableEq T] in
/-- The load of an empty list is a step of the stack, and any other is none. -/
theorem run_loads (h : s.Partitioned nodes free) :
    Transition.run StackEvent.apply free (s.loads t).toList = some free := by
  unfold loads
  split
  · rename_i hnone
    have hchain := h.chain
    rw [hnone] at hchain
    cases free with
    | nil => rfl
    | cons node rest => exact absurd hchain.1 (by simp)
  · rfl

/-- What an access does to the list is what its operation does to the stack. -/
theorem Inv.step_apply (h : s.Inv nodes free) {access : FreeListAccess T N}
    (hstep : s.step access = some s') : ∃ free', s'.Inv nodes free' ∧
      Transition.run StackEvent.apply free (s.takes access).toList = some free' ∧
        ∀ t, s.pending t ++ eventsOf StackEvent.owner t (s.takes access).toList =
          eventsOf StackEvent.owner t (s.returns access).toList ++ s'.pending t := by
  cases access with
  | popLoad t =>
    simp only [FreeList.step] at hstep
    split at hstep
    · rename_i hphase
      obtain rfl := Option.some.inj hstep
      refine ⟨free, h.setPhase (by rw [hphase]; rfl) fresh_head, run_loads h.toPartitioned, ?_⟩
      apply balanced _ none rfl loads_owner (by simp)
      rw [hphase, pending_loads]
      rfl
    · cases hstep
  | popNext t =>
    simp only [FreeList.step] at hstep
    split at hstep
    · rename_i oldHead hphase
      have hknows := h.knows_at hphase
      split at hstep
      · rename_i node hnode
        obtain rfl := Option.some.inj hstep
        refine ⟨free, h.setPhase (by rw [hphase]; rfl) ⟨hnode, hknows, fun _ => rfl⟩, rfl, ?_⟩
        have hreturns : s.returns (.popNext t) = none := by
          simp [returns, hphase, hnode]
        rw [hreturns]
        apply balanced none none rfl (by simp) (by simp)
        simp [hphase, FreeListPhase.pending, hnode]
      · rename_i hnone
        obtain rfl := Option.some.inj hstep
        refine ⟨free, h.setPhase (by rw [hphase]; rfl) trivial, rfl, ?_⟩
        have hreturns : s.returns (.popNext t) = some (.empty t) := by
          simp [returns, hphase, hnone]
        rw [hreturns]
        apply balanced none _ rfl (by simp) (by simp [StackEvent.owner])
        simp [hphase, FreeListPhase.pending, hnone]
    · cases hstep
  | popExchange t spurious =>
    simp only [FreeList.step] at hstep
    split at hstep
    · rename_i oldHead node next hphase
      split at hstep
      · rename_i hexchange
        obtain rfl := Option.some.inj hstep
        obtain ⟨rest, rfl, hrest⟩ := h.take hphase (exchanges_iff.mp hexchange).1
        have htakes : s.takes (.popExchange t spurious) = some (.popped t node) := by
          simp [takes, hphase, hexchange]
        have hreturns : s.returns (.popExchange t spurious) = some (.popped t node) := by
          simp [returns, hphase, hexchange]
        rw [htakes, hreturns]
        refine ⟨rest, hrest, by simp [Transition.run, StackEvent.apply], ?_⟩
        apply balanced _ _ rfl (by simp [StackEvent.owner]) (by simp [StackEvent.owner])
        rw [hphase]
        rfl
      · rename_i hexchange
        obtain rfl := Option.some.inj hstep
        have htakes : s.takes (.popExchange t spurious) = s.loads t := by
          simp [takes, hphase, hexchange]
        have hreturns : s.returns (.popExchange t spurious) = none := by
          simp [returns, hphase, hexchange]
        rw [htakes, hreturns]
        refine ⟨free, h.setPhase (by rw [hphase]; rfl) fresh_head, run_loads h.toPartitioned, ?_⟩
        apply balanced _ none rfl loads_owner (by simp)
        rw [hphase, pending_loads]
        rfl
    · cases hstep
  | pushLoad t node =>
    simp only [FreeList.step] at hstep
    split at hstep
    · rename_i hphase
      obtain ⟨hnode, hstep⟩ := Option.ite_none_right_eq_some.mp hstep
      obtain rfl := Option.some.inj hstep
      refine ⟨free, h.give hphase hnode, rfl, ?_⟩
      apply balanced none none rfl (by simp) (by simp)
      rw [hphase]
      rfl
    · cases hstep
  | pushLink t =>
    simp only [FreeList.step] at hstep
    split at hstep
    · rename_i node oldHead hphase
      obtain rfl := Option.some.inj hstep
      refine ⟨free, h.link hphase, rfl, ?_⟩
      apply balanced none none rfl (by simp) (by simp)
      rw [hphase]
      rfl
    · cases hstep
  | pushExchange t spurious =>
    simp only [FreeList.step] at hstep
    split at hstep
    · rename_i node oldHead hphase
      split at hstep
      · rename_i hexchange
        obtain rfl := Option.some.inj hstep
        have htakes : s.takes (.pushExchange t spurious) = some (.pushed t node) := by
          simp [takes, hphase, hexchange]
        have hreturns : s.returns (.pushExchange t spurious) = some (.pushed t node) := by
          simp [returns, hphase, hexchange]
        rw [htakes, hreturns]
        refine ⟨node :: free, h.put hphase (exchanges_iff.mp hexchange).1, rfl, ?_⟩
        apply balanced _ _ rfl (by simp [StackEvent.owner]) (by simp [StackEvent.owner])
        rw [hphase]
        rfl
      · rename_i hexchange
        obtain rfl := Option.some.inj hstep
        have htakes : s.takes (.pushExchange t spurious) = none := by
          simp [takes, hphase, hexchange]
        have hreturns : s.returns (.pushExchange t spurious) = none := by
          simp [returns, hphase, hexchange]
        rw [htakes, hreturns]
        refine ⟨free, h.setPhase (by rw [hphase]; rfl) fresh_head, rfl, ?_⟩
        apply balanced none none rfl (by simp) (by simp)
        rw [hphase]
        rfl
    · cases hstep

end Access

/-! ### Every run -/

end FreeList

end SurfaceAi.Memory
