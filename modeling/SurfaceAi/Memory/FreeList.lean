import SurfaceAi.Library.Chain
import SurfaceAi.Library.Transition

/-! The lock-free free list: any number of threads in `PopFreeList` and `PushFreeList`,
interleaved at every access to the list. A pop may read the next pointer of a node that
another thread has popped and is pushing again; the tag makes the exchange that relies on it
fail. -/

namespace SurfaceAi.Memory

open Linked

structure TaggedHead (N : Type*) where
  pointer : Option N
  tag : ℕ
  deriving DecidableEq

/-- Where a thread is. In `popRead` it has read the pointer that it is to make the head; in
`pushLinked` it has made its node point to the head it loaded. -/
inductive FreeListPhase (N : Type*) where
  | idle
  | popLoaded (oldHead : TaggedHead N)
  | popRead (oldHead : TaggedHead N) (node : N) (next : Option N)
  | pushLoaded (node : N) (oldHead : TaggedHead N)
  | pushLinked (node : N) (oldHead : TaggedHead N)
  deriving DecidableEq

/-- The accesses of `PopFreeList`, then those of `PushFreeList`. A weak exchange may fail
although the head is the one expected. -/
inductive FreeListAccess (T N : Type*) where
  | popLoad (t : T)
  | popNext (t : T)
  | popExchange (t : T) (spurious : Bool)
  | pushLoad (t : T) (node : N)
  | pushLink (t : T)
  | pushExchange (t : T) (spurious : Bool)

/-- The list with its threads, and the nodes that each has popped and not pushed since. -/
structure FreeList (T N : Type*) where
  head : TaggedHead N
  next : N → Option N
  phase : T → FreeListPhase N
  held : T → List N

/-- The node that a thread is pushing is still its own. -/
def FreeListPhase.pushing {N : Type*} : FreeListPhase N → List N
  | .pushLoaded node _ => [node]
  | .pushLinked node _ => [node]
  | _ => []

namespace FreeList

variable {T N : Type*} [DecidableEq T] [DecidableEq N]

/-- The list a pool starts with: its nodes linked in order. -/
def create (nodes : List N) : FreeList T N where
  head := ⟨nodes.head?, 0⟩
  next := link nodes
  phase _ := .idle
  held _ := []

variable (s : FreeList T N)

def setPhase (t : T) (phase : FreeListPhase N) : FreeList T N :=
  { s with phase := Function.update s.phase t phase }

def setHeld (t : T) (nodes : List N) : FreeList T N :=
  { s with held := Function.update s.held t nodes }

/-- A pop whose exchange succeeds returns the node it loaded. -/
def take (t : T) (node : N) (head : TaggedHead N) : FreeList T N :=
  ({ s with head := head }.setHeld t (node :: s.held t)).setPhase t .idle

/-- `compare_exchange_weak` on the head. -/
def exchanges (expected : TaggedHead N) (spurious : Bool) : Bool :=
  s.head = expected ∧ spurious = false

def step (s : FreeList T N) : FreeListAccess T N → Option (FreeList T N)
  | .popLoad t =>
    match s.phase t with
    | .idle => some (s.setPhase t (.popLoaded s.head))
    | _ => none
  | .popNext t =>
    match s.phase t with
    | .popLoaded oldHead =>
      match oldHead.pointer with
      | some node => some (s.setPhase t (.popRead oldHead node (s.next node)))
      | none => some (s.setPhase t .idle)
    | _ => none
  | .popExchange t spurious =>
    match s.phase t with
    | .popRead oldHead node next =>
      if s.exchanges oldHead spurious then some (s.take t node ⟨next, oldHead.tag + 1⟩)
      else some (s.setPhase t (.popLoaded s.head))
    | _ => none
  | .pushLoad t node =>
    match s.phase t with
    | .idle =>
      if node ∈ s.held t then
        some ((s.setHeld t ((s.held t).erase node)).setPhase t (.pushLoaded node s.head))
      else none
    | _ => none
  | .pushLink t =>
    match s.phase t with
    | .pushLoaded node oldHead =>
      some ({ s with next := Function.update s.next node oldHead.pointer }.setPhase t
        (.pushLinked node oldHead))
    | _ => none
  | .pushExchange t spurious =>
    match s.phase t with
    | .pushLinked node oldHead =>
      if s.exchanges oldHead spurious then
        some ({ s with head := ⟨some node, oldHead.tag + 1⟩ }.setPhase t .idle)
      else some (s.setPhase t (.pushLoaded node s.head))
    | _ => none

/-- The nodes a thread holds, the one it is pushing among them. -/
def holding (t : T) : List N := s.held t ++ (s.phase t).pushing

/-- The nodes of the list are free or held, each by one owner. -/
structure Partitioned (nodes free : List N) : Prop where
  chain : Chain s.next s.head.pointer free
  nodup : free.Nodup
  notFree : ∀ t, ∀ n ∈ s.holding t, n ∉ free
  oneHolder : ∀ t t' n, n ∈ s.holding t → n ∈ s.holding t' → t = t'
  heldOnce : ∀ t, (s.holding t).Nodup
  total : ∀ n, n ∈ nodes ↔ n ∈ free ∨ ∃ t, n ∈ s.holding t

/-- While the tag is the one it loaded, the head is too. -/
def Fresh (oldHead : TaggedHead N) : Prop :=
  oldHead.tag ≤ s.head.tag ∧ (oldHead.tag = s.head.tag → oldHead.pointer = s.head.pointer)

/-- What a thread relies on while the tag is the one it loaded; that its node points to the head
it loaded it can rely on in any case. -/
def Knows : FreeListPhase N → Prop
  | .idle => True
  | .popLoaded oldHead => s.Fresh oldHead
  | .popRead oldHead node next => oldHead.pointer = some node ∧ s.Fresh oldHead ∧
      (oldHead.tag = s.head.tag → next = s.next node)
  | .pushLoaded _ oldHead => s.Fresh oldHead
  | .pushLinked node oldHead => s.Fresh oldHead ∧ s.next node = oldHead.pointer

structure Inv (nodes free : List N) : Prop extends s.Partitioned nodes free where
  knows : ∀ t, s.Knows (s.phase t)

/-- What an access does to the stack of free nodes. -/
inductive StackStep : List N → List N → Prop where
  | stay (free : List N) : StackStep free free
  | pop (node : N) (free : List N) : StackStep (node :: free) free
  | push (node : N) (free : List N) : StackStep free (node :: free)

/-! ### What a step leaves as it was -/

section Frame

variable {s} {s' : FreeList T N} {nodes free : List N} {t t' : T} {phase : FreeListPhase N}

omit [DecidableEq N] in
@[simp] theorem setPhase_phase_self : (s.setPhase t phase).phase t = phase := Function.update_self ..

omit [DecidableEq N] in
theorem setPhase_phase_ne (h : t' ≠ t) : (s.setPhase t phase).phase t' = s.phase t' :=
  Function.update_of_ne h ..

omit [DecidableEq T] [DecidableEq N] in
theorem exchanges_iff {expected : TaggedHead N} {spurious : Bool} [DecidableEq N] :
    s.exchanges expected spurious = true ↔ s.head = expected ∧ spurious = false := by
  simp [exchanges]

omit [DecidableEq N] in
/-- A thread that neither takes a node nor gives one away. -/
theorem holding_setPhase (hpush : phase.pushing = (s.phase t).pushing) (t' : T) :
    (s.setPhase t phase).holding t' = s.holding t' := by
  by_cases ht : t' = t
  · rw [ht, holding, setPhase_phase_self, hpush]
    rfl
  · rw [holding, setPhase_phase_ne ht]
    rfl

omit [DecidableEq T] [DecidableEq N] in
theorem Partitioned.of_perm (h : s.Partitioned nodes free)
    (hchain : Chain s'.next s'.head.pointer free)
    (hheld : ∀ t, (s'.holding t).Perm (s.holding t)) : s'.Partitioned nodes free where
  chain := hchain
  nodup := h.nodup
  notFree t n hn := h.notFree t n ((hheld t).mem_iff.mp hn)
  oneHolder t t' n hn hn' :=
    h.oneHolder t t' n ((hheld t).mem_iff.mp hn) ((hheld t').mem_iff.mp hn')
  heldOnce t := (hheld t).nodup_iff.mpr (h.heldOnce t)
  total n := by
    rw [h.total n]
    exact or_congr_right (exists_congr fun t => (hheld t).mem_iff.symm)

omit [DecidableEq T] [DecidableEq N] in
/-- Once the tag has moved on, what was loaded before is stale for good. -/
theorem Fresh.advance {oldHead : TaggedHead N} (h : s.Fresh oldHead)
    (htag : s'.head.tag = s.head.tag + 1) : s'.Fresh oldHead := by
  obtain ⟨hle, -⟩ := h
  refine ⟨by omega, fun heq => ?_⟩
  omega

omit [DecidableEq T] [DecidableEq N] in
theorem fresh_head : s.Fresh s.head := ⟨Nat.le_refl _, fun _ => rfl⟩

omit [DecidableEq T] [DecidableEq N] in
/-- An exchange that another thread wins. -/
theorem Knows.advance (h : s.Knows phase) (hnext : s'.next = s.next)
    (htag : s'.head.tag = s.head.tag + 1) : s'.Knows phase := by
  cases phase with
  | idle => trivial
  | popLoaded oldHead => exact Fresh.advance h htag
  | popRead oldHead node next =>
    obtain ⟨hnode, hfresh, -⟩ := h
    refine ⟨hnode, hfresh.advance htag, fun heq => ?_⟩
    have hle := hfresh.1
    omega
  | pushLoaded node oldHead => exact Fresh.advance h htag
  | pushLinked node oldHead => exact ⟨h.1.advance htag, by rw [hnext]; exact h.2⟩

omit [DecidableEq T] [DecidableEq N] in
theorem Inv.knows_at (h : s.Inv nodes free) (hphase : s.phase t = phase) : s.Knows phase :=
  hphase ▸ h.knows t

omit [DecidableEq N] in
/-- A step of one thread that changes its phase only. -/
theorem Inv.setPhase (h : s.Inv nodes free) (hpush : phase.pushing = (s.phase t).pushing)
    (hknows : s.Knows phase) : (s.setPhase t phase).Inv nodes free := by
  refine ⟨h.toPartitioned.of_perm h.chain fun t' => ?_, fun t' => ?_⟩
  · rw [holding_setPhase hpush]
  · by_cases ht : t' = t
    · rw [ht, setPhase_phase_self]
      exact hknows
    · rw [setPhase_phase_ne ht]
      exact h.knows t'

end Frame

/-! ### The accesses -/

section Accesses

variable {s} {s' : FreeList T N} {nodes free : List N} {t t' : T} {node n : N}
  {oldHead head : TaggedHead N} {next : Option N} {spurious : Bool}

omit [DecidableEq N] in
theorem holding_take_self (hphase : (s.phase t).pushing = []) :
    (s.take t node head).holding t = node :: s.holding t := by
  rw [holding, take, setPhase_phase_self, holding, hphase, List.append_nil]
  show Function.update s.held t (node :: s.held t) t ++ [] = _
  rw [Function.update_self, List.append_nil]

omit [DecidableEq N] in
theorem holding_take_ne (ht : t' ≠ t) : (s.take t node head).holding t' = s.holding t' := by
  rw [holding, take, setPhase_phase_ne ht]
  show Function.update s.held t (node :: s.held t) t' ++ _ = _
  rw [Function.update_of_ne ht]
  rfl

omit [DecidableEq N] in
theorem mem_holding_take (hphase : (s.phase t).pushing = []) :
    n ∈ (s.take t node head).holding t' ↔ t' = t ∧ n = node ∨ n ∈ s.holding t' := by
  by_cases ht : t' = t
  · rw [ht, holding_take_self hphase, List.mem_cons, eq_self, true_and]
  · rw [holding_take_ne ht]
    exact (or_iff_right fun hc => ht hc.1).symm

omit [DecidableEq N] in
/-- The first free node goes to a thread. -/
theorem Partitioned.take (h : s.Partitioned nodes (node :: free))
    (hphase : (s.phase t).pushing = []) (hchain : Chain s.next head.pointer free) :
    (s.take t node head).Partitioned nodes free := by
  have hnodup := List.nodup_cons.mp h.nodup
  have hfree : ∀ t', node ∉ s.holding t' := fun t' hn =>
    h.notFree t' node hn List.mem_cons_self
  refine ⟨hchain, hnodup.2, ?_, ?_, ?_, ?_⟩
  · intro t' n hn hrest
    rcases (mem_holding_take hphase).mp hn with ⟨-, rfl⟩ | hn
    · exact hnodup.1 hrest
    · exact h.notFree t' n hn (List.mem_cons_of_mem _ hrest)
  · intro t₁ t₂ n h₁ h₂
    rcases (mem_holding_take hphase).mp h₁ with ⟨ht₁, hn⟩ | h₁
    · rcases (mem_holding_take hphase).mp h₂ with ⟨ht₂, -⟩ | h₂
      · rw [ht₁, ht₂]
      · exact absurd (hn ▸ h₂) (hfree t₂)
    · rcases (mem_holding_take hphase).mp h₂ with ⟨-, hn⟩ | h₂
      · exact absurd (hn ▸ h₁) (hfree t₁)
      · exact h.oneHolder t₁ t₂ n h₁ h₂
  · intro t'
    by_cases ht : t' = t
    · rw [ht, holding_take_self hphase]
      exact List.nodup_cons.mpr ⟨hfree t, h.heldOnce t⟩
    · rw [holding_take_ne ht]
      exact h.heldOnce t'
  · intro n
    rw [h.total n, List.mem_cons]
    constructor
    · rintro ((rfl | hn) | ⟨t', hn⟩)
      · exact .inr ⟨t, (mem_holding_take hphase).mpr (.inl ⟨rfl, rfl⟩)⟩
      · exact .inl hn
      · exact .inr ⟨t', (mem_holding_take hphase).mpr (.inr hn)⟩
    · rintro (hn | ⟨t', hn⟩)
      · exact .inl (.inr hn)
      · rcases (mem_holding_take hphase).mp hn with ⟨-, rfl⟩ | hn
        · exact .inl (.inl rfl)
        · exact .inr ⟨t', hn⟩

omit [DecidableEq N] in
/-- A pop that wins its exchange has read the next pointer of the head as it still is. -/
theorem Inv.take (h : s.Inv nodes free) (hphase : s.phase t = .popRead oldHead node next)
    (hhead : s.head = oldHead) :
    ∃ rest, free = node :: rest ∧ (s.take t node ⟨next, oldHead.tag + 1⟩).Inv nodes rest := by
  obtain ⟨hnode, -, hnext⟩ := h.knows_at hphase
  have hnext := hnext (by rw [hhead])
  have hchain := h.chain
  rw [hhead, hnode] at hchain
  obtain ⟨rest, rfl, hrest⟩ := hchain.eq_cons
  refine ⟨rest, rfl, h.toPartitioned.take (by rw [hphase]; rfl) (by rw [hnext]; exact hrest), ?_⟩
  intro t'
  by_cases ht : t' = t
  · rw [ht, FreeList.take, setPhase_phase_self]
    trivial
  · rw [FreeList.take, setPhase_phase_ne ht]
    exact Knows.advance (h.knows t') rfl (by rw [hhead]; rfl)

/-- A push begins: the node is still its thread's. -/
theorem Inv.give (h : s.Inv nodes free) (hphase : s.phase t = .idle) (hnode : node ∈ s.held t) :
    ((s.setHeld t ((s.held t).erase node)).setPhase t (.pushLoaded node s.head)).Inv nodes free := by
  refine ⟨h.toPartitioned.of_perm h.chain fun t' => ?_, fun t' => ?_⟩
  · by_cases ht : t' = t
    · rw [ht, holding, setPhase_phase_self, holding, hphase]
      show (Function.update s.held t ((s.held t).erase node) t ++ [node]).Perm (s.held t ++ [])
      rw [Function.update_self, List.append_nil]
      exact List.perm_append_comm.trans (List.perm_cons_erase hnode).symm
    · rw [holding, setPhase_phase_ne ht]
      show (Function.update s.held t ((s.held t).erase node) t' ++ _).Perm _
      rw [Function.update_of_ne ht]
      rfl
  · by_cases ht : t' = t
    · rw [ht, setPhase_phase_self]
      exact fresh_head
    · rw [setPhase_phase_ne ht]
      exact h.knows t'

/-- A write to a node that its thread alone holds. The other threads have read from it at most
while it was free, which it no longer is under the tag they loaded. -/
theorem Inv.link (h : s.Inv nodes free) (hphase : s.phase t = .pushLoaded node oldHead) :
    ({ s with next := Function.update s.next node oldHead.pointer }.setPhase t
      (.pushLinked node oldHead)).Inv nodes free := by
  have hmine : node ∈ s.holding t := by
    rw [holding, hphase]
    exact List.mem_append_right _ List.mem_cons_self
  have hfree : node ∉ free := h.notFree t node hmine
  refine ⟨h.toPartitioned.of_perm ((chain_update hfree).mpr h.chain) fun t' => ?_, fun t' => ?_⟩
  · by_cases ht : t' = t
    · rw [ht, holding, setPhase_phase_self, holding, hphase]
      rfl
    · rw [holding, setPhase_phase_ne ht]
      rfl
  · by_cases ht : t' = t
    · rw [ht, setPhase_phase_self]
      have hknows := h.knows_at hphase
      exact ⟨hknows, Function.update_self ..⟩
    · rw [setPhase_phase_ne ht]
      have hknows := h.knows t'
      cases hphase' : s.phase t' with
      | idle => trivial
      | popLoaded oldHead' => rwa [hphase'] at hknows
      | pushLoaded node' oldHead' => rwa [hphase'] at hknows
      | popRead oldHead' node' next' =>
        rw [hphase'] at hknows
        obtain ⟨hnode', hfresh, hnext⟩ := hknows
        refine ⟨hnode', hfresh, fun htag => ?_⟩
        -- the head it loaded is the head, hence free, hence not the node
        have hne : node' ≠ node := by
          rintro rfl
          have hchain := h.chain
          rw [← hfresh.2 htag, hnode'] at hchain
          obtain ⟨rest, rfl, -⟩ := hchain.eq_cons
          exact hfree List.mem_cons_self
        rw [hnext htag]
        exact (Function.update_of_ne hne ..).symm
      | pushLinked node' oldHead' =>
        rw [hphase'] at hknows
        have hne : node' ≠ node := by
          rintro rfl
          have hyours : node' ∈ s.holding t' := by
            rw [holding, hphase']
            exact List.mem_append_right _ List.mem_cons_self
          exact ht (h.oneHolder t' t node' hyours hmine)
        exact ⟨hknows.1, (Function.update_of_ne hne ..).trans hknows.2⟩

omit [DecidableEq N] in
theorem mem_holding_put (hphase : s.phase t = .pushLinked node oldHead) (hinv : s.Inv nodes free) :
    n ∈ ({ s with head := head }.setPhase t .idle).holding t' ↔ n ∈ s.holding t' ∧ n ≠ node := by
  have hheld : s.holding t = s.held t ++ [node] := by rw [holding, hphase]; rfl
  have hmine : node ∈ s.holding t := hheld ▸ List.mem_append_right _ List.mem_cons_self
  by_cases ht : t' = t
  · have honce := hheld ▸ hinv.heldOnce t
    rw [ht, hheld, holding, setPhase_phase_self]
    show n ∈ s.held t ++ [] ↔ _
    rw [List.append_nil, List.mem_append, List.mem_singleton]
    constructor
    · intro hn
      refine ⟨.inl hn, ?_⟩
      rintro rfl
      exact (List.nodup_append.mp honce).2.2 n hn n List.mem_cons_self rfl
    · rintro ⟨hn | hn, hne⟩
      · exact hn
      · exact absurd hn hne
  · rw [holding, setPhase_phase_ne ht]
    show n ∈ s.holding t' ↔ _
    refine ⟨fun hn => ⟨hn, ?_⟩, And.left⟩
    rintro rfl
    exact ht (hinv.oneHolder t' t n hn hmine)

omit [DecidableEq N] in
/-- A push that wins its exchange has made its node point to the head as it still is. -/
theorem Inv.put (h : s.Inv nodes free) (hphase : s.phase t = .pushLinked node oldHead)
    (hhead : s.head = oldHead) :
    ({ s with head := ⟨some node, oldHead.tag + 1⟩ }.setPhase t .idle).Inv nodes
      (node :: free) := by
  have hknows := h.knows_at hphase
  have hmine : node ∈ s.holding t := by
    rw [holding, hphase]
    exact List.mem_append_right _ List.mem_cons_self
  refine ⟨⟨?_, ?_, ?_, ?_, ?_, ?_⟩, ?_⟩
  · refine ⟨rfl, ?_⟩
    show Chain s.next (s.next node) free
    rw [hknows.2, ← hhead]
    exact h.chain
  · exact List.nodup_cons.mpr ⟨h.notFree t node hmine, h.nodup⟩
  · intro t' n hn hmem
    obtain ⟨hn, hne⟩ := (mem_holding_put hphase h).mp hn
    rcases List.mem_cons.mp hmem with hc | hmem
    · exact hne hc
    · exact h.notFree t' n hn hmem
  · intro t₁ t₂ n h₁ h₂
    exact h.oneHolder t₁ t₂ n ((mem_holding_put hphase h).mp h₁).1
      ((mem_holding_put hphase h).mp h₂).1
  · intro t'
    by_cases ht : t' = t
    · have honce := h.heldOnce t
      rw [holding, hphase] at honce
      rw [ht, holding, setPhase_phase_self]
      show (s.held t ++ []).Nodup
      rw [List.append_nil]
      exact honce.of_append_left
    · rw [holding, setPhase_phase_ne ht]
      exact h.heldOnce t'
  · intro n
    rw [h.total n, List.mem_cons]
    constructor
    · rintro (hn | ⟨t', hn⟩)
      · exact .inl (.inr hn)
      · by_cases hne : n = node
        · exact .inl (.inl hne)
        · exact .inr ⟨t', (mem_holding_put hphase h).mpr ⟨hn, hne⟩⟩
    · rintro ((rfl | hn) | ⟨t', hn⟩)
      · exact .inr ⟨t, hmine⟩
      · exact .inl hn
      · exact .inr ⟨t', ((mem_holding_put hphase h).mp hn).1⟩
  · intro t'
    by_cases ht : t' = t
    · rw [ht, setPhase_phase_self]
      trivial
    · rw [setPhase_phase_ne ht]
      exact Knows.advance (h.knows t') rfl (by rw [hhead]; rfl)

/-- Every access of every thread keeps the partition, and moves at most the node on top. -/
theorem Inv.step (h : s.Inv nodes free) {access : FreeListAccess T N}
    (hstep : s.step access = some s') : ∃ free', s'.Inv nodes free' ∧ StackStep free free' := by
  cases access with
  | popLoad t =>
    simp only [FreeList.step] at hstep
    split at hstep
    · obtain rfl := Option.some.inj hstep
      rename_i hphase
      exact ⟨free, h.setPhase (by rw [hphase]; rfl) fresh_head, .stay free⟩
    · cases hstep
  | popNext t =>
    simp only [FreeList.step] at hstep
    split at hstep
    · rename_i oldHead hphase
      have hknows := h.knows_at hphase
      split at hstep
      · rename_i node hnode
        obtain rfl := Option.some.inj hstep
        exact ⟨free, h.setPhase (by rw [hphase]; rfl) ⟨hnode, hknows, fun _ => rfl⟩, .stay free⟩
      · obtain rfl := Option.some.inj hstep
        exact ⟨free, h.setPhase (by rw [hphase]; rfl) trivial, .stay free⟩
    · cases hstep
  | popExchange t spurious =>
    simp only [FreeList.step] at hstep
    split at hstep
    · rename_i oldHead node next hphase
      split at hstep
      · rename_i hexchange
        obtain rfl := Option.some.inj hstep
        obtain ⟨rest, rfl, hrest⟩ := h.take hphase (exchanges_iff.mp hexchange).1
        exact ⟨rest, hrest, .pop node rest⟩
      · obtain rfl := Option.some.inj hstep
        exact ⟨free, h.setPhase (by rw [hphase]; rfl) fresh_head, .stay free⟩
    · cases hstep
  | pushLoad t node =>
    simp only [FreeList.step] at hstep
    split at hstep
    · rename_i hphase
      obtain ⟨hnode, hstep⟩ := Option.ite_none_right_eq_some.mp hstep
      obtain rfl := Option.some.inj hstep
      exact ⟨free, h.give hphase hnode, .stay free⟩
    · cases hstep
  | pushLink t =>
    simp only [FreeList.step] at hstep
    split at hstep
    · rename_i node oldHead hphase
      obtain rfl := Option.some.inj hstep
      exact ⟨free, h.link hphase, .stay free⟩
    · cases hstep
  | pushExchange t spurious =>
    simp only [FreeList.step] at hstep
    split at hstep
    · rename_i node oldHead hphase
      split at hstep
      · rename_i hexchange
        obtain rfl := Option.some.inj hstep
        exact ⟨node :: free, h.put hphase (exchanges_iff.mp hexchange).1, .push node free⟩
      · obtain rfl := Option.some.inj hstep
        exact ⟨free, h.setPhase (by rw [hphase]; rfl) fresh_head, .stay free⟩
    · cases hstep

end Accesses

/-! ### Every run -/

variable {nodes : List N}

omit [DecidableEq T] in
theorem inv_create (h : nodes.Nodup) : (create nodes : FreeList T N).Inv nodes nodes := by
  have hnone : ∀ t, (create nodes : FreeList T N).holding t = [] := fun _ => rfl
  refine ⟨⟨chain_link h, h, ?_, ?_, ?_, ?_⟩, fun t => trivial⟩
  · intro t n hn
    rw [hnone] at hn
    cases hn
  · intro t t' n hn
    rw [hnone] at hn
    cases hn
  · intro t
    rw [hnone]
    exact List.nodup_nil
  · intro n
    refine ⟨.inl, ?_⟩
    rintro (hn | ⟨t, hn⟩)
    · exact hn
    · rw [hnone] at hn
      cases hn

/-- Whatever the interleaving, each node is free or held by one thread. -/
theorem freeList_partitioned (hnodes : nodes.Nodup) {accesses : List (FreeListAccess T N)}
    {s : FreeList T N} (hrun : Transition.run step (create nodes) accesses = some s) :
    ∃ free, s.Partitioned nodes free := by
  obtain ⟨free, hinv⟩ := Transition.run_induction step
    (P := fun _ s => ∃ free, s.Inv nodes free) ⟨nodes, inv_create hnodes⟩
    (fun _ s access s' ⟨free, hinv⟩ hstep =>
      let ⟨free', hinv', _⟩ := hinv.step hstep
      ⟨free', hinv'⟩) hrun
  exact ⟨free, hinv.toPartitioned⟩

/-- Thread 0 reads that 1 is behind 0 and stops; thread 1 pops both nodes and returns 0. The head
is 0 again, with another tag, so the exchange of thread 0 fails. -/
def staleExchange : List (FreeListAccess (Fin 2) (Fin 2)) :=
  [.popLoad 0, .popNext 0,
    .popLoad 1, .popNext 1, .popExchange 1 false, .popLoad 1, .popNext 1, .popExchange 1 false,
    .pushLoad 1 0, .pushLink 1, .pushExchange 1 false,
    .popExchange 0 false, .popNext 0, .popExchange 0 false]

theorem freeList_partitioned_staleExchange :
    ∃ s : FreeList (Fin 2) (Fin 2), Transition.run step (create [0, 1]) staleExchange = some s ∧
      s.held 0 = [0] ∧ s.held 1 = [1] ∧ ∃ free, s.Partitioned [0, 1] free := by
  obtain ⟨s, hrun, h₀, h₁⟩ : ∃ s : FreeList (Fin 2) (Fin 2),
      Transition.run step (create [0, 1]) staleExchange = some s ∧ s.held 0 = [0] ∧
        s.held 1 = [1] := ⟨_, rfl, rfl, rfl⟩
  exact ⟨s, hrun, h₀, h₁, freeList_partitioned (by decide) hrun⟩

end FreeList

end SurfaceAi.Memory
