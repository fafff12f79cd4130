import SurfaceAi.Core.Error
import SurfaceAi.Library.Transition
import Mathlib.Data.Set.Card
import Mathlib.Data.Int.ModEq
import Mathlib.Algebra.BigOperators.Group.Finset.Basic
import Mathlib.Algebra.GroupWithZero.Nat

/-! Reference-counted handles to the slabs of a pinned pool. Any number of threads construct,
copy, move, assign, release and destroy handles, interleaved at every access to a count, to the
free list and to the number of free slabs. A handle is used by one thread at a time; a pop and
a push of the free list are one step each. -/

namespace SurfaceAi.Memory

structure MemoryPoolConfig where
  slabSize : UInt64
  slabCount : UInt64
  deriving DecidableEq

structure PooledPtr where
  data : UInt64
  sizeBytes : UInt64
  ownerPool : Bool
  refCount : Option ℕ
  deriving DecidableEq

/-- The null handle; a handle is cleared to it. -/
def PooledPtr.empty : PooledPtr := ⟨0, 0, false, none⟩

/-- The slab of a handle, when it is alive and valid. -/
def PooledPtr.slab (handle : Option PooledPtr) : Option ℕ :=
  handle.bind fun handle => if handle.data = 0 then none else handle.refCount

@[simp] theorem PooledPtr.slab_none : slab none = none := rfl

@[simp] theorem PooledPtr.slab_empty : slab (some empty) = none := rfl

/-- What `Create` sets once: the configuration and the address of the pinned region. -/
structure SlabRegion extends MemoryPoolConfig where
  hostRegion : UInt64
  deriving DecidableEq

namespace SlabRegion

variable (region : SlabRegion)

def slabPtr (node : ℕ) : UInt64 := region.hostRegion + UInt64.ofNat node * region.slabSize

def makeHandle (node : ℕ) : PooledPtr := ⟨region.slabPtr node, region.slabSize, true, some node⟩

/-- The node `Release` finds from the slab's address; there is none to divide by a size of zero. -/
def index (slabPtr : UInt64) : Option ℕ :=
  if region.slabSize = 0 then none
  else some ((slabPtr - region.hostRegion) / region.slabSize).toNat

/-- No offset of a slab wraps, and no slab lies at the null address. -/
def Fits : Prop :=
  ∀ node < region.slabCount.toNat, 0 < region.slabSize.toNat ∧
    node * region.slabSize.toNat < 2 ^ 64 ∧ region.slabPtr node ≠ 0

instance : Decidable region.Fits := inferInstanceAs (Decidable (∀ node < _, _))

end SlabRegion

/-- What an operation does once its target has let go of its slab. -/
inductive Rest (H : Type*) where
  | done
  | destroy (h : H)
  | copyFrom (dst src : H)
  | moveFrom (dst src : H)
  deriving DecidableEq

/-- Where a thread is: after the pop and after the decrement of the free slabs in `Acquire`;
before the `fetch_sub`, the push and the increment in `Release`; before the rest of the
operation. -/
inductive HandlePhase (H : Type*) where
  | idle
  | popped (h : H) (node : ℕ)
  | counted (h : H) (node : ℕ)
  | dropping (h : H) (rest : Rest H)
  | pushing (index : Option ℕ) (rest : Rest H)
  | adding (rest : Rest H)
  | resuming (rest : Rest H)
  deriving DecidableEq

section Uses

variable {H : Type*}

def Rest.handles : Rest H → List H
  | .done => []
  | .destroy h => [h]
  | .copyFrom dst src => [dst, src]
  | .moveFrom dst src => [dst, src]

/-- The handles that a thread is using. -/
def HandlePhase.handles : HandlePhase H → List H
  | .idle => []
  | .popped h _ => [h]
  | .counted h _ => [h]
  | .dropping h rest => h :: rest.handles
  | .pushing _ rest => rest.handles
  | .adding rest => rest.handles
  | .resuming rest => rest.handles

/-- The slab that is on its way out of the free list or back to it. -/
def HandlePhase.carries : HandlePhase H → Option ℕ
  | .popped _ node => some node
  | .counted _ node => some node
  | .pushing index _ => index
  | _ => none

/-- What the number of free slabs is behind the free list by. -/
def HandlePhase.owes : HandlePhase H → ℤ
  | .popped _ _ => 1
  | .adding _ => -1
  | _ => 0

end Uses

inductive HandleOp (H : Type*) where
  | construct (h : H)
  | acquire (h : H) (bytes : UInt64)
  | copyConstruct (dst src : H)
  | moveConstruct (dst src : H)
  | copyAssign (dst src : H)
  | moveAssign (dst src : H)
  | release (h : H)
  | destroy (h : H)

namespace HandleOp

variable {H : Type*}

/-- The handle that the operation brings to life. -/
def makes : HandleOp H → List H
  | .construct h => [h]
  | .acquire h _ => [h]
  | .copyConstruct dst _ => [dst]
  | .moveConstruct dst _ => [dst]
  | _ => []

/-- The handles that must be alive. -/
def uses : HandleOp H → List H
  | .copyConstruct _ src => [src]
  | .moveConstruct _ src => [src]
  | .copyAssign dst src => [dst, src]
  | .moveAssign dst src => [dst, src]
  | .release h => [h]
  | .destroy h => [h]
  | _ => []

end HandleOp

/-- A thread calls an operation, or takes the next step of the one it is in. -/
inductive HandleAction (T H : Type*) where
  | call (t : T) (op : HandleOp H)
  | advance (t : T)

/-- The pool with its handles and threads. -/
structure HandlePool (T H : Type*) where
  free : List ℕ
  available : UInt64
  refCount : ℕ → Int32
  handles : H → Option PooledPtr
  phase : T → HandlePhase H

namespace HandlePool

variable {T H : Type*} [DecidableEq T] [DecidableEq H] (region : SlabRegion)

/-- `Create`: every slab is on the free list. -/
def create : HandlePool T H where
  free := List.range region.slabCount.toNat
  available := region.slabCount
  refCount _ := 0
  handles _ := none
  phase _ := .idle

variable (s : HandlePool T H)

def setPhase (t : T) (phase : HandlePhase H) : HandlePool T H :=
  { s with phase := Function.update s.phase t phase }

def setHandle (h : H) (handle : Option PooledPtr) : HandlePool T H :=
  { s with handles := Function.update s.handles h handle }

def setCount (node : ℕ) (count : Int32) : HandlePool T H :=
  { s with refCount := Function.update s.refCount node count }

/-- `Acquire` up to the pop. -/
def acquire (t : T) (h : H) (bytes : UInt64) : Result (HandlePool T H) :=
  if region.slabSize < bytes then
    fail .memoryRequestExceedsSlabSize "requested bytes exceed slab_size"
  else
    match s.free with
    | [] => fail .memoryPoolExhausted "free list is empty"
    | node :: free => .ok ({ s with free := free }.setPhase t (.popped h node))

/-- The `fetch_sub` of `DropReference`, which clears the handle. -/
def drop (t : T) (h : H) (rest : Rest H) : Option (HandlePool T H) :=
  match s.handles h with
  | none => none
  | some handle =>
    if handle.data = 0 then some (s.setPhase t (.resuming rest))
    else
      match handle.ownerPool, handle.refCount with
      | true, some node =>
        some (((s.setCount node (s.refCount node - 1)).setHandle h (some .empty)).setPhase t
          (if s.refCount node = 1 then .pushing (region.index handle.data) rest
           else .resuming rest))
      | _, _ => none

/-- `PushFreeList` of the node at an index of `nodes_`. -/
def push (t : T) (index : Option ℕ) (rest : Rest H) : Option (HandlePool T H) :=
  match index with
  | none => none
  | some node =>
    if node < region.slabCount.toNat then
      some ({ s with free := node :: s.free }.setPhase t (.adding rest))
    else none

/-- The `fetch_add` of a copy, when the handle copied has a count. -/
def addReference (handle : PooledPtr) : HandlePool T H :=
  match handle.refCount with
  | none => s
  | some node => s.setCount node (s.refCount node + 1)

def resume (t : T) : Rest H → Option (HandlePool T H)
  | .done => some (s.setPhase t .idle)
  | .destroy h => some ((s.setHandle h none).setPhase t .idle)
  | .copyFrom dst src =>
    match s.handles src with
    | none => none
    | some handle =>
      some (((s.addReference handle).setHandle dst (some handle)).setPhase t .idle)
  | .moveFrom dst src =>
    match s.handles src with
    | none => none
    | some handle =>
      some (((s.setHandle dst (some handle)).setHandle src (some .empty)).setPhase t .idle)

/-- The next step of the operation that a thread is in. -/
def advance (t : T) : Option (HandlePool T H) :=
  match s.phase t with
  | .idle => none
  | .popped h node =>
    some ({ s with available := s.available - 1 }.setPhase t (.counted h node))
  | .counted h node =>
    some (((s.setCount node 1).setHandle h (some (region.makeHandle node))).setPhase t .idle)
  | .dropping h rest => s.drop region t h rest
  | .pushing index rest => s.push region t index rest
  | .adding rest => some ({ s with available := s.available + 1 }.setPhase t (.resuming rest))
  | .resuming rest => s.resume t rest

/-- An assignment to itself does nothing. -/
def assign (t : T) (dst src : H) (rest : Rest H) : HandlePool T H :=
  if dst = src then s else s.setPhase t (.dropping dst rest)

/-- The start of an operation. A failed `Acquire` makes no handle. -/
def enter (t : T) : HandleOp H → HandlePool T H
  | .construct h => s.setHandle h (some .empty)
  | .acquire h bytes =>
    match s.acquire region t h bytes with
    | .ok s' => s'
    | .error _ => s
  | .copyConstruct dst src => s.setPhase t (.resuming (.copyFrom dst src))
  | .moveConstruct dst src => s.setPhase t (.resuming (.moveFrom dst src))
  | .copyAssign dst src => s.assign t dst src (.copyFrom dst src)
  | .moveAssign dst src => s.assign t dst src (.moveFrom dst src)
  | .release h => s.setPhase t (.dropping h .done)
  | .destroy h => s.setPhase t (.dropping h (.destroy h))

/-- The thread is in no operation, and no thread is using the handles. -/
def Permits (t : T) (op : HandleOp H) : Prop :=
  s.phase t = .idle ∧ (∀ h ∈ op.makes, s.handles h = none) ∧
    (∀ h ∈ op.uses, (s.handles h).isSome) ∧
    ∀ h ∈ op.makes ++ op.uses, ∀ t', h ∉ (s.phase t').handles

instance [Fintype T] (t : T) (op : HandleOp H) : Decidable (s.Permits t op) :=
  inferInstanceAs (Decidable (_ ∧ _))

def step [Fintype T] (s : HandlePool T H) : HandleAction T H → Option (HandlePool T H)
  | .call t op => if s.Permits t op then some (s.enter region t op) else none
  | .advance t => s.advance region t

/-- The slab whose count a thread is about to increment. -/
def adds (t : T) : Option ℕ :=
  match s.phase t with
  | .resuming (.copyFrom _ src) => (s.handles src).bind (·.refCount)
  | _ => none

/-- A copy is taken only while the count can grow. -/
def Countable (s : HandlePool T H) : HandleAction T H → Prop
  | .call _ _ => True
  | .advance t => ∀ node ∈ s.adds t, s.refCount node ≠ Int32.maxValue

instance (a : HandleAction T H) : Decidable (s.Countable a) :=
  match a with
  | .call _ _ => inferInstanceAs (Decidable True)
  | .advance _ => inferInstanceAs (Decidable (∀ _ ∈ _, _))

/-- The live handles to a slab. -/
def holders (node : ℕ) : Set H := {h | PooledPtr.slab (s.handles h) = some node}

/-- What a pool promises in one state: the counts, the slabs on the free list and on the way
there, and the number of free slabs between operations. -/
structure Accurate : Prop where
  count : ∀ node, (s.holders node).Nonempty →
    (s.holders node).Finite ∧ (s.refCount node).toInt = (s.holders node).ncard
  nodup : s.free.Nodup
  unheld : ∀ node ∈ s.free, s.holders node = ∅
  returning : ∀ t index rest, s.phase t = .pushing index rest → ∃ node ∉ s.free,
    index = some node ∧ node < region.slabCount.toNat ∧ s.holders node = ∅ ∧
      ∀ t' rest', s.phase t' = .pushing index rest' → t' = t
  available : (∀ t, s.phase t = .idle) → s.available.toNat =
    region.slabCount.toNat - {node | (s.holders node).Nonempty}.ncard

/-- A slab comes back as the last handle to it goes, and only then. -/
structure Returns (s : HandlePool T H) (a : HandleAction T H) (s' : HandlePool T H) : Prop where
  dropped : ∀ node, (s.holders node).Nonempty → s'.holders node = ∅ →
    ∃ t rest, a = .advance t ∧ s'.phase t = .pushing (some node) rest
  pushed : ∀ node ∈ s'.free, node ∉ s.free → s.holders node = ∅ ∧
    ∃ t rest, a = .advance t ∧ s.phase t = .pushing (some node) rest

end HandlePool

end SurfaceAi.Memory
