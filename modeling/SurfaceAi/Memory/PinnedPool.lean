import SurfaceAi.Core.Error

/-! The pinned pool: slabs of one size on the stack of free ones. A slab that was handed out is
its holder's alone, so it stands here as the bytes it holds. -/

namespace SurfaceAi.Memory

structure Slab (slabSize : ℕ) where
  bytes : List UInt8
  length_bytes : bytes.length = slabSize
  deriving DecidableEq

namespace Slab

variable {slabSize : ℕ} (slab : Slab slabSize)

def read (count : ℕ) : List UInt8 := slab.bytes.take count

/-- `memcpy` to the start of the slab. -/
def write (bytes : List UInt8) : Slab slabSize where
  bytes := (bytes ++ slab.bytes.drop bytes.length).take slabSize
  length_bytes := by
    have h := slab.length_bytes
    simp only [List.length_take, List.length_append, List.length_drop]
    omega

theorem length_read {count : ℕ} (h : count ≤ slabSize) : (slab.read count).length = count := by
  rw [read, List.length_take, slab.length_bytes, Nat.min_eq_left h]

theorem read_write {bytes : List UInt8} {count : ℕ} (hcount : bytes.length = count)
    (h : count ≤ slabSize) : (slab.write bytes).read count = bytes := by
  rw [read, write, List.take_take, Nat.min_eq_left h, ← hcount, List.take_left]

end Slab

structure PinnedPool (slabSize : ℕ) where
  free : List (Slab slabSize)

namespace PinnedPool

variable {slabSize : ℕ} (pool : PinnedPool slabSize)

def acquire (bytes : ℕ) : Result (Slab slabSize × PinnedPool slabSize) :=
  if slabSize < bytes then
    fail .memoryRequestExceedsSlabSize "requested bytes exceed slab_size"
  else
    match pool.free with
    | [] => fail .memoryPoolExhausted "free list is empty"
    | slab :: free => .ok (slab, ⟨free⟩)

/-- The last handle to a slab is gone. -/
def release (slab : Slab slabSize) : PinnedPool slabSize := ⟨slab :: pool.free⟩

theorem acquire_eq_ok {bytes : ℕ} {slab : Slab slabSize} {pool' : PinnedPool slabSize} :
    pool.acquire bytes = .ok (slab, pool') ↔
      bytes ≤ slabSize ∧ pool.free = slab :: pool'.free := by
  obtain ⟨free⟩ := pool
  obtain ⟨free'⟩ := pool'
  unfold acquire
  split_ifs with hbytes
  · exact ⟨fun h => (by cases h), fun h => absurd h.1 (Nat.not_le_of_lt hbytes)⟩
  · cases free with
    | nil => exact ⟨fun h => (by cases h), fun h => (by cases h.2)⟩
    | cons first rest => simp [Nat.not_lt.mp hbytes]

end PinnedPool

end SurfaceAi.Memory
