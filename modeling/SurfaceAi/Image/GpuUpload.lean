import SurfaceAi.Core.Image
import SurfaceAi.Memory.PinnedPool
import Mathlib.Algebra.Group.Nat.Defs

/-! The round trip of an image over the GPU: the slabs of the pinned pool that it passes, in both
directions, and what is in them. -/

namespace SurfaceAi.Images

open Memory

variable {slabSize : ℕ}

inductive CopyDirection where
  | hostToDevice
  | deviceToHost

/-- What CUDA answers to a copy. A copy without its callback is waited for; a completed one carries
the status of its end. An error is the text that CUDA has for it. -/
inductive CopyOutcome where
  | notLaunched (text : String)
  | notRegistered (text : String)
  | completed (status : Option String)

def CopyOutcome.result : CopyOutcome → Result Unit
  | .completed none => .ok ()
  | .notLaunched text | .notRegistered text | .completed (some text) =>
    fail .coreUnknown ("GPU async copy failed: " ++ text)

/-- `cudaMemcpyAsync` between the slab the caller hands over, the device side to
`EnqueueAsyncCopy`, and the transfer slab. -/
def memcpyAsync (direction : CopyDirection) (device pinned : Slab slabSize) (bytes : ℕ) :
    Slab slabSize × Slab slabSize :=
  match direction with
  | .hostToDevice => (device.write (pinned.read bytes), pinned)
  | .deviceToHost => (device, pinned.write (device.read bytes))

/-- `EnqueueAsyncCopy`, with the slab it was handed and the pool, to which the transfer slab is
back. -/
def enqueueAsyncCopy (pool : PinnedPool slabSize) (source : Slab slabSize) (bytes : ℕ)
    (direction : CopyDirection) (stopRequested : Bool) (outcome : CopyOutcome) :
    Result Unit × Slab slabSize × PinnedPool slabSize :=
  if stopRequested then
    (fail .runtimeCancelled "EnqueueAsyncCopy cancelled before issuing cudaMemcpyAsync", source,
      pool)
  else
    match pool.acquire bytes with
    | .error e => (.error e, source, pool)
    | .ok (transfer, pool) =>
      let copied := match outcome with
        | .notLaunched _ => (source, transfer)
        | _ => memcpyAsync direction source transfer bytes
      (outcome.result, copied.1, pool.release copied.2)

/-- A `SurfaceImage` in a pinned slab. -/
structure PinnedImage (slabSize : ℕ) where
  imageMeta : ImageMeta
  buffer : Slab slabSize
  sizeBytes : ℕ

/-- `FromPinned`: the size is that of the metadata, in machine arithmetic. -/
def fromPinned (buffer : Slab slabSize) (imageMeta : ImageMeta) : PinnedImage slabSize :=
  ⟨imageMeta, buffer, imageMeta.byteSize % 2 ^ 64⟩

/-- `GpuUploadCoroutine`, with the answers to its two copies. The frame of the first copy takes
its slab along; that of the second shares it. -/
def gpuUploadCoroutine (pool : PinnedPool slabSize) (image : Image) (htod dtoh : CopyOutcome) :
    Result (PinnedImage slabSize) × PinnedPool slabSize :=
  let size := image.bytes.length
  match pool.acquire size with
  | .error e => (.error e, pool)
  | .ok (transit, pool) =>
    match enqueueAsyncCopy pool (transit.write image.bytes) size .hostToDevice false htod with
    | (.error e, transit, pool) => (.error e, pool.release transit)
    | (.ok (), transit, pool) =>
      let pool := pool.release transit
      match pool.acquire size with
      | .error e => (.error e, pool)
      | .ok (transit2, pool) =>
        match enqueueAsyncCopy pool transit2 size .deviceToHost false dtoh with
        | (.error e, transit2, pool) => (.error e, pool.release transit2)
        | (.ok (), transit2, pool) => (.ok (fromPinned transit2 image.imageMeta), pool)

/-- The step of `MakeGpuUploadStep`; there is no image where the pointer is null or the image
has no buffer. -/
def gpuUploadStep (pool : PinnedPool slabSize) (image : Option Image) (htod dtoh : CopyOutcome) :
    Result (PinnedImage slabSize) × PinnedPool slabSize :=
  match image with
  | none =>
    (fail .imagePreprocessFailed "MakeGpuUploadStep: input image is null or invalid", pool)
  | some image => gpuUploadCoroutine pool image htod dtoh

/-- Same metadata, same size, same bytes. -/
structure Preserves (image : Image) (result : PinnedImage slabSize) : Prop where
  imageMeta : result.imageMeta = image.imageMeta
  sizeBytes : result.sizeBytes = image.bytes.length
  bytes : result.buffer.read image.bytes.length = image.bytes

/-- The size is that of the metadata, and the second free slab begins with the image already. -/
def StaleSlabMatches (pool : PinnedPool slabSize) (image : Image) : Prop :=
  image.imageMeta.byteSize % 2 ^ 64 = image.bytes.length ∧
    ∃ slab, pool.free[1]? = some slab ∧ slab.read image.bytes.length = image.bytes

/-! ### What a round trip leaves in the slab -/

variable {pool pool' : PinnedPool slabSize} {source source' : Slab slabSize} {image : Image}
  {result : PinnedImage slabSize} {htod dtoh outcome : CopyOutcome} {bytes : ℕ}

/-- A copy that succeeds has gone through the first free slab. -/
theorem enqueueAsyncCopy_ok {direction : CopyDirection}
    (h : enqueueAsyncCopy pool source bytes direction false outcome = (.ok (), source', pool')) :
    bytes ≤ slabSize ∧ ∃ transfer rest, pool.free = transfer :: rest ∧
      source' = (memcpyAsync direction source transfer bytes).1 ∧
      pool'.free = (memcpyAsync direction source transfer bytes).2 :: rest := by
  unfold enqueueAsyncCopy at h
  rw [if_neg (by simp)] at h
  split at h
  · cases h
  · rename_i transfer rest hacquire
    obtain ⟨hbytes, hfree⟩ := (pool.acquire_eq_ok).mp hacquire
    refine ⟨hbytes, transfer, rest.free, hfree, ?_⟩
    cases outcome with
    | notLaunched text => cases h
    | notRegistered text => cases h
    | completed status =>
      cases status with
      | some text => cases h
      | none =>
        obtain ⟨-, rfl, rfl⟩ := h
        exact ⟨rfl, rfl⟩

/-- The slab that comes back holds what was in the second free slab before. -/
theorem gpuUploadCoroutine_ok
    (h : gpuUploadCoroutine pool image htod dtoh = (.ok result, pool')) :
    ∃ buffer second, pool.free[1]? = some second ∧
      result = fromPinned buffer image.imageMeta ∧
      buffer.read image.bytes.length = second.read image.bytes.length := by
  unfold gpuUploadCoroutine at h
  dsimp only at h
  split at h
  · cases h
  rename_i transit pool₁ hacquire
  obtain ⟨hsize, hfree⟩ := (pool.acquire_eq_ok).mp hacquire
  split at h
  · cases h
  rename_i transit' pool₂ hhtod
  obtain ⟨-, second, rest, hfree₁, rfl, hfree₂⟩ := enqueueAsyncCopy_ok hhtod
  split at h
  · cases h
  rename_i transit2 pool₃ hacquire₂
  obtain ⟨-, hfree₃⟩ := (PinnedPool.acquire_eq_ok _).mp hacquire₂
  obtain rfl := (List.cons.inj hfree₃).1
  split at h
  · cases h
  rename_i buffer pool₄ hdtoh
  obtain ⟨-, transfer, rest', -, hbuffer, -⟩ := enqueueAsyncCopy_ok hdtoh
  obtain ⟨rfl, -⟩ : fromPinned buffer image.imageMeta = result ∧ pool₄ = pool' := by simpa using h
  refine ⟨buffer, second, by rw [hfree, hfree₁]; rfl, rfl, ?_⟩
  rw [hbuffer]
  exact Slab.read_write _ (second.length_read hsize) hsize

/-- A step that succeeds gives the image back if and only if the second free slab held it
before. -/
theorem gpuUploadStep_preserves_iff
    (h : gpuUploadStep pool (some image) htod dtoh = (.ok result, pool')) :
    Preserves image result ↔ StaleSlabMatches pool image := by
  obtain ⟨buffer, second, hsecond, rfl, hread⟩ := gpuUploadCoroutine_ok h
  constructor
  · rintro ⟨-, hsize, hbytes⟩
    exact ⟨hsize, second, hsecond, hread.symm.trans hbytes⟩
  · rintro ⟨hsize, slab, hslab, hbytes⟩
    obtain rfl := Option.some.inj (hsecond.symm.trans hslab)
    exact ⟨rfl, hsize, hread.trans hbytes⟩

/-- Two slabs of one byte; the second one's is left from an earlier frame. -/
def twoSlabs (stale : UInt8) : PinnedPool 1 := ⟨[⟨[0], rfl⟩, ⟨[stale], rfl⟩]⟩

def onePixel : Image := ⟨{ width := 1, height := 1, channels := 1, pixelFormat := .mono8 }, [7]⟩

theorem gpuUploadStep_preserves_iff_onePixel :
    ∃ result pool', gpuUploadStep (twoSlabs 7) (some onePixel) (.completed none)
        (.completed none) = (.ok result, pool') ∧
      (Preserves onePixel result ↔ StaleSlabMatches (twoSlabs 7) onePixel) := by
  obtain ⟨result, pool', h⟩ : ∃ result pool', gpuUploadStep (twoSlabs 7) (some onePixel)
      (.completed none) (.completed none) = (.ok result, pool') := ⟨_, _, rfl⟩
  exact ⟨result, pool', h, gpuUploadStep_preserves_iff h⟩

theorem stale_byte_returned :
    ∃ result pool', gpuUploadStep (twoSlabs 0) (some onePixel) (.completed none)
        (.completed none) = (.ok result, pool') ∧
      result.buffer.read 1 = [0] ∧ ¬Preserves onePixel result :=
  ⟨_, _, rfl, rfl, fun h => absurd h.bytes (by decide)⟩

end SurfaceAi.Images
