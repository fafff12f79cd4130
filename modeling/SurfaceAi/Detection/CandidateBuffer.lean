import SurfaceAi.Library.Rows
import Mathlib.Algebra.Group.Nat.Defs

/-! The bounded buffer of candidate frames between the detection thread and the update
thread. Sizes are computed in `std::size_t`. -/

namespace SurfaceAi.Detection

structure EvolutionCandidate (F : Type*) where
  patchVectors : List F
  gridH : ℕ
  gridW : ℕ
  dim : ℕ
  normalcyScore : F

namespace EvolutionCandidate

variable {F : Type*} (candidate : EvolutionCandidate F)

def patchCount : ℕ := candidate.gridH * candidate.gridW % 2 ^ 64

/-- The floats read from the frame's data; undefined when it has fewer. -/
def flat : Option (List F) :=
  let n := candidate.gridH * candidate.gridW * candidate.dim % 2 ^ 64
  if n ≤ candidate.patchVectors.length then some (candidate.patchVectors.take n) else none

/-- The patch vectors of the frame. -/
def patches : List (List F) :=
  Rows.rows candidate.dim (candidate.gridH * candidate.gridW) candidate.patchVectors

/-- The frame has patches of the dimension, and all of them are in its data. -/
structure Fits (dim : ℕ) : Prop where
  dim_eq : candidate.dim = dim
  covers : candidate.gridH * candidate.gridW * candidate.dim ≤ candidate.patchVectors.length
  addressable : candidate.patchVectors.length < 2 ^ 64

variable {candidate} in
theorem fits_iff {dim : ℕ} : candidate.Fits dim ↔ candidate.dim = dim ∧
    candidate.gridH * candidate.gridW * candidate.dim ≤ candidate.patchVectors.length ∧
    candidate.patchVectors.length < 2 ^ 64 :=
  ⟨fun h => ⟨h.dim_eq, h.covers, h.addressable⟩, fun h => ⟨h.1, h.2.1, h.2.2⟩⟩

instance {dim : ℕ} : Decidable (candidate.Fits dim) := decidable_of_iff _ fits_iff.symm

end EvolutionCandidate

structure BufferConfig where
  maxFrames : ℕ := 50
  maxPatches : ℕ := 50000
  triggerFrames : ℕ := 20
  triggerPatches : ℕ := 20000

structure CandidateBuffer (F : Type*) where
  cfg : BufferConfig
  candidates : List (EvolutionCandidate F)
  totalPatches : ℕ

namespace CandidateBuffer

variable {F : Type*} (buffer : CandidateBuffer F)

/-- `Append`: a full buffer refuses the candidate. -/
def append (candidate : EvolutionCandidate F) : Bool × CandidateBuffer F :=
  if buffer.cfg.maxFrames ≤ buffer.candidates.length ∨
      buffer.cfg.maxPatches < (buffer.totalPatches + candidate.patchCount) % 2 ^ 64 then (false, buffer)
  else (true, { buffer with
    candidates := buffer.candidates ++ [candidate]
    totalPatches := (buffer.totalPatches + candidate.patchCount) % 2 ^ 64 })

def isTriggered : Bool :=
  buffer.cfg.triggerFrames ≤ buffer.candidates.length ∨
    buffer.cfg.triggerPatches ≤ buffer.totalPatches

/-- `DrainAll`. -/
def drainAll : List (EvolutionCandidate F) × CandidateBuffer F :=
  (buffer.candidates, { buffer with candidates := [], totalPatches := 0 })

/-- A candidate is refused, or appended and counted. -/
theorem append_eq (candidate : EvolutionCandidate F) :
    (buffer.append candidate).2 = buffer ∨ (buffer.append candidate).2 = { buffer with
      candidates := buffer.candidates ++ [candidate]
      totalPatches := (buffer.totalPatches + candidate.patchCount) % 2 ^ 64 } := by
  unfold append
  split_ifs
  · exact .inl rfl
  · exact .inr rfl

theorem append_cfg (candidate : EvolutionCandidate F) :
    (buffer.append candidate).2.cfg = buffer.cfg := by
  rcases buffer.append_eq candidate with heq | heq <;> rw [heq]

theorem append_of_no_frames (hframes : buffer.cfg.maxFrames = 0)
    (candidate : EvolutionCandidate F) : (buffer.append candidate).2 = buffer := by
  have hfull : buffer.cfg.maxFrames ≤ buffer.candidates.length := hframes ▸ Nat.zero_le _
  rw [append, if_pos (.inl hfull)]

variable {buffer} in
/-- A triggered buffer stays triggered while its count of patches does not wrap around. -/
theorem isTriggered_append {candidate : EvolutionCandidate F}
    (hwrap : buffer.totalPatches + candidate.patchCount < 2 ^ 64)
    (h : buffer.isTriggered = true) : (buffer.append candidate).2.isTriggered = true := by
  rcases buffer.append_eq candidate with heq | heq
  · rw [heq]
    exact h
  · rw [heq]
    simp only [isTriggered, decide_eq_true_eq, Nat.mod_eq_of_lt hwrap] at h ⊢
    refine h.imp (fun hframes => ?_) fun hpatches => ?_
    · rw [List.length_append]
      exact Nat.le_add_right_of_le hframes
    · exact Nat.le_add_right_of_le hpatches

end CandidateBuffer

/-- The patch vectors of a batch. -/
def batchPatches {F : Type*} (batch : List (EvolutionCandidate F)) : List (List F) :=
  batch.flatMap EvolutionCandidate.patches

/-- The frames of a batch in one flat array. -/
def flatten {F : Type*} (batch : List (EvolutionCandidate F)) : Option (List F) :=
  (batch.mapM EvolutionCandidate.flat).map List.flatten

theorem flatten_cons {F : Type*} (c : EvolutionCandidate F) (batch : List (EvolutionCandidate F)) :
    flatten (c :: batch) =
      c.flat.bind fun vectors => (flatten batch).map fun rest => vectors ++ rest := by
  rw [flatten, flatten, List.mapM_cons]
  cases c.flat <;> cases batch.mapM EvolutionCandidate.flat <;> rfl

theorem EvolutionCandidate.Fits.flat_eq {F : Type*} {c : EvolutionCandidate F} {dim : ℕ}
    (h : c.Fits dim) : c.flat = some (c.patchVectors.take (c.gridH * c.gridW * dim)) := by
  have hcovers := h.covers
  have haddressable := h.addressable
  rw [flat, ← h.dim_eq]
  simp only [Nat.mod_eq_of_lt (by omega : c.gridH * c.gridW * c.dim < 2 ^ 64), if_pos hcovers]

/-- A batch of frames that fit is flattened, and cut into its patch vectors again. -/
theorem flatten_of_fits {F : Type*} {dim : ℕ} {batch : List (EvolutionCandidate F)}
    (h : ∀ c ∈ batch, c.Fits dim) : ∃ vectors, flatten batch = some vectors ∧
      vectors.length = (batchPatches batch).length * dim ∧
      Rows.rows dim (batchPatches batch).length vectors = batchPatches batch := by
  induction batch with
  | nil => exact ⟨[], rfl, by simp [batchPatches], rfl⟩
  | cons c batch ih =>
    obtain ⟨rest, hrest, hlen, hrows⟩ := ih fun c' hc' => h c' (List.mem_cons_of_mem c hc')
    have hfits := h c List.mem_cons_self
    have hpatches : batchPatches (c :: batch) = c.patches ++ batchPatches batch := rfl
    have hcount : c.patches.length = c.gridH * c.gridW := Rows.length_rows _ _ _
    have hfirst : (c.patchVectors.take (c.gridH * c.gridW * dim)).length =
        c.gridH * c.gridW * dim := by
      rw [List.length_take, Nat.min_eq_left]
      exact hfits.dim_eq ▸ hfits.covers
    refine ⟨c.patchVectors.take (c.gridH * c.gridW * dim) ++ rest, ?_, ?_, ?_⟩
    · rw [flatten_cons, hfits.flat_eq, hrest]
      rfl
    · rw [List.length_append, hfirst, hlen, hpatches, List.length_append, hcount, Nat.add_mul]
    · rw [hpatches, List.length_append, hcount, Rows.rows_append hfirst hlen, hrows,
        Rows.rows_take, EvolutionCandidate.patches, hfits.dim_eq]

end SurfaceAi.Detection
