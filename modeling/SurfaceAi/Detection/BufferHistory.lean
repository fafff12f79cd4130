import SurfaceAi.Detection.CandidateBuffer
import Mathlib.Algebra.GroupWithZero.Nat
import Mathlib.Data.List.Induction

/-! Histories of the candidate buffer: the detection thread appends, the update thread drains, in
any order. The test of `Append` adds two words, so a sum that wraps is let through. -/

namespace SurfaceAi.Detection

inductive BufferOp (F : Type*) where
  | append (candidate : EvolutionCandidate F)
  | drainAll

/-- The buffer, the candidates that it accepted, and the batches that were drained. -/
structure BufferHistory (F : Type*) where
  buffer : CandidateBuffer F
  accepted : List (EvolutionCandidate F)
  batches : List (List (EvolutionCandidate F))

namespace BufferHistory

variable {F : Type*}

def create (cfg : BufferConfig) : BufferHistory F := ⟨⟨cfg, [], 0⟩, [], []⟩

def step (s : BufferHistory F) : BufferOp F → BufferHistory F
  | .append candidate => { s with
      buffer := (s.buffer.append candidate).2
      accepted := if (s.buffer.append candidate).1 then s.accepted ++ [candidate]
        else s.accepted }
  | .drainAll => { s with
      buffer := s.buffer.drainAll.2
      batches := s.batches ++ [s.buffer.drainAll.1] }

def after (cfg : BufferConfig) (ops : List (BufferOp F)) : BufferHistory F :=
  ops.foldl step (create cfg)

/-- The patches of candidates, as numbers. -/
def patchSum (candidates : List (EvolutionCandidate F)) : ℕ :=
  (candidates.map fun c => c.gridH * c.gridW).sum

/-- The counter is right, the bounds hold, and no candidate is lost, repeated or out of order. -/
structure Accounted (cfg : BufferConfig) (s : BufferHistory F) : Prop where
  total : s.buffer.totalPatches = patchSum s.buffer.candidates
  frames : s.buffer.candidates.length ≤ cfg.maxFrames
  patches : patchSum s.buffer.candidates ≤ cfg.maxPatches
  order : s.batches.flatten ++ s.buffer.candidates = s.accepted

/-- The buffer refuses the candidate, or the sum of the patches is a word. -/
def Fits (s : BufferHistory F) (candidate : EvolutionCandidate F) : Prop :=
  (s.buffer.append candidate).1 = true →
    s.buffer.totalPatches + candidate.gridH * candidate.gridW < 2 ^ 64

variable {cfg : BufferConfig} {s : BufferHistory F} {candidate : EvolutionCandidate F}

theorem append_refused (h : (s.buffer.append candidate).1 = false) :
    s.step (.append candidate) = s := by
  have hbuffer : s.buffer.append candidate = (false, s.buffer) := by
    unfold CandidateBuffer.append at h ⊢
    split_ifs at h ⊢
    rfl
  rw [step, hbuffer]
  rfl

theorem append_accepted (h : (s.buffer.append candidate).1 = true) :
    s.buffer.candidates.length < s.buffer.cfg.maxFrames ∧
      (s.buffer.totalPatches + candidate.patchCount) % 2 ^ 64 ≤ s.buffer.cfg.maxPatches ∧
      s.step (.append candidate) = { s with
        buffer := { s.buffer with
          candidates := s.buffer.candidates ++ [candidate]
          totalPatches := (s.buffer.totalPatches + candidate.patchCount) % 2 ^ 64 }
        accepted := s.accepted ++ [candidate] } := by
  by_cases hfull : s.buffer.cfg.maxFrames ≤ s.buffer.candidates.length ∨
      s.buffer.cfg.maxPatches < (s.buffer.totalPatches + candidate.patchCount) % 2 ^ 64
  · rw [CandidateBuffer.append, if_pos hfull] at h
    cases h
  · have hfits := not_or.mp hfull
    refine ⟨Nat.lt_of_not_le hfits.1, Nat.le_of_not_lt hfits.2, ?_⟩
    rw [step, CandidateBuffer.append, if_neg hfull]
    rfl

theorem step_cfg (s : BufferHistory F) (op : BufferOp F) :
    (s.step op).buffer.cfg = s.buffer.cfg := by
  cases op with
  | append candidate => exact s.buffer.append_cfg candidate
  | drainAll => rfl

@[simp] theorem after_cfg (cfg : BufferConfig) (ops : List (BufferOp F)) :
    (after cfg ops).buffer.cfg = cfg := by
  induction ops using List.reverseRecOn with
  | nil => rfl
  | append_singleton ops op ih =>
    rw [after, List.foldl_append]
    exact (step_cfg _ op).trans ih

theorem patchSum_append (xs ys : List (EvolutionCandidate F)) :
    patchSum (xs ++ ys) = patchSum xs + patchSum ys := by
  rw [patchSum, List.map_append, List.sum_append]
  rfl

theorem word_eq (candidate : EvolutionCandidate F) (total : ℕ) :
    (total + candidate.patchCount) % 2 ^ 64 =
      (total + candidate.gridH * candidate.gridW) % 2 ^ 64 := by
  rw [EvolutionCandidate.patchCount, Nat.add_mod_mod]

/-- An accepted candidate is counted rightly exactly when the sum is a word. -/
theorem Accounted.append_iff (hs : s.Accounted cfg) (hcfg : s.buffer.cfg = cfg) :
    (s.step (.append candidate)).Accounted cfg ↔ s.Fits candidate := by
  cases hresult : (s.buffer.append candidate).1 with
  | false =>
    rw [append_refused hresult, Fits, hresult]
    exact iff_of_true hs nofun
  | true =>
    obtain ⟨hframes, hpatches, hstep⟩ := append_accepted hresult
    have htotal := hs.total
    have hsum : patchSum (s.buffer.candidates ++ [candidate]) =
        s.buffer.totalPatches + candidate.gridH * candidate.gridW := by
      rw [patchSum_append, htotal]
      rfl
    rw [hcfg] at hframes hpatches
    rw [word_eq] at hpatches hstep
    rw [hstep]
    constructor
    · intro h _
      have hcounted := h.total
      rw [hsum] at hcounted
      exact hcounted ▸ Nat.mod_lt _ (by decide)
    · intro h
      have hword := Nat.mod_eq_of_lt (h hresult)
      rw [hword] at hpatches
      refine ⟨?_, ?_, ?_, ?_⟩
      · exact hword.trans hsum.symm
      · rw [List.length_append]
        exact hframes
      · exact hsum ▸ hpatches
      · rw [← List.append_assoc, hs.order]

theorem Accounted.drainAll (hs : s.Accounted cfg) : (s.step .drainAll).Accounted cfg where
  total := rfl
  frames := Nat.zero_le _
  patches := Nat.zero_le _
  order := by
    have horder := hs.order
    simpa [step, CandidateBuffer.drainAll] using horder

theorem accounted_create (cfg : BufferConfig) : (create cfg : BufferHistory F).Accounted cfg :=
  ⟨rfl, Nat.zero_le _, Nat.zero_le _, rfl⟩

theorem accounted_after {ops : List (BufferOp F)}
    (h : ∀ before candidate rest, ops = before ++ .append candidate :: rest →
      (after cfg before).Fits candidate) : (after cfg ops).Accounted cfg := by
  induction ops using List.reverseRecOn with
  | nil => exact accounted_create cfg
  | append_singleton ops op ih =>
    have hops := ih fun before candidate rest hsplit =>
      h before candidate (rest ++ [op]) (by rw [hsplit]; simp)
    rw [after, List.foldl_append]
    cases op with
    | append candidate => exact (hops.append_iff (after_cfg cfg ops)).mpr (h ops candidate [] rfl)
    | drainAll => exact hops.drainAll

/-- The buffer is accounted for throughout a history exactly when every candidate that it accepts
leaves a sum that is a word. -/
theorem accounted_iff_fits (cfg : BufferConfig) (ops : List (BufferOp F)) :
    (∀ before rest, ops = before ++ rest → (after cfg before).Accounted cfg) ↔
      ∀ before candidate rest, ops = before ++ .append candidate :: rest →
        (after cfg before).Fits candidate := by
  constructor
  · intro h before candidate rest hsplit
    have hbefore := h before _ hsplit
    have hthen := h (before ++ [.append candidate]) rest (by rw [hsplit]; simp)
    rw [after, List.foldl_append] at hthen
    exact (hbefore.append_iff (after_cfg cfg before)).mp hthen
  · rintro h before rest rfl
    refine accounted_after fun before' candidate rest' hsplit => ?_
    exact h before' candidate (rest' ++ rest) (by rw [hsplit]; simp)

/-- One frame of `2 ^ 64` patches. -/
def hugeFrame : BufferOp ℕ := .append ⟨[], 2 ^ 63, 2, 0, 0⟩

/-- It counts as none. -/
theorem wrapped_frame_accepted : ¬∀ (cfg : BufferConfig) (ops before rest : List (BufferOp ℕ)),
    ops = before ++ rest → (after cfg before).Accounted cfg := by
  intro h
  have hpatches := (h {} [hugeFrame] [hugeFrame] [] rfl).patches
  exact absurd hpatches (by decide)

end BufferHistory

end SurfaceAi.Detection
