import SurfaceAi.Detection.CoresetEvolution
import Mathlib.Data.List.TakeWhile

/-! Uniform subsampling. Both places keep every stride-th vector until they have enough; the
stride is a truncated quotient, so what is left over at the end of the input is passed over. -/

namespace SurfaceAi.Detection

/-- The positions `PrefilterCandidates` keeps of more vectors than it wants. -/
def prefilterPositions (total target : ℕ) : List ℕ :=
  let stride := max (total / target) 1
  ((List.range target).takeWhile fun i => i * stride < total).map (· * stride)

/-- Kept positions that are as many as wanted, in order, and leave no window of twice the
ideal distance empty. -/
structure SampledUniformly (total count : ℕ) (positions : List ℕ) : Prop where
  length : positions.length = count
  increasing : positions.Pairwise (· < ·)
  inside : ∀ i ∈ positions, i < total
  windows : ∀ start, start + 2 * ((total + count - 1) / count) ≤ total →
    ∃ i ∈ positions, start ≤ i ∧ i < start + 2 * ((total + count - 1) / count)

section Positions

variable {total count stride : ℕ}

theorem filter_multiples (hstride : 0 < stride) (n : ℕ) :
    (List.range (n * stride)).filter (fun i => i % stride = 0) =
      (List.range n).map (· * stride) := by
  induction n with
  | zero => simp
  | succ n ih =>
    have hblock : ((List.range stride).map (n * stride + ·)).filter (fun i => i % stride = 0) =
        [n * stride] := by
      obtain ⟨k, rfl⟩ : ∃ k, stride = k + 1 := ⟨stride - 1, by omega⟩
      rw [List.range_succ_eq_map, List.map_cons, List.filter_cons_of_pos (by simp),
        List.filter_eq_nil_iff.mpr]
      · rfl
      · intro i hi
        simp only [List.map_map, List.mem_map, List.mem_range, Function.comp_apply] at hi
        obtain ⟨j, hj, rfl⟩ := hi
        simp [Nat.add_mod, Nat.mod_eq_of_lt (show j + 1 < k + 1 by omega)]
    rw [Nat.succ_mul, List.range_add, List.filter_append, ih, hblock, List.range_succ,
      List.map_append, List.map_singleton]

theorem stride_pos (hlt : count < total) (hcount : 1 ≤ count) : 0 < total / count :=
  Nat.div_pos hlt.le hcount

theorem strideIndices_eq (hcount : 1 ≤ count) (hlt : count < total) :
    strideIndices total count = (List.range count).map (· * (total / count)) := by
  have hpos := stride_pos hlt hcount
  have hle : count * (total / count) ≤ total := Nat.mul_div_le total count
  obtain ⟨rest, hrest⟩ := Nat.exists_eq_add_of_le hle
  have hfilter : (List.range total).filter (fun i => i % (total / count) = 0) =
      (List.range count).map (· * (total / count)) ++
        ((List.range rest).map (count * (total / count) + ·)).filter
          (fun i => i % (total / count) = 0) := by
    rw [← filter_multiples hpos count, ← List.filter_append, ← List.range_add, ← hrest]
  simp only [strideIndices, Nat.max_eq_left (Nat.succ_le_of_lt hpos)]
  rw [hfilter, List.take_left' (by simp), List.length_map, List.length_range,
    List.drop_of_length_le (by rw [List.length_range]; exact Nat.min_le_left _ _), List.append_nil]

theorem prefilterPositions_eq (hcount : 1 ≤ count) (hlt : count < total) :
    prefilterPositions total count = (List.range count).map (· * (total / count)) := by
  have hpos := stride_pos hlt hcount
  have hall : ∀ i ∈ List.range count, decide (i * (total / count) < total) = true := by
    intro i hi
    have hi : (i + 1) * (total / count) ≤ count * (total / count) :=
      Nat.mul_le_mul_right _ (List.mem_range.mp hi)
    have hle := Nat.mul_div_le total count
    rw [Nat.succ_mul] at hi
    rw [decide_eq_true_eq]
    omega
  simp only [prefilterPositions, Nat.max_eq_left (Nat.succ_le_of_lt hpos)]
  rw [List.takeWhile_eq_self_iff.mpr hall]

/-- The ideal distance between kept positions, rounded up. -/
theorem ceil_eq (total : ℕ) (hcount : 1 ≤ count) :
    (total + count - 1) / count = total / count + if total % count = 0 then 0 else 1 := by
  have hdiv := Nat.div_add_mod total count
  have hmod := Nat.mod_lt total hcount
  generalize total / count = q at *
  generalize total % count = r at *
  subst hdiv
  split_ifs with hr
  · rw [hr, Nat.add_zero, Nat.add_zero, Nat.add_sub_assoc hcount, Nat.mul_add_div hcount,
      Nat.div_eq_of_lt (by omega), Nat.add_zero]
  · rw [show count * q + r + count - 1 = count * (q + 1) + (r - 1) by rw [Nat.mul_succ]; omega,
      Nat.mul_add_div hcount, Nat.div_eq_of_lt (by omega), Nat.add_zero]

/-- What is passed over at the end is the remainder of the truncated quotient. -/
theorem sampledUniformly_iff (hcount : 1 ≤ count) (hlt : count < total) :
    SampledUniformly total count ((List.range count).map (· * (total / count))) ↔
      total % count ≤ total / count + 2 := by
  have hpos := stride_pos hlt hcount
  have hdiv := Nat.div_add_mod total count
  have hceil := ceil_eq total hcount
  have hlast : (count - 1) * (total / count) + total / count = count * (total / count) := by
    rw [← Nat.succ_mul, Nat.succ_eq_add_one, Nat.sub_add_cancel hcount]
  generalize hwidth : (total + count - 1) / count = width at *
  generalize total / count = s at *
  generalize total % count = r at *
  constructor
  · intro h
    by_contra hr
    rw [if_neg (by omega)] at hceil
    -- the last window begins behind the last kept position
    obtain ⟨i, hi, hle, -⟩ := h.windows (total - 2 * width) (by omega)
    obtain ⟨k, hk, rfl⟩ := List.mem_map.mp hi
    have hk : k * s ≤ (count - 1) * s :=
      Nat.mul_le_mul_right s (by have := List.mem_range.mp hk; omega)
    omega
  · intro hr
    refine ⟨by simp, ?_, ?_, ?_⟩
    · rw [List.pairwise_map]
      exact List.pairwise_lt_range.imp fun hij => Nat.mul_lt_mul_of_pos_right hij hpos
    · intro i hi
      obtain ⟨k, hk, rfl⟩ := List.mem_map.mp hi
      have hk : k * s ≤ (count - 1) * s :=
        Nat.mul_le_mul_right s (by have := List.mem_range.mp hk; omega)
      omega
    · intro start hstart
      rw [hwidth] at hstart ⊢
      -- the first multiple of the stride at or behind the start
      refine ⟨(start + s - 1) / s * s, List.mem_map.mpr ⟨_, List.mem_range.mpr ?_, rfl⟩, ?_⟩
      · have hin : start ≤ (count - 1) * s := by
          split_ifs at hceil <;> omega
        rw [Nat.div_lt_iff_lt_mul hpos]
        omega
      · have hround := Nat.div_add_mod (start + s - 1) s
        have hmod := Nat.mod_lt (start + s - 1) hpos
        rw [Nat.mul_comm] at hround
        split_ifs at hceil <;> omega

end Positions

variable {F : Type*}

/-- The plain builder stores the vectors at the strided positions. -/
theorem vectors_buildFromEmbeddings {embeddings : List (PatchEmbedding F)} {dim count : ℕ}
    {g : Gathered F dim} (hg : gather "BuildFromEmbeddings" dim embeddings = .ok g)
    (hlt : count < g.total) :
    ∃ bank, FeatureBank.buildFromEmbeddings embeddings dim count = .ok bank ∧
      bank.vectors = (strideIndices g.total count).filterMap fun i => g.rows[i]? := by
  refine ⟨.ofIndices g (strideIndices g.total count), ?_, rfl⟩
  rw [FeatureBank.buildFromEmbeddings, hg]
  show (if g.total = 0 then _ else _) = _
  rw [if_neg (by omega), if_pos hlt]

theorem prefilterCandidates_eq {vectors : List F} {dim target : ℕ} (hdim : 0 < dim)
    (htarget : 1 ≤ target) (hlt : target < vectors.length / dim) :
    prefilterCandidates vectors dim target =
      some ((prefilterPositions (vectors.length / dim) target).flatMap fun i =>
        Rows.row dim i vectors) := by
  rw [prefilterCandidates, if_neg (by omega)]
  dsimp only
  rw [if_neg (by omega), if_neg (by omega), prefilterPositions, List.flatMap_map]

/-- Both subsamplings keep as many vectors as wanted; they cover the end of the input just when
the remainder is at most the stride and two more. -/
theorem subsampling_uniform_iff {total count : ℕ} (hcount : 1 ≤ count) (hlt : count < total) :
    (SampledUniformly total count (strideIndices total count) ↔
      total % count ≤ total / count + 2) ∧
    (SampledUniformly total count (prefilterPositions total count) ↔
      total % count ≤ total / count + 2) ∧
    (∀ (embeddings : List (PatchEmbedding F)) (dim : ℕ) (g : Gathered F dim), 0 < dim →
      gather "BuildFromEmbeddings" dim embeddings = .ok g → g.total = total →
        ∃ bank, FeatureBank.buildFromEmbeddings embeddings dim count = .ok bank ∧
          bank.vectors = (strideIndices total count).filterMap fun i => g.rows[i]?) ∧
    ∀ (vectors : List F) (dim : ℕ), 0 < dim → vectors.length / dim = total →
      prefilterCandidates vectors dim count =
        some ((prefilterPositions total count).flatMap fun i => Rows.row dim i vectors) := by
  refine ⟨?_, ?_, ?_, ?_⟩
  · rw [strideIndices_eq hcount hlt]
    exact sampledUniformly_iff hcount hlt
  · rw [prefilterPositions_eq hcount hlt]
    exact sampledUniformly_iff hcount hlt
  · rintro embeddings dim g - hg rfl
    exact vectors_buildFromEmbeddings hg hlt
  · rintro vectors dim hdim rfl
    exact prefilterCandidates_eq hdim hcount hlt

/-- Three of eleven vectors are kept at a distance of three. -/
theorem subsampling_uniform_iff_three :
    SampledUniformly 11 3 (strideIndices 11 3) ∧
      prefilterCandidates (List.range 11) 1 3 = some [0, 3, 6] := by
  obtain ⟨hstrided, -, -, hprefilter⟩ :=
    subsampling_uniform_iff (F := ℕ) (show 1 ≤ 3 by decide) (show 3 < 11 by decide)
  exact ⟨hstrided.mpr (by decide), (hprefilter (List.range 11) 1 (by decide) rfl).trans (by decide)⟩

/-- Ten of nineteen vectors are the first ten. -/
theorem subsampling_drops_tail :
    (∃ bank, FeatureBank.buildFromEmbeddings [.ofVectors (List.range 19) 1 19 1] 1 10 = .ok bank ∧
      bank.vectors = (List.range 10).map fun i => [i]) ∧
    prefilterCandidates (List.range 19) 1 10 = some (List.range 10) ∧
    ¬SampledUniformly 19 10 (strideIndices 19 10) ∧
    ¬SampledUniformly 19 10 (prefilterPositions 19 10) := by
  refine ⟨?_, by decide, ?_, ?_⟩
  · exact ⟨_, rfl, by decide⟩
  · intro h
    obtain ⟨i, hi, hle, -⟩ := h.windows 15 (by decide)
    have hall : ∀ i ∈ strideIndices 19 10, ¬15 ≤ i := by decide
    exact hall i hi hle
  · intro h
    obtain ⟨i, hi, hle, -⟩ := h.windows 15 (by decide)
    have hall : ∀ i ∈ prefilterPositions 19 10, ¬15 ≤ i := by decide
    exact hall i hi hle

end SurfaceAi.Detection
