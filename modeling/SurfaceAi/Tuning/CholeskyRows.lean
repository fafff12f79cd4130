import SurfaceAi.Tuning.Cholesky
import Mathlib.Data.List.GetD

/-! The factor of the surrogate is built row by row, with nothing above its diagonal, and its
substitutions keep only what they have solved. They are the loops in place: over the reals both
fail on the same matrices, and where they do not, the factors have the same entries and solve every
system alike. -/

namespace SurfaceAi.Tuning.InPlace

open Triangular

variable {n i j : ℕ} {K L rows : List (List ℝ)} {row : List ℝ}

theorem getD_concat {α : Type} {xs : List α} {v d : α} {b : ℕ} :
    (xs ++ [v]).getD b d = if b = xs.length then v else xs.getD b d := by
  rcases lt_trichotomy b xs.length with hb | rfl | hb
  · rw [if_neg hb.ne, List.getD_append _ _ _ _ hb]
  · simp
  · rw [if_neg hb.ne', List.getD_eq_default _ _ hb.le, List.getD_eq_default]
    rw [List.length_append, List.length_singleton]
    exact hb

/-- The next entry of row `i` behind the rows before it. -/
noncomputable def rowStep (K rows : List (List ℝ)) (i : ℕ) (row : List ℝ) (j : ℕ) :
    Option (List ℝ) :=
  if i = j then
    if pivot K (rows ++ [row]) i j ≤ 0 then none
    else some (row ++ [FloatMath.sqrt (pivot K (rows ++ [row]) i j)])
  else some (row ++ [pivot K (rows ++ [row]) i j / entry rows j j])

theorem choleskyRow_eq (K rows : List (List ℝ)) (i : ℕ) :
    choleskyRow K rows i = (List.range (i + 1)).foldlM (rowStep K rows i) [] := rfl

theorem entry_concat {a b : ℕ} :
    entry (rows ++ [row]) a b = if a = rows.length then row.getD b 0 else entry rows a b := by
  unfold entry
  rw [getD_concat]
  split_ifs <;> rfl

theorem entry_concat_concat {a b : ℕ} {v : ℝ} :
    entry (rows ++ [row ++ [v]]) a b =
      if a = rows.length ∧ b = row.length then v else entry (rows ++ [row]) a b := by
  rw [entry_concat, entry_concat, getD_concat]
  split_ifs <;> first | rfl | omega

/-- The square has the entries of the rows, and nothing on its diagonal up to a row is zero. -/
structure Agrees (n : ℕ) (L rows : List (List ℝ)) (i : ℕ) : Prop where
  square : Square n L
  entry_eq : ∀ a b, entry L a b = entry rows a b
  diagonal : ∀ a < i, entry L a a ≠ 0

theorem Agrees.pivot_eq (h : Agrees n L rows i) (a b : ℕ) : pivot K L a b = pivot K rows a b := by
  unfold pivot subtractAll
  simp only [h.entry_eq]

theorem Agrees.write (h : Agrees n L (rows ++ [row]) rows.length) (hi : rows.length < n)
    (hj : row.length ≤ rows.length) (v : ℝ) :
    Agrees n (writeEntry L rows.length row.length v) (rows ++ [row ++ [v]]) rows.length where
  square := h.square.writeEntry ..
  entry_eq a b := by
    rw [entry_writeEntry h.square hi (by omega), entry_concat_concat, h.entry_eq]
  diagonal a ha := by
    rw [entry_writeEntry h.square hi (by omega), if_neg (by omega)]
    exact h.diagonal a ha

/-- The loops over `j` end together: both fail, or both go on from the same entries. -/
inductive RowEnds (n : ℕ) (K rows : List (List ℝ)) (rest : List (ℕ × ℕ)) :
    Option (List ℝ) → Option (Bool × List (List ℝ)) → Prop
  | failed (L : List (List ℝ)) : RowEnds n K rows rest none (some (false, L))
  | filled {row : List ℝ} {L : List (List ℝ)} (agrees : Agrees n L (rows ++ [row]) (rows.length + 1)) :
      RowEnds n K rows rest (some row) (decomposeFrom K rest L)

theorem rowEnds (rest : List (ℕ × ℕ)) (hi : rows.length < n) (hj : row.length ≤ rows.length)
    (h : Agrees n L (rows ++ [row]) rows.length) :
    RowEnds n K rows rest
      ((List.range' row.length (rows.length - row.length + 1)).foldlM
        (rowStep K rows rows.length) row)
      (decomposeFrom K ((List.range' row.length (rows.length - row.length + 1)).map
        (fun j => (rows.length, j)) ++ rest) L) := by
  induction hd : rows.length - row.length generalizing row L with
  | zero =>
    have hlast : rows.length = row.length := by omega
    have hwrite := h.write hi hj
    simp only [zero_add, List.range'_one, List.map_cons, List.map_nil, List.cons_append,
      List.nil_append, List.foldlM_cons, List.foldlM_nil, decomposeFrom, rowStep, if_pos hlast,
      h.pivot_eq]
    split_ifs with hpivot
    · exact .failed L
    · apply RowEnds.filled
      refine ⟨(hwrite _).square, (hwrite _).entry_eq, ?_⟩
      intro a ha
      rw [entry_writeEntry h.square hi (by omega)]
      split_ifs with hat
      · exact (Real.sqrt_pos.mpr (not_le.mp hpivot)).ne'
      · exact h.diagonal a (by omega)
  | succ d ih =>
    have hlt : ¬ rows.length = row.length := by omega
    have hdiagonal : entry rows row.length row.length = entry L row.length row.length := by
      rw [h.entry_eq, entry_concat, if_neg (Ne.symm hlt)]
    have hne : entry L row.length row.length ≠ 0 := h.diagonal _ (by omega)
    rw [List.range'_succ]
    simp only [List.map_cons, List.cons_append, List.foldlM_cons, decomposeFrom, rowStep,
      if_neg hlt, h.pivot_eq, hdiagonal, divide_eq_some hne, Option.bind_some, Option.bind_eq_bind]
    have hwrite := h.write hi hj (pivot K (rows ++ [row]) rows.length row.length /
      entry L row.length row.length)
    have hnext := ih (by rw [List.length_append, List.length_singleton]; omega) hwrite
      (by rw [List.length_append, List.length_singleton]; omega)
    rwa [List.length_append, List.length_singleton] at hnext

/-- The two loops over `i` end together. -/
inductive BothEnd (n : ℕ) : Option (List (List ℝ)) → Option (Bool × List (List ℝ)) → Prop
  | failed (L : List (List ℝ)) : BothEnd n none (some (false, L))
  | filled {rows L : List (List ℝ)} (length : rows.length = n) (agrees : Agrees n L rows n) :
      BothEnd n (some rows) (some (true, L))

theorem bothEnd (hi : rows.length ≤ n) (h : Agrees n L rows rows.length) :
    BothEnd n
      ((List.range' rows.length (n - rows.length)).foldlM
        (fun rows i => (choleskyRow K rows i).map fun row => rows ++ [row]) rows)
      (decomposeFrom K ((List.range' rows.length (n - rows.length)).flatMap fun i =>
        (List.range (i + 1)).map fun j => (i, j)) L) := by
  induction hd : n - rows.length generalizing rows L with
  | zero =>
    have hn : rows.length = n := by omega
    rw [hn] at h
    exact .filled hn h
  | succ d ih =>
    have hempty : Agrees n L (rows ++ [[]]) rows.length := by
      refine ⟨h.square, ?_, h.diagonal⟩
      intro a b
      rw [h.entry_eq, entry_concat]
      split_ifs with ha
      · rw [entry, List.getD_eq_default _ _ ha.ge]
      · rfl
    rw [List.range'_succ, List.flatMap_cons, List.foldlM_cons, choleskyRow_eq, List.range_eq_range']
    generalize hrest : ((List.range' (rows.length + 1) d).flatMap fun i =>
      (List.range (i + 1)).map fun j => (i, j)) = rest
    have hrow := rowEnds (K := K) rest (by omega) (Nat.zero_le _) hempty
    simp only [List.length_nil, Nat.sub_zero] at hrow
    generalize hbuilt : (List.range' 0 (rows.length + 1)).foldlM (rowStep K rows rows.length) [] =
      built at hrow ⊢
    generalize decomposeFrom K ((List.range' 0 (rows.length + 1)).map
      (fun j => (rows.length, j)) ++ rest) L = outcome at hrow ⊢
    cases hrow with
    | failed L => exact .failed L
    | @filled row L agrees =>
      have hlength : (rows ++ [row]).length = rows.length + 1 := by
        rw [List.length_append, List.length_singleton]
      rw [← hlength] at agrees
      have hnext := ih (by omega) agrees (by omega)
      rw [hlength, hrest] at hnext
      exact hnext

theorem bothEnd_choleskyDecompose (hK : Square n K) :
    BothEnd n (Tuning.choleskyDecompose K) (choleskyDecompose K) := by
  rw [Tuning.choleskyDecompose, choleskyDecompose, hK.rows, positions, List.range_eq_range']
  have hzeros : Agrees n (zeros n) [] 0 := by
    refine ⟨.zeros n, ?_, by omega⟩
    intro a b
    rw [entry_zeros]
    rfl
  exact bothEnd (Nat.zero_le n) hzeros

/-- The forward substitution with the solved part alone. -/
noncomputable def solvedRows (rows : List (List ℝ)) (b : List ℝ) (i : ℕ) : List ℝ :=
  (List.range i).foldl (fun x i => x ++ [subtractAll (b.getD i 0) i (fun j =>
    entry rows i j * x.getD j 0) / entry rows i i]) []

theorem solvedRows_succ (rows : List (List ℝ)) (b : List ℝ) (i : ℕ) :
    solvedRows rows b (i + 1) = solvedRows rows b i ++ [subtractAll (b.getD i 0) i (fun j =>
      entry rows i j * (solvedRows rows b i).getD j 0) / entry rows i i] := by
  rw [solvedRows, List.range_succ, List.foldl_append]
  rfl

@[simp] theorem length_solvedRows (rows : List (List ℝ)) (b : List ℝ) (i : ℕ) :
    (solvedRows rows b i).length = i := by
  induction i with
  | zero => rfl
  | succ i ih => rw [solvedRows_succ, List.length_append, ih, List.length_singleton]

theorem getD_append_zeros (xs : List ℝ) (m j : ℕ) :
    (xs ++ List.replicate m 0).getD j 0 = xs.getD j 0 := by
  rcases lt_or_ge j xs.length with hj | hj
  · rw [List.getD_append _ _ _ _ hj]
  · rw [List.getD_append_right _ _ _ _ hj, List.getD_eq_default _ _ hj]
    simp [List.getD, List.getElem?_replicate]
    split_ifs <;> rfl

theorem forward_eq (h : Agrees n L rows n) (b : List ℝ) {i : ℕ} (hi : i ≤ n) :
    forward L b i = some (solvedRows rows b i ++ List.replicate (n - i) 0) := by
  induction i with
  | zero => rw [forward, h.square.rows, Nat.sub_zero, solvedRows]; rfl
  | succ i ih =>
    have hne : entry rows i i ≠ 0 := h.entry_eq i i ▸ h.diagonal i (by omega)
    have hzeros : List.replicate (n - i) (0 : ℝ) = 0 :: List.replicate (n - (i + 1)) 0 := by
      rw [show n - i = n - (i + 1) + 1 by omega, List.replicate_succ]
    rw [forward, ih (by omega), Option.bind_some]
    simp only [h.entry_eq, getD_append_zeros, divide_eq_some hne, Option.map_some]
    rw [hzeros, List.set_append_right _ _ (length_solvedRows ..).le, length_solvedRows,
      Nat.sub_self, List.set_cons_zero, solvedRows_succ, List.append_assoc]
    rfl

theorem backward_eq (h : Agrees n L rows n) (y : List ℝ) (hy : y.length = n) {i : ℕ} (hi : i ≤ n)
    (xs : List ℝ) (hxs : i + xs.length = n) :
    backward L n i (y.take i ++ xs) = some ((List.range i).foldr (fun i x =>
      subtractAll (y.getD i 0) x.length (fun j => entry rows (i + 1 + j) i * x.getD j 0) /
        entry rows i i :: x) xs) := by
  induction i generalizing xs with
  | zero => rfl
  | succ i ih =>
    have hne : entry rows i i ≠ 0 := h.entry_eq i i ▸ h.diagonal i (by omega)
    have htake : (y.take (i + 1)).length = i + 1 := by rw [List.length_take]; omega
    have hhead : (y.take (i + 1) ++ xs).getD i 0 = y.getD i 0 := by
      rw [List.getD_append _ _ _ _ (by omega)]
      simp [List.getD]
    have htail (t : ℕ) : (y.take (i + 1) ++ xs).getD (i + 1 + t) 0 = xs.getD t 0 := by
      rw [List.getD_append_right _ _ _ _ (by omega), htake, Nat.add_sub_cancel_left]
    have hset (v : ℝ) : (y.take (i + 1) ++ xs).set i v = y.take i ++ v :: xs := by
      have hsplit : y.take (i + 1) = y.take i ++ [y.getD i 0] := by
        rw [List.getD_eq_getElem _ _ (by omega : i < y.length)]
        exact (List.take_append_getElem (by omega)).symm
      have hi : (y.take i).length = i := by rw [List.length_take]; omega
      rw [hsplit, List.append_assoc, List.set_append_right _ _ hi.le, hi, Nat.sub_self]
      rfl
    rw [backward]
    simp only [h.entry_eq, hhead, htail, divide_eq_some hne, Option.bind_some, hset]
    rw [ih (by omega) _ (by simp; omega), List.range_succ, List.foldr_append,
      show n - (i + 1) = xs.length by omega]
    rfl

theorem solveCholesky_eq (h : Agrees n L rows n) (hrows : rows.length = n) (b : List ℝ) :
    solveCholesky L b = some (Tuning.solveCholesky rows b) := by
  have hlength := length_solvedRows rows b n
  have hbackward := backward_eq h _ hlength le_rfl [] (by simp)
  rw [List.take_of_length_le hlength.le, List.append_nil] at hbackward
  rw [solveCholesky, h.square.rows, forward_eq h b le_rfl, Nat.sub_self, List.replicate_zero,
    List.append_nil, Option.bind_some, hbackward, Tuning.solveCholesky, hrows]
  rfl

/-- The surrogate's factorisation and substitutions are those of the loops in place. -/
theorem surrogate_agrees (hK : Square n K) :
    (Tuning.choleskyDecompose K = none → ∃ L, choleskyDecompose K = some (false, L)) ∧
    ∀ rows, Tuning.choleskyDecompose K = some rows →
      ∃ L, choleskyDecompose K = some (true, L) ∧ (∀ a b, entry L a b = entry rows a b) ∧
        ∀ b, solveCholesky L b = some (Tuning.solveCholesky rows b) := by
  have hend := bothEnd_choleskyDecompose hK
  generalize Tuning.choleskyDecompose K = built at hend ⊢
  generalize choleskyDecompose K = filled at hend ⊢
  cases hend with
  | failed L =>
    refine ⟨fun _ => ⟨L, rfl⟩, ?_⟩
    intro rows hrows
    cases hrows
  | @filled rows L length agrees =>
    constructor
    · intro hnone
      cases hnone
    intro rows' hrows
    obtain rfl := Option.some.inj hrows
    exact ⟨L, rfl, agrees.entry_eq, solveCholesky_eq agrees length⟩

end SurfaceAi.Tuning.InPlace
