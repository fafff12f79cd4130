import SurfaceAi.Core.RealMath
import SurfaceAi.Library.Triangular
import SurfaceAi.Tuning.GaussianProcess
import Mathlib.Algebra.Order.Star.Real
import Mathlib.LinearAlgebra.Matrix.Block
import Mathlib.LinearAlgebra.Matrix.PosDef

/-! The factorisation and the two substitutions as the loops run, in place: `L` is a square of
zeros that is filled entry by entry, and the backward substitution overwrites what the forward one
has left. A division by zero is undefined. In exact arithmetic the factorisation succeeds exactly
on positive definite matrices, and the substitutions then solve the system. -/

namespace SurfaceAi.Tuning

open Finset Matrix Triangular

namespace InPlace

section Loops

variable {F : Type} [Zero F] [Sub F] [Mul F] [Div F] [DecidableEq F]

def divide (a b : F) : Option F := if b = 0 then none else some (a / b)

/-- `L[i][j] = v`. -/
def writeEntry (L : List (List F)) (i j : ℕ) (v : F) : List (List F) :=
  L.modify i fun row => row.set j v

def zeros (n : ℕ) : List (List F) := List.replicate n (List.replicate n 0)

/-- The indices of the loops over `i` and over `j` up to `i`, in their order. -/
def positions (n : ℕ) : List (ℕ × ℕ) :=
  (List.range n).flatMap fun i => (List.range (i + 1)).map fun j => (i, j)

section Decompose

variable [LE F] [DecidableLE F] [FloatMath F]

/-- `sum` after the loop over `k`. -/
def pivot (K L : List (List F)) (i j : ℕ) : F :=
  subtractAll (entry K i j) j fun k => entry L i k * entry L j k

/-- The loops from these indices on; they are left with `false` at a pivot that is not
positive. -/
def decomposeFrom (K : List (List F)) :
    List (ℕ × ℕ) → List (List F) → Option (Bool × List (List F))
  | [], L => some (true, L)
  | (i, j) :: rest, L =>
    if i = j then
      if pivot K L i j ≤ 0 then some (false, L)
      else decomposeFrom K rest (writeEntry L i j (FloatMath.sqrt (pivot K L i j)))
    else
      (divide (pivot K L i j) (entry L j j)).bind fun v =>
        decomposeFrom K rest (writeEntry L i j v)

def choleskyDecompose (K : List (List F)) : Option (Bool × List (List F)) :=
  decomposeFrom K (positions K.length) (zeros K.length)

end Decompose

/-- The forward substitution, of the rows up to `i`. -/
def forward (L : List (List F)) (b : List F) : ℕ → Option (List F)
  | 0 => some (List.replicate L.length 0)
  | i + 1 => (forward L b i).bind fun x =>
    (divide (subtractAll (b.getD i 0) i fun j => entry L i j * x.getD j 0) (entry L i i)).map
      fun v => x.set i v

/-- The backward substitution in the vector `x`, of the rows below `i`; `n` is where the loop over
`j` ends. -/
def backward (L : List (List F)) (n : ℕ) : ℕ → List F → Option (List F)
  | 0, x => some x
  | i + 1, x =>
    (divide (subtractAll (x.getD i 0) (n - (i + 1)) fun t =>
        entry L (i + 1 + t) i * x.getD (i + 1 + t) 0) (entry L i i)).bind
      fun v => backward L n i (x.set i v)

def solveCholesky (L : List (List F)) (b : List F) : Option (List F) :=
  (forward L b L.length).bind (backward L L.length L.length)

end Loops

/-! ### Entries -/

/-- A square matrix of `n` rows. -/
structure Square {F : Type} (n : ℕ) (m : List (List F)) : Prop where
  rows : m.length = n
  columns : ∀ row ∈ m, row.length = n

section Entries

variable {F : Type} [Zero F] {n i j a b : ℕ} {L : List (List F)} {v : F}

theorem Square.zeros (n : ℕ) : Square n (InPlace.zeros n : List (List F)) where
  rows := List.length_replicate
  columns row hrow := by
    rw [List.eq_of_mem_replicate hrow]
    exact List.length_replicate

theorem entry_zeros (n a b : ℕ) : entry (InPlace.zeros n : List (List F)) a b = 0 := by
  unfold entry InPlace.zeros
  by_cases ha : a < n
  · by_cases hb : b < n <;> simp [List.getD, ha, hb]
  · simp [List.getD, ha]

omit [Zero F] in
theorem Square.writeEntry (h : Square n L) (i j : ℕ) (v : F) : Square n (writeEntry L i j v) where
  rows := by rw [InPlace.writeEntry, List.length_modify, h.rows]
  columns row hrow := by
    obtain ⟨k, hk, rfl⟩ := List.getElem_of_mem hrow
    rw [InPlace.writeEntry, List.length_modify] at hk
    have hold : L[k].length = n := h.columns _ (List.getElem_mem hk)
    simp only [InPlace.writeEntry, List.getElem_modify]
    split_ifs
    · rw [List.length_set, hold]
    · exact hold

theorem entry_writeEntry (h : Square n L) (hi : i < n) (hj : j < n) :
    entry (writeEntry L i j v) a b = if a = i ∧ b = j then v else entry L a b := by
  have hlen : i < L.length := h.rows.symm ▸ hi
  have hrow : j < L[i].length := by rw [h.columns _ (List.getElem_mem hlen)]; exact hj
  unfold entry writeEntry
  by_cases ha : a = i
  · subst ha
    by_cases hb : b = j
    · subst hb
      simp [List.getD, hlen, hrow]
    · simp [List.getD, hlen, hb, List.getElem?_set_ne (Ne.symm hb)]
  · simp [List.getD, ha, Ne.symm ha]

end Entries

/-! ### The factorisation -/

section Factorisation

variable {n i j : ℕ} {K L : List (List ℝ)}

theorem pivot_eq (K L : List (List ℝ)) (i j : ℕ) :
    pivot K L i j = entry K i j - ∑ k ∈ range j, entry L i k * entry L j k :=
  subtractAll_eq ..

theorem divide_eq_some {a b : ℝ} (hb : b ≠ 0) : divide a b = some (a / b) := if_neg hb

/-- How the loops end: all rows are filled, or one is up to its diagonal and its pivot is not
positive. -/
inductive Decomposed (n : ℕ) (K : List (List ℝ)) : Option (Bool × List (List ℝ)) → Prop
  | complete {L : List (List ℝ)} (square : Square n L)
      (factored : Factored (entry K) (entry L) n 0) : Decomposed n K (some (true, L))
  | stuck {L : List (List ℝ)} {i : ℕ} (row : i < n) (square : Square n L)
      (factored : Factored (entry K) (entry L) i i) (pivot : pivot K L i i ≤ 0) :
      Decomposed n K (some (false, L))

/-- The loop over `j`, from a column on. -/
theorem decomposed_row {rest : List (ℕ × ℕ)} (hi : i < n) (hj : j ≤ i) (hsquare : Square n L)
    (hfactored : Factored (entry K) (entry L) i j)
    (hrest : ∀ L, Square n L → Factored (entry K) (entry L) (i + 1) 0 →
      Decomposed n K (decomposeFrom K rest L)) :
    Decomposed n K
      (decomposeFrom K ((List.range' j (i - j + 1)).map (fun j => (i, j)) ++ rest) L) := by
  induction hd : i - j generalizing j L with
  | zero =>
    obtain rfl : j = i := by omega
    simp only [zero_add, List.range'_one, List.map_cons, List.map_nil, List.cons_append,
      List.nil_append, decomposeFrom, if_pos]
    split_ifs with hpivot
    · exact .stuck hi hsquare hfactored hpivot
    · have hpositive : 0 < pivot K L j j := not_le.mp hpivot
      apply hrest _ (hsquare.writeEntry ..)
      apply hfactored.diagonal
      · intro a b hab
        rw [entry_writeEntry hsquare hi hi, if_neg hab]
      · rw [entry_writeEntry hsquare hi hi, if_pos ⟨rfl, rfl⟩]
        exact Real.sqrt_pos.mpr hpositive
      · rw [entry_writeEntry hsquare hi hi, if_pos ⟨rfl, rfl⟩, ← pivot_eq]
        exact Real.mul_self_sqrt hpositive.le
  | succ d ih =>
    have hlt : j < i := by omega
    rw [List.range'_succ]
    simp only [List.map_cons, List.cons_append, decomposeFrom, if_neg hlt.ne',
      divide_eq_some (hfactored.positive j hlt).ne', Option.bind_some]
    apply ih (by omega) (hsquare.writeEntry ..) _ (by omega)
    apply hfactored.below hlt
    · intro a b hab
      rw [entry_writeEntry hsquare hi (hlt.trans hi), if_neg hab]
    · rw [entry_writeEntry hsquare hi (hlt.trans hi), if_pos ⟨rfl, rfl⟩, pivot_eq]

/-- The loop over `i`, from a row on. -/
theorem decomposed_rows (hi : i ≤ n) (hsquare : Square n L)
    (hfactored : Factored (entry K) (entry L) i 0) :
    Decomposed n K (decomposeFrom K ((List.range' i (n - i)).flatMap fun i =>
      (List.range (i + 1)).map fun j => (i, j)) L) := by
  induction hd : n - i generalizing i L with
  | zero =>
    obtain rfl : i = n := by omega
    exact .complete hsquare hfactored
  | succ d ih =>
    rw [List.range'_succ, List.flatMap_cons, List.range_eq_range']
    apply decomposed_row (by omega) (Nat.zero_le _) hsquare hfactored
    intro L hsquare hfactored
    exact ih (by omega) hsquare hfactored (by omega)

theorem decomposed_choleskyDecompose (hK : Square n K) : Decomposed n K (choleskyDecompose K) := by
  rw [choleskyDecompose, hK.rows, positions, List.range_eq_range']
  apply decomposed_rows (Nat.zero_le _) (.zeros n)
  constructor
  · intro a b _
    exact entry_zeros n a b
  · intro a ha
    omega
  · intro a b hab
    unfold Before at hab
    omega

end Factorisation

/-! ### The substitutions -/

section Substitutions

variable {n : ℕ} {L : List (List ℝ)} {b x : List ℝ}

theorem getD_set {i j : ℕ} {v : ℝ} (hi : i < x.length) :
    (x.set i v).getD j 0 = if j = i then v else x.getD j 0 := by
  by_cases hji : j = i
  · subst hji
    simp [List.getD, hi]
  · simp [List.getD, hji, List.getElem?_set_ne (Ne.symm hji)]

theorem forward_solves (hn : L.length = n) (hdiagonal : ∀ a < n, entry L a a ≠ 0) {i : ℕ}
    (hi : i ≤ n) :
    ∃ x, forward L b i = some x ∧ x.length = n ∧
      ∀ r < i, ∑ c ∈ range (r + 1), entry L r c * x.getD c 0 = b.getD r 0 := by
  induction i with
  | zero =>
    refine ⟨List.replicate L.length 0, rfl, ?_, ?_⟩
    · rw [List.length_replicate, hn]
    · intro r hr
      omega
  | succ i ih =>
    obtain ⟨x, hx, hlen, hrows⟩ := ih (by omega)
    have hne : entry L i i ≠ 0 := hdiagonal i (by omega)
    have hsame : ∀ v, ∀ r ≤ i, ∑ c ∈ range r, entry L r c * (x.set i v).getD c 0 =
        ∑ c ∈ range r, entry L r c * x.getD c 0 := by
      intro v r hr
      refine sum_congr rfl fun c hc => ?_
      have hci : c ≠ i := by have := mem_range.mp hc; omega
      rw [getD_set (by omega), if_neg hci]
    rw [forward, hx, Option.bind_some, divide_eq_some hne, Option.map_some]
    refine ⟨_, rfl, ?_, ?_⟩
    · rw [List.length_set, hlen]
    · intro r hr
      rw [sum_range_succ, hsame _ r (by omega), getD_set (by omega)]
      by_cases hri : r = i
      · subst hri
        rw [if_pos rfl, subtractAll_eq, mul_div_cancel₀ _ hne]
        ring
      · rw [if_neg hri, ← hrows r (by omega), sum_range_succ]

/-- The rows from `i` on keep what is in them, and the others are solved for what was. -/
theorem backward_solves (hzero : ∀ a c, a < c → entry L a c = 0)
    (hdiagonal : ∀ a < n, entry L a a ≠ 0) {i : ℕ} (hi : i ≤ n) (hlen : x.length = n) :
    ∃ x', backward L n i x = some x' ∧ x'.length = n ∧
      (∀ j, i ≤ j → x'.getD j 0 = x.getD j 0) ∧
      ∀ r < i, ∑ c ∈ range n, entry L c r * x'.getD c 0 = x.getD r 0 := by
  induction i generalizing x with
  | zero =>
    refine ⟨x, rfl, hlen, fun _ _ => rfl, ?_⟩
    intro r hr
    omega
  | succ i ih =>
    have hne : entry L i i ≠ 0 := hdiagonal i (by omega)
    rw [backward, divide_eq_some hne, Option.bind_some]
    set v := subtractAll (x.getD i 0) (n - (i + 1)) (fun t =>
      entry L (i + 1 + t) i * x.getD (i + 1 + t) 0) / entry L i i with hv
    obtain ⟨x', hx', hlen', hkept, hrows⟩ := ih (by omega) (x := x.set i v) (by simp [hlen])
    refine ⟨x', hx', hlen', ?_, ?_⟩
    · intro j hj
      have hji : j ≠ i := by omega
      rw [hkept j (by omega), getD_set (by omega), if_neg hji]
    · intro r hr
      by_cases hri : r = i
      · subst hri
        -- Above the row the factor is zero, and below it the vector has its last values.
        have habove : ∑ c ∈ range r, entry L c r * x'.getD c 0 = 0 := by
          apply sum_eq_zero
          intro c hc
          rw [hzero c r (mem_range.mp hc), zero_mul]
        have hbelow : ∑ t ∈ range (n - (r + 1)), entry L (r + 1 + t) r * x'.getD (r + 1 + t) 0 =
            ∑ t ∈ range (n - (r + 1)), entry L (r + 1 + t) r * x.getD (r + 1 + t) 0 := by
          refine sum_congr rfl fun t _ => ?_
          have hne : r + 1 + t ≠ r := by omega
          rw [hkept _ (by omega), getD_set (by omega), if_neg hne]
        have hsplit : n = r + 1 + (n - (r + 1)) := by omega
        rw [hsplit, sum_range_add, sum_range_succ, habove, hbelow, hkept r le_rfl,
          getD_set (by omega), if_pos rfl, hv, subtractAll_eq, mul_div_cancel₀ _ hne]
        ring
      · rw [hrows r (by omega), getD_set (by omega), if_neg hri]

end Substitutions

/-! ### The system -/

section System

variable {n : ℕ} {K L : List (List ℝ)}

def matrixOf {F : Type} [Zero F] (n : ℕ) (m : List (List F)) : Matrix (Fin n) (Fin n) F :=
  of fun i j => entry m i j

def vectorOf {F : Type} [Zero F] (n : ℕ) (v : List F) : Fin n → F := fun i => v.getD i 0

theorem entry_symm (hsymm : (matrixOf n K).IsSymm) {a b : ℕ} (ha : a < n) (hb : b < n) :
    entry K a b = entry K b a := hsymm.apply (i := ⟨b, hb⟩) (j := ⟨a, ha⟩)

theorem isLowerTriangular_of_factored (h : Factored (entry K) (entry L) n 0) :
    (matrixOf n L).IsLowerTriangular := by
  intro i j hij
  apply h.zero
  have : i.val < j.val := hij
  unfold Before
  omega

theorem mul_transpose_of_factored (hsymm : (matrixOf n K).IsSymm)
    (h : Factored (entry K) (entry L) n 0) :
    matrixOf n L * (matrixOf n L)ᵀ = matrixOf n K := by
  ext i j
  have hrows : ∑ c ∈ range n, entry L i c * entry L j c = entry K i j := by
    apply h.sum_eq (entry_symm hsymm i.isLt j.isLt)
    · unfold Before
      omega
    · omega
  simp only [mul_apply, transpose_apply, matrixOf, of_apply]
  rw [Fin.sum_univ_eq_sum_range fun c => entry L i c * entry L j c, hrows]

theorem posDef_of_factored (hsymm : (matrixOf n K).IsSymm)
    (h : Factored (entry K) (entry L) n 0) : (matrixOf n K).PosDef := by
  have hdet : (matrixOf n L).det ≠ 0 := by
    rw [det_of_isLowerTriangular _ (isLowerTriangular_of_factored h)]
    exact prod_ne_zero_iff.mpr fun i _ => (h.positive i i.isLt).ne'
  rw [← mul_transpose_of_factored hsymm h]
  apply PosDef.mul_conjTranspose_self
  exact vecMul_injective_of_isUnit ((isUnit_iff_isUnit_det _).mpr hdet.isUnit)

theorem not_posDef_of_factored {i : ℕ} (hi : i < n) (hsymm : (matrixOf n K).IsSymm)
    (h : Factored (entry K) (entry L) i i) (hpivot : pivot K L i i ≤ 0) :
    ¬ (matrixOf n K).PosDef := by
  intro hposDef
  obtain ⟨x, hxi, hxbeyond, hform⟩ :=
    h.exists_form_eq fun a ha b hb => entry_symm hsymm (by omega) (by omega)
  have hne : (fun a : Fin n => x a) ≠ 0 := by
    intro hzero
    have := congrFun hzero ⟨i, hi⟩
    simp [hxi] at this
  have hcut : ∀ a : ℕ, ∑ b ∈ range n, entry K a b * x b =
      ∑ b ∈ range (i + 1), entry K a b * x b := by
    intro a
    refine (sum_subset (range_subset_range.mpr hi) ?_).symm
    intro b _ hb
    rw [hxbeyond b (by simpa using hb), mul_zero]
  have hvalue : star (fun a : Fin n => x a) ⬝ᵥ (matrixOf n K *ᵥ fun a => x a) = pivot K L i i := by
    simp only [dotProduct, mulVec, matrixOf, of_apply, star_trivial]
    rw [Fin.sum_univ_eq_sum_range fun a => x a * ∑ b : Fin n, entry K a b * x b,
      ← sum_subset (range_subset_range.mpr hi), pivot_eq, ← hform]
    · refine sum_congr rfl fun a _ => ?_
      rw [Fin.sum_univ_eq_sum_range fun b => entry K a b * x b, hcut, mul_sum]
    · intro a _ ha
      rw [hxbeyond a (by simpa using ha), zero_mul]
  have hpos := hposDef.dotProduct_mulVec_pos hne
  rw [hvalue] at hpos
  exact absurd hpivot (not_le.mpr hpos)

theorem mulVec_solveCholesky (hsymm : (matrixOf n K).IsSymm) (hsquare : Square n L)
    (h : Factored (entry K) (entry L) n 0) {b : List ℝ} :
    ∃ x, solveCholesky L b = some x ∧ x.length = n ∧
      matrixOf n K *ᵥ vectorOf n x = vectorOf n b := by
  have hdiagonal : ∀ a < n, entry L a a ≠ 0 := fun a ha => (h.positive a ha).ne'
  have hzero : ∀ a c, a < c → entry L a c = 0 := by
    intro a c hac
    apply h.zero
    unfold Before
    omega
  obtain ⟨y, hy, hylen, hyrows⟩ := forward_solves (b := b) hsquare.rows hdiagonal le_rfl
  obtain ⟨x, hx, hxlen, -, hxrows⟩ := backward_solves hzero hdiagonal le_rfl hylen
  refine ⟨x, ?_, hxlen, ?_⟩
  · rw [solveCholesky, hsquare.rows, hy, Option.bind_some, hx]
  · rw [← mul_transpose_of_factored hsymm h, ← mulVec_mulVec]
    have hbackward : (matrixOf n L)ᵀ *ᵥ vectorOf n x = vectorOf n y := by
      funext c
      simp only [mulVec, dotProduct, transpose_apply, matrixOf, of_apply, vectorOf]
      rw [Fin.sum_univ_eq_sum_range fun a => entry L a c * x.getD a 0, hxrows c c.isLt]
    rw [hbackward]
    funext r
    simp only [mulVec, dotProduct, matrixOf, of_apply, vectorOf]
    rw [Fin.sum_univ_eq_sum_range fun c => entry L r c * y.getD c 0, ← hyrows r r.isLt]
    refine (sum_subset (range_subset_range.mpr r.isLt) ?_).symm
    intro c _ hc
    rw [hzero r c (by simpa using hc), zero_mul]

end System

/-- In exact arithmetic, on a symmetric matrix: nothing is divided by zero, and the factorisation
succeeds exactly if the matrix is positive definite. It has then found the lower triangular root of
positive diagonal, and the substitutions solve every system of the matrix. -/
theorem choleskyDecompose_solves (n : ℕ) (K : List (List ℝ)) (hK : Square n K)
    (hsymm : (matrixOf n K).IsSymm) :
    ∃ ok L, choleskyDecompose K = some (ok, L) ∧ (ok = true ↔ (matrixOf n K).PosDef) ∧
      (ok = true →
        Square n L ∧ (matrixOf n L).IsLowerTriangular ∧ (∀ i, 0 < matrixOf n L i i) ∧
        matrixOf n L * (matrixOf n L)ᵀ = matrixOf n K ∧
        ∀ b : List ℝ, b.length = n → ∃ x, solveCholesky L b = some x ∧ x.length = n ∧
          matrixOf n K *ᵥ vectorOf n x = vectorOf n b) := by
  generalize hdone : choleskyDecompose K = outcome
  have hend := decomposed_choleskyDecompose hK
  rw [hdone] at hend
  cases hend with
  | @complete L square factored =>
    refine ⟨true, L, rfl, ⟨fun _ => posDef_of_factored hsymm factored, fun _ => rfl⟩, fun _ => ?_⟩
    refine ⟨square, isLowerTriangular_of_factored factored, ?_,
      mul_transpose_of_factored hsymm factored, ?_⟩
    · intro i
      exact factored.positive i i.isLt
    · intro b _
      exact mulVec_solveCholesky hsymm square factored
  | @stuck L i row square factored pivot =>
    have hnot := not_posDef_of_factored row hsymm factored pivot
    exact ⟨false, L, rfl, ⟨fun h => absurd h Bool.false_ne_true, fun h => absurd h hnot⟩,
      fun h => absurd h Bool.false_ne_true⟩

/-- The matrix with rows `[4, 2]` and `[2, 5]`. -/
theorem choleskyDecompose_solves_two :
    Square 2 [[(4 : ℝ), 2], [2, 5]] ∧ (matrixOf 2 [[(4 : ℝ), 2], [2, 5]]).IsSymm ∧
    ∃ ok L, choleskyDecompose [[(4 : ℝ), 2], [2, 5]] = some (ok, L) ∧
      (ok = true ↔ (matrixOf 2 [[(4 : ℝ), 2], [2, 5]]).PosDef) := by
  have hsquare : Square 2 [[(4 : ℝ), 2], [2, 5]] := ⟨rfl, by simp⟩
  have hsymm : (matrixOf 2 [[(4 : ℝ), 2], [2, 5]]).IsSymm := by
    ext i j
    fin_cases i <;> fin_cases j <;> rfl
  obtain ⟨ok, L, hdone, hok, -⟩ := choleskyDecompose_solves 2 _ hsquare hsymm
  exact ⟨hsquare, hsymm, ok, L, hdone, hok⟩

end InPlace

end SurfaceAi.Tuning
