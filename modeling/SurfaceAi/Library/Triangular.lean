import Mathlib.Algebra.BigOperators.Intervals
import Mathlib.Algebra.BigOperators.Ring.Finset
import Mathlib.Algebra.Field.Defs
import Mathlib.Tactic.Ring

/-! Sums over a triangle: what subtracting a list of terms comes to, sums that a zero above the
diagonal cuts off, and the quadratic form of a matrix that is a product but for one entry. -/

namespace Triangular

open Finset

section Subtraction

variable {M : Type*}

/-- The terms taken from `s` one after the other. -/
def subtractAll [Sub M] (s : M) (n : ℕ) (term : ℕ → M) : M :=
  (List.range n).foldl (fun sum k => sum - term k) s

theorem subtractAll_eq [AddCommGroup M] (s : M) (n : ℕ) (term : ℕ → M) :
    subtractAll s n term = s - ∑ k ∈ range n, term k := by
  induction n with
  | zero => simp [subtractAll]
  | succ n ih =>
    rw [subtractAll, List.range_succ, List.foldl_append, ← subtractAll, ih, sum_range_succ]
    simp [sub_sub]

end Subtraction

section Products

variable {R : Type*} [CommRing R] {l k : ℕ → ℕ → R}

/-- A product of rows of a lower triangle is summed up to the shorter row. -/
theorem sum_rows_eq {a b m : ℕ} (hzero : ∀ c, b < c → l b c = 0) (hb : b < m) :
    ∑ c ∈ range m, l a c * l b c = ∑ c ∈ range (b + 1), l a c * l b c := by
  refine (sum_subset (range_subset_range.mpr hb) ?_).symm
  intro c _ hc
  rw [hzero c (by simpa using hc), mul_zero]

/-- The form of a matrix that is a product of rows, but for what one diagonal entry has more. -/
theorem quadratic_eq {n m i : ℕ} (hi : i < n) {excess : R}
    (h : ∀ a < n, ∀ b < n, k a b = ∑ c ∈ range m, l a c * l b c + if a = i ∧ b = i then excess else 0)
    (x : ℕ → R) :
    ∑ a ∈ range n, ∑ b ∈ range n, x a * (k a b * x b) =
      ∑ c ∈ range m, (∑ a ∈ range n, x a * l a c) * (∑ b ∈ range n, x b * l b c) +
        x i * x i * excess := by
  have hentry : ∀ a ∈ range n, ∀ b ∈ range n, x a * (k a b * x b) =
      ∑ c ∈ range m, x a * l a c * (x b * l b c) +
        if a = i then if b = i then x i * x i * excess else 0 else 0 := by
    intro a ha b hb
    rw [h a (mem_range.mp ha) b (mem_range.mp hb), add_mul, mul_add, sum_mul, mul_sum]
    congr 1
    · exact sum_congr rfl fun c _ => by ring
    · by_cases hai : a = i
      · by_cases hbi : b = i
        · simp [hai, hbi]
          ring
        · simp [hbi]
      · simp [hai]
  rw [sum_congr rfl fun a ha => sum_congr rfl (hentry a ha)]
  simp only [sum_add_distrib]
  congr 1
  · rw [sum_congr rfl fun a _ => sum_comm, sum_comm]
    refine sum_congr rfl fun c _ => ?_
    rw [sum_mul_sum]
  · simp [hi]

end Products

section Systems

variable {F : Type*} [Field F] {l : ℕ → ℕ → F}

/-- The transposed system of a lower triangle has a solution, found from its last row up. -/
theorem exists_sum_rows_eq {m : ℕ} (hzero : ∀ a < m, ∀ c, a < c → l a c = 0)
    (hdiagonal : ∀ a < m, l a a ≠ 0) (y : ℕ → F) :
    ∃ x : ℕ → F, ∀ c < m, ∑ a ∈ range m, x a * l a c = y c := by
  induction m generalizing y with
  | zero =>
    refine ⟨y, ?_⟩
    intro c hc
    omega
  | succ m ih =>
    obtain ⟨x, hx⟩ := ih (fun a ha => hzero a (by omega)) (fun a ha => hdiagonal a (by omega))
      fun c => y c - y m / l m m * l m c
    refine ⟨Function.update x m (y m / l m m), ?_⟩
    have hbelow (c : ℕ) : ∑ a ∈ range m, Function.update x m (y m / l m m) a * l a c =
        ∑ a ∈ range m, x a * l a c := by
      refine sum_congr rfl fun a ha => ?_
      rw [Function.update_of_ne (mem_range.mp ha).ne]
    intro c hc
    rw [sum_range_succ, hbelow, Function.update_self]
    by_cases hcm : c = m
    · subst hcm
      rw [sum_eq_zero, zero_add, div_mul_cancel₀ _ (hdiagonal c (by omega))]
      intro a ha
      rw [hzero a (by have := mem_range.mp ha; omega) c (mem_range.mp ha), mul_zero]
    · rw [hx c (by omega)]
      ring

end Systems

/-! ### A factor filled row by row -/

section Factors

variable {F : Type*} [Field F] [LinearOrder F] {n i j : ℕ} {k l : ℕ → ℕ → F}

/-- The place comes before column `j` of row `i`, in a lower triangle read row by row. -/
def Before (i j a b : ℕ) : Prop := b ≤ a ∧ (a < i ∨ a = i ∧ b < j)

/-- The places before column `j` of row `i` are filled with a factor of `k`. -/
structure Factored (k l : ℕ → ℕ → F) (i j : ℕ) : Prop where
  zero : ∀ a b, ¬ Before i j a b → l a b = 0
  positive : ∀ a < i, 0 < l a a
  product : ∀ a b, Before i j a b → ∑ c ∈ range (b + 1), l a c * l b c = k a b

namespace Factored

omit [LinearOrder F] in
/-- What a place filled before has as its product is not changed by filling the next one. -/
theorem sum_update {l' : ℕ → ℕ → F} {a b m : ℕ}
    (hl' : ∀ a b, ¬ (a = i ∧ b = j) → l' a b = l a b) (hab : a ≠ i ∨ m ≤ j) (hb : b ≠ i ∨ m ≤ j) :
    ∑ c ∈ range m, l' a c * l' b c = ∑ c ∈ range m, l a c * l b c := by
  refine sum_congr rfl fun c hc => ?_
  have := mem_range.mp hc
  rw [hl' a c (by omega), hl' b c (by omega)]

/-- The next place is filled with what its product has to be. -/
theorem write (h : Factored k l i j) (hj : j ≤ i) {l' : ℕ → ℕ → F}
    (hl' : ∀ a b, ¬ (a = i ∧ b = j) → l' a b = l a b)
    (hproduct : l' i j * l' j j = k i j - ∑ c ∈ range j, l i c * l j c) :
    (∀ a b, ¬ Before i (j + 1) a b → l' a b = 0) ∧
      ∀ a b, Before i (j + 1) a b → ∑ c ∈ range (b + 1), l' a c * l' b c = k a b := by
  constructor
  · intro a b hab
    unfold Before at hab
    rw [hl' a b (by omega)]
    apply h.zero
    unfold Before
    omega
  · intro a b hab
    unfold Before at hab
    by_cases hat : a = i ∧ b = j
    · obtain ⟨rfl, rfl⟩ := hat
      rw [sum_range_succ, sum_update hl' (.inr le_rfl) (.inr le_rfl), hproduct]
      ring
    · rw [sum_update hl' (by omega) (by omega)]
      apply h.product
      unfold Before
      omega

/-- The next place left of the diagonal is filled. -/
theorem below (h : Factored k l i j) (hj : j < i) {l' : ℕ → ℕ → F}
    (hl' : ∀ a b, ¬ (a = i ∧ b = j) → l' a b = l a b)
    (hvalue : l' i j = (k i j - ∑ c ∈ range j, l i c * l j c) / l j j) :
    Factored k l' i (j + 1) where
  zero := by
    refine (h.write hj.le hl' ?_).1
    rw [hvalue, hl' j j (by omega), div_mul_cancel₀ _ (h.positive j hj).ne']
  positive a ha := by
    rw [hl' a a (by omega)]
    exact h.positive a ha
  product := by
    refine (h.write hj.le hl' ?_).2
    rw [hvalue, hl' j j (by omega), div_mul_cancel₀ _ (h.positive j hj).ne']

/-- The diagonal place of a row is filled, and the row is complete. -/
theorem diagonal (h : Factored k l i i) {l' : ℕ → ℕ → F}
    (hl' : ∀ a b, ¬ (a = i ∧ b = i) → l' a b = l a b) (hpositive : 0 < l' i i)
    (hvalue : l' i i * l' i i = k i i - ∑ c ∈ range i, l i c * l i c) :
    Factored k l' (i + 1) 0 where
  zero a b hab := by
    apply (h.write le_rfl hl' hvalue).1
    unfold Before at *
    omega
  positive a ha := by
    by_cases hai : a = i
    · rw [hai]
      exact hpositive
    · rw [hl' a a (by omega)]
      exact h.positive a (by omega)
  product a b hab := by
    apply (h.write le_rfl hl' hvalue).2
    unfold Before at *
    omega

private theorem sum_eq_of_le (h : Factored k l i j) {a b m : ℕ}
    (hab : Before i j a b) (hm : b < m) : ∑ c ∈ range m, l a c * l b c = k a b := by
  rw [sum_rows_eq _ hm, h.product a b hab]
  intro c hc
  apply h.zero
  unfold Before
  omega

/-- Two filled rows have the product that a symmetric matrix has there. -/
theorem sum_eq (h : Factored k l i j) {a b m : ℕ} (hsymmetric : k a b = k b a)
    (hab : Before i j (max a b) (min a b)) (hm : min a b < m) :
    ∑ c ∈ range m, l a c * l b c = k a b := by
  rcases le_total a b with hle | hle
  · rw [max_eq_right hle, min_eq_left hle] at hab
    rw [min_eq_left hle] at hm
    rw [hsymmetric, ← h.sum_eq_of_le hab hm]
    exact sum_congr rfl fun c _ => mul_comm _ _
  · rw [max_eq_left hle, min_eq_right hle] at hab
    rw [min_eq_right hle] at hm
    exact h.sum_eq_of_le hab hm

/-- On some vector that ends in a one at a row filled up to its diagonal, the form of the matrix is
what is left for the square there. -/
theorem exists_form_eq (h : Factored k l i i)
    (hsymmetric : ∀ a ≤ i, ∀ b ≤ i, k a b = k b a) :
    ∃ x : ℕ → F, x i = 1 ∧ (∀ a, i < a → x a = 0) ∧
      ∑ a ∈ range (i + 1), ∑ b ∈ range (i + 1), x a * (k a b * x b) =
        k i i - ∑ c ∈ range i, l i c * l i c := by
  obtain ⟨y, hy⟩ := exists_sum_rows_eq (l := l) (m := i)
    (by
      intro a _ c hc
      apply h.zero
      unfold Before
      omega)
    (fun a ha => (h.positive a ha).ne') fun c => -l i c
  let x (a : ℕ) : F := if a < i then y a else if a = i then 1 else 0
  have hxi : x i = 1 := by simp [x]
  refine ⟨x, hxi, ?_, ?_⟩
  · intro a ha
    have hlt : ¬ a < i := by omega
    have hne : a ≠ i := by omega
    simp [x, hlt, hne]
  · have hentry : ∀ a < i + 1, ∀ b < i + 1, k a b = ∑ c ∈ range i, l a c * l b c +
        if a = i ∧ b = i then k i i - ∑ c ∈ range i, l i c * l i c else 0 := by
      intro a ha b hb
      by_cases hab : a = i ∧ b = i
      · obtain ⟨rfl, rfl⟩ := hab
        simp
      · rw [if_neg hab, add_zero]
        refine (h.sum_eq (hsymmetric a (by omega) b (by omega)) ?_ (by omega)).symm
        unfold Before
        omega
    have hvanish : ∀ c ∈ range i, ∑ a ∈ range (i + 1), x a * l a c = 0 := by
      intro c hc
      have hsame : ∀ a ∈ range i, x a * l a c = y a * l a c := by
        intro a ha
        simp [x, mem_range.mp ha]
      rw [sum_range_succ, sum_congr rfl hsame, hy c (mem_range.mp hc), hxi]
      ring
    rw [quadratic_eq (by omega) hentry, sum_eq_zero, hxi]
    · ring
    · intro c hc
      rw [hvanish c hc, zero_mul]

end Factored

end Factors

end Triangular
