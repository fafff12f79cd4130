import Mathlib.Algebra.BigOperators.Ring.List
import Mathlib.Algebra.Order.BigOperators.Group.List
import Mathlib.Algebra.Order.Field.Basic
import Mathlib.Analysis.Convex.Basic
import Mathlib.Tactic.Linarith
import Mathlib.Tactic.LinearCombination

/-! Averages of a list of numbers stay between bounds on the numbers: the mix of two, a sum with
normalised weights, and the mean. -/

namespace Averages

open Set

variable {F ι : Type*} [Field F] [LinearOrder F] [IsStrictOrderedRing F] {lo hi : F}

theorem mix_mem {a b t : F} (ha : a ∈ Icc lo hi) (hb : b ∈ Icc lo hi) (ht : t ∈ Icc 0 1) :
    a * (1 - t) + b * t ∈ Icc lo hi := by
  have hconvex : Convex F (Icc lo hi) := convex_Icc lo hi
  have hmix := hconvex ha hb (sub_nonneg.mpr ht.2) ht.1 (sub_add_cancel 1 t)
  rwa [smul_eq_mul, smul_eq_mul, mul_comm, mul_comm t] at hmix

/-- A weighted sum is between the bounds times the sum of the weights. -/
theorem weighted_bounds (l : List ι) (value weight : ι → F)
    (hvalue : ∀ i ∈ l, value i ∈ Icc lo hi) (hweight : ∀ i ∈ l, 0 ≤ weight i) :
    lo * (l.map weight).sum ≤ (l.map fun i => value i * weight i).sum ∧
      (l.map fun i => value i * weight i).sum ≤ hi * (l.map weight).sum := by
  rw [← List.sum_map_mul_left, ← List.sum_map_mul_left]
  constructor
  · exact List.sum_le_sum fun i hi => mul_le_mul_of_nonneg_right (hvalue i hi).1 (hweight i hi)
  · exact List.sum_le_sum fun i hi => mul_le_mul_of_nonneg_right (hvalue i hi).2 (hweight i hi)

theorem weighted_mem (l : List ι) (value weight : ι → F) (hvalue : ∀ i ∈ l, value i ∈ Icc lo hi)
    (hweight : ∀ i ∈ l, 0 ≤ weight i) (hsum : (l.map weight).sum = 1) :
    (l.map fun i => value i * weight i).sum ∈ Icc lo hi := by
  have hbounds := weighted_bounds l value weight hvalue hweight
  rwa [hsum, mul_one, mul_one] at hbounds

/-- Positive weights, divided by their sum. -/
theorem normalise {l : List F} (hne : l ≠ []) (hpos : ∀ k ∈ l, 0 < k) :
    (∀ k ∈ l.map (· / l.sum), 0 ≤ k) ∧ (l.map (· / l.sum)).sum = 1 := by
  have hsum : 0 < l.sum := List.sum_pos l hpos hne
  constructor
  · intro k hk
    obtain ⟨q, hq, rfl⟩ := List.mem_map.mp hk
    exact div_nonneg (hpos q hq).le hsum.le
  · simp only [div_eq_mul_inv]
    rw [List.sum_map_mul_right, List.map_id']
    exact mul_inv_cancel₀ hsum.ne'

theorem lt_mean {l : List F} (hne : l ≠ []) (hlt : ∀ q ∈ l, lo < q) : lo < l.sum / l.length := by
  have hsum := List.sum_lt_sum_of_ne_nil hne (fun _ => lo) id hlt
  rw [List.map_const', List.sum_replicate, List.map_id, nsmul_eq_mul, mul_comm] at hsum
  exact (lt_div_iff₀ (Nat.cast_pos.mpr (List.length_pos_iff.mpr hne))).mpr hsum

theorem mean_le {l : List F} (hne : l ≠ []) (hle : ∀ q ∈ l, q ≤ hi) : l.sum / l.length ≤ hi := by
  have hsum := List.sum_le_card_nsmul l hi hle
  rw [nsmul_eq_mul, mul_comm] at hsum
  exact (div_le_iff₀ (Nat.cast_pos.mpr (List.length_pos_iff.mpr hne))).mpr hsum

end Averages

/-! How many values can lie far above their mean. Each of them puts the square of its distance
into the sum of squares, so at most one in `c * c` exceeds the mean by `c` deviations. -/

namespace Deviation

variable {F : Type*} [Field F] [LinearOrder F] [IsStrictOrderedRing F]

/-- The values more than `d` above `m` need a sum of squares of their number times `d * d`. -/
theorem countP_mul_le (l : List F) (m : F) {d : F} (hd : 0 ≤ d) :
    ((l.countP fun x => decide (m + d < x) : ℕ) : F) * (d * d) ≤
      (l.map fun x => (x - m) * (x - m)).sum := by
  induction l with
  | nil => simp
  | cons x l ih =>
    rw [List.map_cons, List.sum_cons, List.countP_cons]
    by_cases hx : m + d < x
    · have hsquare : d * d ≤ (x - m) * (x - m) :=
        mul_self_le_mul_self hd (by linarith)
      simp only [hx, decide_true, ite_true, Nat.cast_add, Nat.cast_one]
      linarith
    · have hsquare := mul_self_nonneg (x - m)
      simp only [hx, decide_false, Bool.false_eq_true, ite_false, Nat.add_zero]
      linarith

/-- At most one value in `c * c` exceeds the mean by more than `c` deviations. -/
theorem mul_countP_le {l : List F} {m deviation c : F} (hc : 0 ≤ c) (hpos : 0 < deviation)
    (hvariance : (l.map fun x => (x - m) * (x - m)).sum = l.length * (deviation * deviation)) :
    c * c * ((l.countP fun x => decide (m + c * deviation < x) : ℕ) : F) ≤ l.length := by
  have hcount := countP_mul_le l m (mul_nonneg hc hpos.le)
  rw [hvariance] at hcount
  have hsquare : 0 < deviation * deviation := mul_pos hpos hpos
  refine le_of_mul_le_mul_right ?_ hsquare
  linarith

end Deviation
