import Mathlib.Tactic.Linarith
import SurfaceAi.Library.Double

/-! Exact arithmetic: a rounding that changes nothing. Between doubles that are neither infinite nor
NaN the operations are then those of the rationals, whatever the sign of a zero. -/

/-- A rounding that changes nothing. -/
def Rounding.Exact (r : Rounding) : Prop := ∀ q, r.round q = .finite q

namespace Double

/-- A double that is neither infinite nor a NaN, and the number it stands for. -/
inductive Denotes : Double → ℚ → Prop
  | finite (q : ℚ) : Denotes (.finite q) q
  | negZero : Denotes .negZero 0

variable {r : Rounding} {x y : Double} {a b : ℚ} {n : ℕ}

theorem Denotes.of_eq (h : Denotes x a) (hab : a = b) : Denotes x b := hab ▸ h

theorem Denotes.isZero_iff (h : Denotes x a) : x.isZero = true ↔ a = 0 := by
  cases h with
  | finite q => exact decide_eq_true_iff
  | negZero => exact iff_of_true rfl rfl

theorem denotes_signedZero (negative : Bool) : Denotes (signedZero negative) 0 := by
  cases negative with
  | false => exact .finite 0
  | true => exact .negZero

theorem Denotes.neg (h : Denotes x a) : Denotes x.neg (-a) := by
  cases h with
  | finite q =>
    rw [Double.neg]
    split_ifs with hzero
    · rw [hzero, neg_zero]
      exact .negZero
    · exact .finite _
  | negZero =>
    rw [neg_zero]
    exact .finite 0

/-! ### The operations -/

theorem denotes_round (h : r.Exact) (q : ℚ) : Denotes (r.round q) q := by
  rw [h q]
  exact .finite q

theorem denotes_ofNat (h : r.Exact) (n : ℕ) : Denotes (ofNat r n) n := denotes_round h n

theorem Denotes.add (h : r.Exact) (hx : Denotes x a) (hy : Denotes y b) :
    Denotes (Double.add r x y) (a + b) := by
  cases hx <;> cases hy
  · exact denotes_round h _
  · exact denotes_round h _
  · exact denotes_round h _
  · rw [add_zero]
    exact .negZero

theorem Denotes.sub (h : r.Exact) (hx : Denotes x a) (hy : Denotes y b) :
    Denotes (Double.sub r x y) (a - b) := by
  rw [sub_eq_add_neg]
  exact hx.add h hy.neg

theorem Denotes.mul (h : r.Exact) (hx : Denotes x a) (hy : Denotes y b) :
    Denotes (Double.mul r x y) (a * b) := by
  have hvalue : Double.mul r x y = if x.isZero || y.isZero
      then signedZero (x.isNegative ^^ y.isNegative) else r.round (x.value * y.value) := by
    cases hx <;> cases hy <;> rfl
  rw [hvalue]
  split_ifs with hzero
  · rw [Bool.or_eq_true, hx.isZero_iff, hy.isZero_iff] at hzero
    rw [mul_eq_zero.mpr hzero]
    exact denotes_signedZero _
  · cases hx <;> cases hy <;> exact denotes_round h _

theorem Denotes.div (h : r.Exact) (hx : Denotes x a) (hy : Denotes y b) (hb : b ≠ 0) :
    Denotes (Double.div r x y) (a / b) := by
  have hnonzero : ¬ y.isZero = true := hb ∘ hy.isZero_iff.mp
  have hvalue : Double.div r x y = if x.isZero
      then signedZero (x.isNegative ^^ y.isNegative) else r.round (x.value / y.value) := by
    cases hx <;> cases hy <;> exact if_neg hnonzero
  rw [hvalue]
  split_ifs with hzero
  · rw [hx.isZero_iff.mp hzero, zero_div]
    exact denotes_signedZero _
  · cases hx <;> cases hy <;> exact denotes_round h _

/-! ### Comparisons and the conversion to a whole number -/

theorem Denotes.lt_iff (hx : Denotes x a) (hy : Denotes y b) : lt x y = true ↔ a < b := by
  have hlt : lt x y = decide (x.value < y.value) := by cases hx <;> cases hy <;> rfl
  rw [hlt, decide_eq_true_iff]
  cases hx <;> cases hy <;> exact Iff.rfl

theorem Denotes.le_iff (hx : Denotes x a) (hy : Denotes y b) : le x y = true ↔ a ≤ b := by
  have hle : le x y = !lt y x := by cases hx <;> cases hy <;> rfl
  rw [hle, Bool.not_eq_true', ← Bool.not_eq_true, hy.lt_iff hx, not_lt]

theorem Denotes.min (hx : Denotes x a) (hy : Denotes y b) :
    Denotes (Double.min x y) (Min.min a b) := by
  rw [Double.min]
  split_ifs with hlt
  · rw [min_eq_right (hy.lt_iff hx |>.mp hlt).le]
    exact hy
  · rw [hy.lt_iff hx, not_lt] at hlt
    rw [min_eq_left hlt]
    exact hx

theorem Denotes.max (hx : Denotes x a) (hy : Denotes y b) :
    Denotes (Double.max x y) (Max.max a b) := by
  rw [Double.max]
  split_ifs with hlt
  · rw [max_eq_right (hx.lt_iff hy |>.mp hlt).le]
    exact hy
  · rw [hx.lt_iff hy, not_lt] at hlt
    rw [max_eq_left hlt]
    exact hx

/-- The whole part of a number from zero on. -/
theorem exists_whole (ha : 0 ≤ a) : ∃ n : ℕ, a.floor = n ∧ (n : ℚ) ≤ a ∧ a < n + 1 := by
  have hnonneg : 0 ≤ a.floor := Rat.le_floor_iff.mpr (by exact_mod_cast ha)
  obtain ⟨n, hn⟩ := Int.eq_ofNat_of_zero_le hnonneg
  refine ⟨n, hn, ?_, ?_⟩
  · have hle := Rat.le_floor_iff.mp hn.ge
    exact_mod_cast hle
  · have hlt := Rat.floor_lt_iff.mp (hn.trans_lt (Int.lt_succ n))
    exact_mod_cast hlt

theorem whole_eq (hle : (n : ℚ) ≤ a) (hlt : a < n + 1) : a.floor = n := by
  apply le_antisymm
  · exact Int.lt_add_one_iff.mp (Rat.floor_lt_iff.mpr (by exact_mod_cast hlt))
  · exact Rat.le_floor_iff.mpr (by exact_mod_cast hle)

theorem Denotes.truncate (hx : Denotes x a) (hle : (n : ℚ) ≤ a) (hlt : a < n + 1)
    (hn : n < 2 ^ 64) : x.truncate = some n := by
  have hfloor := whole_eq hle hlt
  have hbound : (n : ℚ) + 1 ≤ 2 ^ 64 := by exact_mod_cast hn
  have hnonneg : (0 : ℚ) ≤ n := Nat.cast_nonneg n
  cases hx with
  | finite q => rw [Double.truncate, if_pos ⟨by linarith, by linarith⟩, hfloor, Int.toNat_natCast]
  | negZero =>
    have hzero : n = 0 := by
      have hcast : (n : ℚ) ≤ (0 : ℕ) := hle
      exact Nat.le_zero.mp (by exact_mod_cast hcast)
    rw [hzero]
    rfl

end Double
