import Mathlib.Algebra.BigOperators.Group.List.Basic
import Mathlib.Algebra.Order.Floor.Semiring
import Mathlib.Data.Nat.Sqrt
import Mathlib.Data.Rat.Floor
import Mathlib.Order.Lattice

/-! Floating-point operations beyond the ring operations, without laws: theorems that
hold in exact arithmetic add the laws they use. -/

namespace SurfaceAi

/-- `std::sqrt`, `std::exp` and the truncating cast to `std::size_t`. -/
class FloatMath (F : Type*) where
  sqrt : F → F
  exp : F → F
  toSize : F → ℕ

/-- Rational arithmetic for runs on concrete inputs: the root is exact on squares of
rationals, and the exponential is its Taylor sum. -/
instance exactMath : FloatMath ℚ where
  sqrt q := (q.num.toNat.sqrt : ℚ) / (q.den.sqrt : ℚ)
  exp q := 1 + q + q * q / 2 + q * q * q / 6
  toSize q := q.floor.toNat

section Extremum

variable {F : Type*} [LT F] [DecidableLT F]

/-- `std::max(a, b)`: `a` unless `a < b`. -/
def stdMax (a b : F) : F := if a < b then b else a

/-- `std::min(a, b)`: `a` unless `b < a`. -/
def stdMin (a b : F) : F := if b < a then b else a

end Extremum

section Sums

variable {F : Type*} [Zero F] [Add F] [Mul F]

/-- A sum accumulated from zero, left to right. -/
def accumulate (xs : List F) : F := xs.foldl (· + ·) 0

/-- The accumulated inner product. -/
def dot (xs ys : List F) : F := accumulate (List.zipWith (· * ·) xs ys)

end Sums

/-! Laws of exact arithmetic for the operations of the standard library. -/

variable {F : Type*}

theorem stdMax_eq_max [LinearOrder F] (a b : F) : stdMax a b = max a b :=
  (max_def_lt a b).symm

theorem stdMin_eq_min [LinearOrder F] (a b : F) : stdMin a b = min a b := by
  rw [min_comm, min_def_lt]
  rfl

theorem accumulate_eq_sum [AddCommMonoid F] [Mul F] (xs : List F) : accumulate xs = xs.sum :=
  List.sum_eq_foldl.symm

/-- The cast to `std::size_t` truncates what is not negative. -/
def Truncates (F : Type*) [Semiring F] [LinearOrder F] [FloorSemiring F] [FloatMath F] : Prop :=
  ∀ x : F, 0 ≤ x → FloatMath.toSize x = ⌊x⌋₊

theorem truncates_exactMath : Truncates ℚ := fun _ _ => rfl

end SurfaceAi
