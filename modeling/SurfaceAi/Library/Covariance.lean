import Mathlib.Algebra.BigOperators.Ring.List
import Mathlib.Data.Matrix.Mul

/-! The covariance of a list of vectors over a field, about their mean. A linear map conjugates
it, and rows that are scaled orthonormal eigenvectors turn it into a diagonal matrix. -/

namespace Covariance

open Matrix

variable {ι κ R : Type*} [Field R]

def mean (xs : List (ι → R)) : ι → R := (1 / (xs.length : R)) • xs.sum

def covariance (xs : List (ι → R)) : Matrix ι ι R :=
  (1 / (xs.length : R)) • (xs.map fun x => vecMulVec (x - mean xs) (x - mean xs)).sum

section Linear

variable [Fintype ι] (w : Matrix κ ι R)

theorem mulVec_sum (xs : List (ι → R)) : (xs.map (w *ᵥ ·)).sum = w *ᵥ xs.sum := by
  induction xs with
  | nil => simp
  | cons x xs ih => rw [List.map_cons, List.sum_cons, ih, List.sum_cons, mulVec_add]

theorem mean_map (xs : List (ι → R)) : mean (xs.map (w *ᵥ ·)) = w *ᵥ mean xs := by
  rw [mean, mean, List.length_map, mulVec_sum, mulVec_smul]

theorem mul_vecMulVec_mul (x y : ι → R) :
    w * vecMulVec x y * wᵀ = vecMulVec (w *ᵥ x) (w *ᵥ y) := by
  rw [mul_vecMulVec, vecMulVec_mul, vecMul_transpose]

theorem covariance_map (xs : List (ι → R)) :
    covariance (xs.map (w *ᵥ ·)) = w * covariance xs * wᵀ := by
  have hsum : ∀ ys : List (ι → R),
      (ys.map fun x => vecMulVec (w *ᵥ x - w *ᵥ mean xs) (w *ᵥ x - w *ᵥ mean xs)).sum =
        w * (ys.map fun x => vecMulVec (x - mean xs) (x - mean xs)).sum * wᵀ := by
    intro ys
    induction ys with
    | nil => simp
    | cons x ys ih =>
      rw [List.map_cons, List.sum_cons, ih, List.map_cons, List.sum_cons, ← mulVec_sub,
        ← mul_vecMulVec_mul, Matrix.mul_add, Matrix.add_mul]
  rw [covariance, covariance, mean_map, List.length_map, List.map_map, Matrix.mul_smul,
    Matrix.smul_mul, ← hsum]
  rfl

end Linear

section Eigen

variable [Fintype ι] {a : Matrix ι ι R} {v : κ → ι → R} {lam c : κ → R}

theorem conjugate_apply (w : Matrix κ ι R) (s t : κ) :
    (w * a * wᵀ) s t = w s ⬝ᵥ a *ᵥ w t := by
  rw [dotProduct_mulVec]
  rfl

/-- The rows are eigenvectors, orthonormal but for a factor each. -/
theorem conjugate_eq_diagonal [DecidableEq κ] {w : Matrix κ ι R} (hw : ∀ t, w t = c t • v t)
    (horthonormal : ∀ s t, v s ⬝ᵥ v t = if s = t then 1 else 0)
    (heigen : ∀ t, a *ᵥ v t = lam t • v t) :
    w * a * wᵀ = diagonal fun t => c t * c t * lam t := by
  ext s t
  rw [conjugate_apply, hw, hw, mulVec_smul, heigen, smul_dotProduct, dotProduct_smul,
    dotProduct_smul, horthonormal, diagonal_apply]
  rcases eq_or_ne s t with rfl | hne
  · rw [if_pos rfl, if_pos rfl]
    simp only [smul_eq_mul]
    ring
  · rw [if_neg hne, if_neg hne]
    simp

end Eigen

end Covariance
