import Mathlib.Analysis.Matrix.Order
import Mathlib.LinearAlgebra.Matrix.PosDef

/-! Positive semidefinite real matrices from which exact eigenpairs are taken one after the
other. A step of the power iteration does not shrink, and what is left after a deflation is
positive semidefinite and has the eigenvectors taken before in its kernel. -/

namespace Deflation

open Matrix

variable {ι : Type*} [Fintype ι] {A : Matrix ι ι ℝ} {u v x : ι → ℝ} {lam : ℝ}

theorem dotProduct_self_nonneg (x : ι → ℝ) : 0 ≤ x ⬝ᵥ x :=
  Finset.sum_nonneg fun i _ => mul_self_nonneg (x i)

theorem eq_zero_of_dotProduct_self (h : x ⬝ᵥ x = 0) : x = 0 := dotProduct_self_eq_zero.mp h

theorem mulVec_dotProduct (hA : A.IsHermitian) (x y : ι → ℝ) : A *ᵥ x ⬝ᵥ y = x ⬝ᵥ A *ᵥ y := by
  have hsymm : A.IsSymm := by simpa using hA
  rw [dotProduct_mulVec, ← mulVec_transpose, hsymm]

theorem form_nonneg (hA : A.PosSemidef) (x : ι → ℝ) : 0 ≤ x ⬝ᵥ A *ᵥ x := by
  simpa using hA.dotProduct_mulVec_nonneg x

/-- A form that vanishes on a vector has it in its kernel. -/
theorem form_pos (hA : A.PosSemidef) (h : A *ᵥ x ≠ 0) : 0 < x ⬝ᵥ A *ᵥ x := by
  refine lt_of_le_of_ne (form_nonneg hA x) fun hzero => h ?_
  have := (hA.dotProduct_mulVec_zero_iff x).mp (by simpa using hzero.symm)
  exact this

theorem sq_dotProduct_le (x y : ι → ℝ) : (x ⬝ᵥ y) ^ 2 ≤ (x ⬝ᵥ x) * (y ⬝ᵥ y) := by
  have := Finset.sum_mul_sq_le_sq_mul_sq Finset.univ x y
  simpa [dotProduct, sq] using this

/-- The image of a unit vector is at most as long as its own image over its length. -/
theorem growth (hA : A.IsHermitian) (hv : v ⬝ᵥ v = 1) :
    (A *ᵥ v ⬝ᵥ A *ᵥ v) ^ 2 ≤ A *ᵥ (A *ᵥ v) ⬝ᵥ A *ᵥ (A *ᵥ v) := by
  have h := sq_dotProduct_le v (A *ᵥ (A *ᵥ v))
  rwa [← mulVec_dotProduct hA, hv, one_mul] at h

/-! ### Eigenpairs -/

/-- A unit eigenvector with its eigenvalue. -/
structure Eigenpair (A : Matrix ι ι ℝ) (v : ι → ℝ) (lam : ℝ) : Prop where
  unit : v ⬝ᵥ v = 1
  eigen : A *ᵥ v = lam • v

namespace Eigenpair

theorem form (h : Eigenpair A v lam) : v ⬝ᵥ A *ᵥ v = lam := by
  rw [h.eigen, dotProduct_smul, h.unit, smul_eq_mul, mul_one]

theorem nonneg (h : Eigenpair A v lam) (hA : A.PosSemidef) : 0 ≤ lam :=
  h.form ▸ form_nonneg hA v

theorem image_sq (h : Eigenpair A v lam) : A *ᵥ v ⬝ᵥ A *ᵥ v = lam ^ 2 := by
  rw [h.eigen, smul_dotProduct, dotProduct_smul, h.unit, smul_eq_mul, smul_eq_mul, mul_one, sq]

/-- What the matrix sends to zero is orthogonal to the eigenvectors of the other eigenvalues. -/
theorem orthogonal (h : Eigenpair A v lam) (hA : A.IsHermitian) (hlam : lam ≠ 0)
    (hu : A *ᵥ u = 0) : v ⬝ᵥ u = 0 := by
  have hscaled : lam * (v ⬝ᵥ u) = 0 := by
    rw [← smul_eq_mul, ← smul_dotProduct, ← h.eigen, mulVec_dotProduct hA, hu, dotProduct_zero]
  exact (mul_eq_zero.mp hscaled).resolve_left hlam

end Eigenpair

/-- What is left of the matrix without an eigenpair. -/
def deflate (A : Matrix ι ι ℝ) (v : ι → ℝ) (lam : ℝ) : Matrix ι ι ℝ := A - lam • vecMulVec v v

theorem deflate_mulVec (x : ι → ℝ) :
    deflate A v lam *ᵥ x = A *ᵥ x - (lam * (v ⬝ᵥ x)) • v := by
  rw [deflate, sub_mulVec, smul_mulVec, vecMulVec_mulVec, ← smul_smul]
  simp

/-- A vector orthogonal to the one taken out is sent to the same image as before. -/
theorem deflate_mulVec_of_orthogonal (h : v ⬝ᵥ x = 0) : deflate A v lam *ᵥ x = A *ᵥ x := by
  rw [deflate_mulVec, h, mul_zero, zero_smul, sub_zero]

theorem Eigenpair.deflate_mulVec_self (h : Eigenpair A v lam) : deflate A v lam *ᵥ v = 0 := by
  rw [deflate_mulVec, h.unit, mul_one, h.eigen, sub_self]

omit [Fintype ι] in
theorem isHermitian_deflate (hA : A.IsHermitian) : (deflate A v lam).IsHermitian := by
  have hrank : (vecMulVec v v).IsHermitian := by
    ext i j
    simp [vecMulVec_apply, mul_comm]
  exact hA.sub (hrank.smul (IsSelfAdjoint.all lam))

theorem Eigenpair.posSemidef_deflate (h : Eigenpair A v lam) (hA : A.PosSemidef) :
    (deflate A v lam).PosSemidef := by
  refine PosSemidef.of_dotProduct_mulVec_nonneg (isHermitian_deflate hA.isHermitian) fun x => ?_
  -- the part of `x` across `v` carries the form of the difference
  set y := x - (v ⬝ᵥ x) • v with hy
  have hvy : v ⬝ᵥ y = 0 := by
    rw [hy, dotProduct_sub, dotProduct_smul, h.unit, smul_eq_mul, mul_one, sub_self]
  have himage : deflate A v lam *ᵥ x = A *ᵥ y := by
    have hx : x = y + (v ⬝ᵥ x) • v := by rw [hy, sub_add_cancel]
    conv_lhs => rw [hx]
    rw [mulVec_add, mulVec_smul, h.deflate_mulVec_self, smul_zero, add_zero,
      deflate_mulVec_of_orthogonal hvy]
  have hform : x ⬝ᵥ A *ᵥ y = y ⬝ᵥ A *ᵥ y := by
    have hcross : v ⬝ᵥ A *ᵥ y = 0 := by
      rw [← mulVec_dotProduct hA.isHermitian, h.eigen, smul_dotProduct, hvy, smul_zero]
    rw [hy, sub_dotProduct, smul_dotProduct, ← hy, hcross, smul_zero, sub_zero]
  rw [star_trivial, himage, hform]
  exact form_nonneg hA y

/-! ### Orthonormal families -/

section Orthonormal

variable {S : Finset ℕ} {c : ℕ → ι → ℝ}

/-- What a family of orthonormal vectors leaves of a vector. -/
def residual (S : Finset ℕ) (c : ℕ → ι → ℝ) (y : ι → ℝ) : ι → ℝ :=
  y - ∑ t ∈ S, (y ⬝ᵥ c t) • c t

/-- The residual is shorter by the coordinates. -/
theorem residual_sq (h : ∀ s ∈ S, ∀ t ∈ S, c s ⬝ᵥ c t = if s = t then 1 else 0) (y : ι → ℝ) :
    residual S c y ⬝ᵥ residual S c y = y ⬝ᵥ y - ∑ t ∈ S, (y ⬝ᵥ c t) * (y ⬝ᵥ c t) := by
  set p := ∑ t ∈ S, (y ⬝ᵥ c t) • c t with hp
  have hform : ∀ z, z ⬝ᵥ p = ∑ t ∈ S, (y ⬝ᵥ c t) * (z ⬝ᵥ c t) := by
    intro z
    rw [hp, dotProduct_sum]
    exact Finset.sum_congr rfl fun t _ => by rw [dotProduct_smul, smul_eq_mul]
  have hcoordinate : ∀ t ∈ S, p ⬝ᵥ c t = y ⬝ᵥ c t := by
    intro t ht
    rw [hp, sum_dotProduct, Finset.sum_eq_single_of_mem t ht]
    · rw [smul_dotProduct, h t ht t ht, if_pos rfl, smul_eq_mul, mul_one]
    · intro s hs hst
      rw [smul_dotProduct, h s hs t ht, if_neg hst, smul_zero]
  have hself : p ⬝ᵥ p = ∑ t ∈ S, (y ⬝ᵥ c t) * (y ⬝ᵥ c t) := by
    rw [hform]
    exact Finset.sum_congr rfl fun t ht => by rw [hcoordinate t ht]
  rw [residual, ← hp, sub_dotProduct, dotProduct_sub, dotProduct_sub, dotProduct_comm p y, hform,
    hself]
  ring

end Orthonormal

end Deflation
