import SurfaceAi.Core.RealMath
import SurfaceAi.Embedding.PcaFitting
import SurfaceAi.Library.Deflation

/-! The power iteration in exact arithmetic. It starts from one fixed vector, so it reports a
variance exactly when that vector has an image that is long enough; from then on its vectors
are of length one and their images do not get shorter. -/

namespace SurfaceAi.Embeddings

open Deflation FlatMatrix Matrix

section Lists

variable {n : ℕ} {m x y : List ℝ}

theorem dot_eq (hx : x.length = n) (hy : y.length = n) : dot x y = vecOf n x ⬝ᵥ vecOf n y := by
  rw [dot, accumulate_eq_sum, sum_zipWith_mul hx hy]

@[simp] theorem length_matVec (n : ℕ) (m x : List ℝ) : (matVec n m x).length = n := by
  simp [matVec]

@[simp] theorem length_axis (n : ℕ) : (axis n : List ℝ).length = n := by simp [axis]

theorem vecOf_matVec (hm : m.length = n * n) (hx : x.length = n) :
    vecOf n (matVec n m x) = matOf n m *ᵥ vecOf n x := by
  funext i
  have hrow : (Rows.row n i m).length = n :=
    Rows.length_row (hm.symm ▸ Nat.mul_le_mul_right n i.isLt)
  rw [matVec, vecOf_map_range]
  dsimp only
  rw [dot_eq hrow hx, vecOf_row]
  rfl

theorem vecOf_map_div (x : List ℝ) (c : ℝ) : vecOf n (x.map (· / c)) = c⁻¹ • vecOf n x := by
  funext i
  rw [vecOf, Pi.smul_apply, vecOf, smul_eq_mul, inv_mul_eq_div, List.getD_eq_getElem?_getD,
    List.getElem?_map, List.getD_eq_getElem?_getD]
  cases x[(i : ℕ)]? <;> simp

theorem vecOf_axis (hn : 0 < n) : vecOf n (axis n : List ℝ) = Pi.single ⟨0, hn⟩ 1 := by
  funext i
  rw [vecOf, axis, List.getD_eq_getElem?_getD, List.getElem?_set, List.getElem?_replicate]
  rcases Nat.eq_zero_or_pos (i : ℕ) with hzero | hpos
  · have hi : i = ⟨0, hn⟩ := Fin.ext hzero
    rw [hi]
    simp [hn]
  · have hi : i ≠ ⟨0, hn⟩ := fun h => hpos.ne' (congrArg Fin.val h)
    simp [hpos.ne, Pi.single_eq_of_ne hi, i.isLt]

theorem axis_unit (hn : 0 < n) : vecOf n (axis n : List ℝ) ⬝ᵥ vecOf n (axis n) = 1 := by
  rw [vecOf_axis hn, single_dotProduct, one_mul, Pi.single_eq_same]

/-- The length of the first column of a matrix. -/
noncomputable def columnNorm (n : ℕ) (m : List ℝ) : ℝ :=
  FloatMath.sqrt (dot (matVec n m (axis n)) (matVec n m (axis n)))

theorem powerTolerance_pos : 0 < (powerTolerance : ℝ) := by
  rw [powerTolerance]
  positivity

end Lists

section Turns

variable {n : ℕ} {m v : List ℝ} {eigenvalue : ℝ}

/-- A vector of length one, whose image is long enough. -/
structure Iterate (n : ℕ) (m v : List ℝ) : Prop where
  length_eq : v.length = n
  unit : vecOf n v ⬝ᵥ vecOf n v = 1
  image : powerTolerance ^ 2 ≤ matOf n m *ᵥ vecOf n v ⬝ᵥ matOf n m *ᵥ vecOf n v

/-- The turn normalises the image, which then is no shorter. -/
theorem Iterate.turn (h : Iterate n m v) (hm : m.length = n * n) (hA : (matOf n m).PosSemidef) :
    Iterate n m ((matVec n m v).map
      (· / FloatMath.sqrt (dot (matVec n m v) (matVec n m v)))) := by
  have himage := vecOf_matVec hm h.length_eq
  have hdot : dot (matVec n m v) (matVec n m v) =
      matOf n m *ᵥ vecOf n v ⬝ᵥ matOf n m *ᵥ vecOf n v := by
    rw [dot_eq (length_matVec ..) (length_matVec ..), himage]
  rw [hdot]
  set s := matOf n m *ᵥ vecOf n v ⬝ᵥ matOf n m *ᵥ vecOf n v with hs
  have hspos : 0 < s := lt_of_lt_of_le (pow_pos powerTolerance_pos 2) h.image
  have hroot : (FloatMath.sqrt s : ℝ)⁻¹ * (FloatMath.sqrt s)⁻¹ = s⁻¹ := by
    rw [← mul_inv]
    exact congrArg _ (Real.mul_self_sqrt hspos.le)
  have hgrowth := growth hA.isHermitian h.unit
  rw [← hs] at hgrowth
  refine ⟨by rw [List.length_map, length_matVec], ?_, ?_⟩
  · rw [vecOf_map_div, himage, smul_dotProduct, dotProduct_smul, ← hs, smul_eq_mul, smul_eq_mul,
      ← mul_assoc, hroot, inv_mul_cancel₀ hspos.ne']
  · rw [vecOf_map_div, himage, mulVec_smul, smul_dotProduct, dotProduct_smul, smul_eq_mul,
      smul_eq_mul, ← mul_assoc, hroot]
    calc powerTolerance ^ 2 ≤ s := h.image
      _ = s⁻¹ * s ^ 2 := by rw [sq, ← mul_assoc, inv_mul_cancel₀ hspos.ne', one_mul]
      _ ≤ s⁻¹ * _ := mul_le_mul_of_nonneg_left hgrowth (inv_nonneg.mpr hspos.le)

/-- The Rayleigh quotient of such a vector is positive. -/
theorem Iterate.quotient_pos (h : Iterate n m v) (hm : m.length = n * n)
    (hA : (matOf n m).PosSemidef) : 0 < dot v (matVec n m v) := by
  rw [dot_eq h.length_eq (length_matVec ..), vecOf_matVec hm h.length_eq]
  refine form_pos hA fun hzero => ?_
  have himage := h.image
  rw [hzero, dotProduct_zero] at himage
  exact absurd himage (not_le.mpr (pow_pos powerTolerance_pos 2))

/-- The test of the norm. -/
theorem norm_lt_iff (hm : m.length = n * n) (hv : v.length = n) :
    FloatMath.sqrt (dot (matVec n m v) (matVec n m v)) < powerTolerance ↔
      matOf n m *ᵥ vecOf n v ⬝ᵥ matOf n m *ᵥ vecOf n v < powerTolerance ^ 2 := by
  rw [dot_eq (length_matVec ..) (length_matVec ..), vecOf_matVec hm hv]
  exact Real.sqrt_lt' powerTolerance_pos

/-- From a vector whose image is long enough the zero branch is never taken. -/
theorem powerTurns_of_iterate (hm : m.length = n * n) (hA : (matOf n m).PosSemidef) (turns : ℕ)
    (h : Iterate n m v) (hpos : 0 < turns ∨ 0 < eigenvalue) :
    ∃ u lambda, powerTurns m n turns v eigenvalue = some (u, lambda) ∧ Iterate n m u ∧
      0 < lambda := by
  induction turns generalizing v eigenvalue with
  | zero => exact ⟨v, eigenvalue, rfl, h, hpos.resolve_left (Nat.lt_irrefl 0)⟩
  | succ turns ih =>
    have hquotient := h.quotient_pos hm hA
    have hnorm := mt (norm_lt_iff hm h.length_eq).mp (not_lt.mpr h.image)
    have hnext := h.turn hm hA
    rw [powerTurns]
    dsimp only
    rw [if_neg hnorm, if_neg (not_lt.mpr hquotient.le)]
    split_ifs
    · exact ⟨_, _, rfl, hnext, hquotient⟩
    · exact ih hnext (.inr hquotient)

theorem iterate_axis (hn : 0 < n) (hm : m.length = n * n) (h : powerTolerance ≤ columnNorm n m) :
    Iterate n m (axis n) where
  length_eq := length_axis n
  unit := axis_unit hn
  image := not_lt.mp (mt (norm_lt_iff hm (length_axis n)).mpr (not_lt.mpr h))

theorem powerConverges_of_le (hn : 0 < n) (hm : m.length = n * n) (hA : (matOf n m).PosSemidef)
    (h : powerTolerance ≤ columnNorm n m) :
    ∃ u lambda, powerConverges m n = some (u, lambda) ∧ Iterate n m u ∧ 0 < lambda :=
  powerTurns_of_iterate hm hA 200 (iterate_axis hn hm h) (.inl (by omega))

theorem powerConverges_of_lt (h : columnNorm n m < powerTolerance) :
    powerConverges m n = none := by
  rw [powerConverges, powerTurns]
  exact if_pos h

/-- The zero branch is taken exactly when the first column is too short. -/
theorem powerConverges_eq_none_iff (hn : 0 < n) (hm : m.length = n * n)
    (hA : (matOf n m).PosSemidef) :
    powerConverges m n = none ↔ columnNorm n m < powerTolerance := by
  constructor
  · intro hnone
    by_contra hlong
    obtain ⟨u, lambda, hsome, -⟩ := powerConverges_of_le hn hm hA (not_lt.mp hlong)
    rw [hnone] at hsome
    cases hsome
  · exact powerConverges_of_lt

end Turns

end SurfaceAi.Embeddings
