import SurfaceAi.Core.Arithmetic
import Mathlib.Analysis.Complex.Exponential
import Mathlib.Analysis.Real.Sqrt

/-! Exact real arithmetic. -/

namespace SurfaceAi

noncomputable instance realMath : FloatMath ℝ where
  sqrt := Real.sqrt
  exp := Real.exp
  toSize x := ⌊x⌋₊

theorem truncates_realMath : Truncates ℝ := fun _ _ => rfl

end SurfaceAi
