import Mathlib.Algebra.Order.Floor.Ring
import Mathlib.Algebra.Order.Field.Basic
import Mathlib.Tactic.FieldSimp
import Mathlib.Tactic.Linarith
import Mathlib.Tactic.Ring

/-! Rounding to a grid. The grid starts at a lower bound and goes on in equal steps; halves are
rounded up. Between two bounds the nearest grid point may lie above the upper one, and then it is
the nearest grid point of the upper bound as well. -/

namespace Grid

variable {F : Type*} [Field F] [LinearOrder F] [IsStrictOrderedRing F] [FloorRing F]

/-- The nearest integer. -/
def roundHalfUp (x : F) : ℤ := ⌊x + 1 / 2⌋

/-- The number of steps to the nearest grid point. -/
def steps (lo step v : F) : ℤ := roundHalfUp ((v - lo) / step)

/-- The nearest grid point. -/
def nearest (lo step v : F) : F := lo + (steps lo step v : F) * step

variable {lo hi step v w : F}

theorem steps_eq_iff (hstep : 0 < step) {n : ℤ} :
    steps lo step v = n ↔ lo + n * step ≤ v + step / 2 ∧ v + step / 2 < lo + (n + 1) * step := by
  have hsum : (v - lo) / step + 1 / 2 = (v - lo + step / 2) / step := by
    field_simp
  rw [steps, roundHalfUp, Int.floor_eq_iff, hsum, le_div_iff₀ hstep, div_lt_iff₀ hstep]
  constructor
  · rintro ⟨hle, hlt⟩
    exact ⟨by linarith, by linarith⟩
  · rintro ⟨hle, hlt⟩
    exact ⟨by linarith, by linarith⟩

theorem steps_bounds (lo v : F) (hstep : 0 < step) :
    lo + steps lo step v * step ≤ v + step / 2 ∧
      v + step / 2 < lo + (steps lo step v + 1) * step :=
  (steps_eq_iff hstep).mp rfl

/-- A grid point is its own nearest one. -/
theorem nearest_of_grid (lo : F) (hstep : 0 < step) (n : ℤ) :
    nearest lo step (lo + n * step) = lo + n * step := by
  have hsteps : steps lo step (lo + n * step) = n :=
    (steps_eq_iff hstep).mpr ⟨by linarith, by linarith⟩
  rw [nearest, hsteps]

theorem nearest_nearest (hstep : 0 < step) :
    nearest lo step (nearest lo step v) = nearest lo step v :=
  nearest_of_grid lo hstep _

theorem nearest_mono (hstep : 0 < step) (h : v ≤ w) : nearest lo step v ≤ nearest lo step w := by
  have hsteps : steps lo step v ≤ steps lo step w :=
    Int.floor_le_floor (by gcongr)
  rw [nearest, nearest]
  gcongr

/-- Rounding does not leave the grid at its start. -/
theorem le_nearest (hstep : 0 < step) (h : lo ≤ v) : lo ≤ nearest lo step v := by
  calc lo = nearest lo step lo := by
        have hgrid := nearest_of_grid lo hstep 0
        simpa using hgrid.symm
    _ ≤ nearest lo step v := nearest_mono hstep h

/-- The first grid point above the upper bound. -/
def beyond (lo hi step : F) : F := lo + (⌊(hi - lo) / step⌋ + 1 : ℤ) * step

/-- The midpoint before that point. -/
def midpoint (lo hi step : F) : F := beyond lo hi step - step / 2

theorem lt_beyond (lo hi : F) (hstep : 0 < step) :
    hi < beyond lo hi step ∧ beyond lo hi step - step ≤ hi := by
  have hfloor := Int.floor_le ((hi - lo) / step)
  have hlt := Int.lt_floor_add_one ((hi - lo) / step)
  rw [le_div_iff₀ hstep] at hfloor
  rw [div_lt_iff₀ hstep] at hlt
  rw [beyond, Int.cast_add, Int.cast_one]
  exact ⟨by linarith, by linarith⟩

/-- From the midpoint before the first grid point beyond the bound, that point is the nearest. -/
theorem nearest_eq_beyond (hstep : 0 < step) (hv : v ≤ hi) (h : midpoint lo hi step ≤ v) :
    nearest lo step v = beyond lo hi step := by
  have hbeyond := (lt_beyond lo hi hstep).1
  rw [midpoint, beyond] at h
  rw [beyond] at hbeyond
  have hsteps : steps lo step v = ⌊(hi - lo) / step⌋ + 1 :=
    (steps_eq_iff hstep).mpr ⟨by linarith, by linarith⟩
  rw [nearest, hsteps, beyond]

/-- Below the midpoint, rounding stays within the bound. -/
theorem nearest_le (hstep : 0 < step) (h : v < midpoint lo hi step) : nearest lo step v ≤ hi := by
  have hbeyond := (lt_beyond lo hi hstep).2
  have hbounds := steps_bounds lo v hstep
  have hsteps : steps lo step v ≤ ⌊(hi - lo) / step⌋ := by
    rw [midpoint, beyond] at h
    have hlt : (steps lo step v : F) * step < ((⌊(hi - lo) / step⌋ + 1 : ℤ) : F) * step := by
      linarith
    have hlt : steps lo step v < ⌊(hi - lo) / step⌋ + 1 := by
      exact_mod_cast lt_of_mul_lt_mul_right hlt hstep.le
    omega
  calc nearest lo step v ≤ lo + (⌊(hi - lo) / step⌋ : F) * step := by
        rw [nearest]
        gcongr
    _ = beyond lo hi step - step := by
        rw [beyond, Int.cast_add, Int.cast_one]
        ring
    _ ≤ hi := hbeyond

end Grid
