import SurfaceAi.Library.Grid
import SurfaceAi.Tuning.TuningSpace
import Mathlib.Algebra.Order.Field.Rat
import Mathlib.Data.Rat.Floor

/-! Clamping a point to a search space without constraints. A grid that does not end at the upper
bound has a point beyond it, and what would be rounded there is moved to the bound, off the grid. -/

namespace SurfaceAi.Tuning

open Detection (ratio stdAbs)

variable {F : Type*} [Field F] [LinearOrder F] [IsStrictOrderedRing F] [FloorRing F]
  [TuningMath F]

/-- `std::round` of what is not negative. -/
def RoundsHalfUp (F : Type*) [Field F] [LinearOrder F] [FloorRing F] [TuningMath F] : Prop :=
  ∀ x : F, 0 ≤ x → TuningMath.round x = (Grid.roundHalfUp x : F)

namespace TuningParameter

variable {p : TuningParameter F} {v : F}

/-- The grid's first point above the upper bound is out of tolerance, and both the value and the
bound are nearer to it than to the point before. -/
def MissesGrid (p : TuningParameter F) (v : F) : Prop :=
  p.max + ratio 1 (10 ^ 9) < Grid.beyond p.min p.max p.step ∧
    Grid.midpoint p.min p.max p.step ≤ v ∧
    Grid.midpoint p.min p.max p.step ≤ p.max

omit [IsStrictOrderedRing F] [FloorRing F] [TuningMath F] in
theorem step_pos_of_hasGrid (h : p.hasGrid = true) : 0 < p.step := by
  simp only [hasGrid, Bool.and_eq_true, decide_eq_true_eq] at h
  exact h.2

theorem snap_eq_nearest (hround : RoundsHalfUp F) (hgrid : p.hasGrid = true) (hv : p.min ≤ v) :
    p.snap v = Grid.nearest p.min p.step v := by
  have hnonneg : 0 ≤ (v - p.min) / p.step :=
    div_nonneg (sub_nonneg.mpr hv) (step_pos_of_hasGrid hgrid).le
  rw [snap, hround _ hnonneg, Grid.nearest, Grid.steps]

omit [TuningMath F] in
/-- The midpoint before the first grid point beyond the bound is above the start of the grid. -/
theorem min_lt_midpoint (hgrid : p.hasGrid = true) (hle : p.min ≤ p.max) :
    p.min < Grid.midpoint p.min p.max p.step := by
  have hstep := step_pos_of_hasGrid hgrid
  have hsteps : (0 : ℤ) ≤ ⌊(p.max - p.min) / p.step⌋ :=
    Int.floor_nonneg.mpr (div_nonneg (sub_nonneg.mpr hle) hstep.le)
  have hcast : (1 : F) ≤ ((⌊(p.max - p.min) / p.step⌋ + 1 : ℤ) : F) := by
    exact_mod_cast (by omega : 1 ≤ ⌊(p.max - p.min) / p.step⌋ + 1)
  have hmul := le_mul_of_one_le_left hstep.le hcast
  rw [Grid.midpoint, Grid.beyond]
  linarith

omit [TuningMath F] in
/-- Clamped values reach the midpoint just when the value and the bound do. -/
theorem midpoint_le_stdClamp_iff (hgrid : p.hasGrid = true) (hle : p.min ≤ p.max) :
    Grid.midpoint p.min p.max p.step ≤ stdClamp v p.min p.max ↔
      Grid.midpoint p.min p.max p.step ≤ v ∧
        Grid.midpoint p.min p.max p.step ≤ p.max := by
  have hmid := min_lt_midpoint hgrid hle
  unfold stdClamp
  split_ifs with hlo hhi
  · constructor
    · intro h
      exact absurd h (not_le.mpr hmid)
    · intro h
      exact absurd (h.1.trans_lt hlo) hmid.not_gt
  · exact ⟨fun h => ⟨h.trans hhi.le, h⟩, fun h => h.2⟩
  · exact ⟨fun h => ⟨h, h.trans (not_lt.mp hhi)⟩, fun h => h.1⟩

/-- What a coordinate is clamped to: its nearest grid point, or the bound when that is beyond. -/
theorem clampToBounds_of_grid (hround : RoundsHalfUp F) (hgrid : p.hasGrid = true)
    (hle : p.min ≤ p.max) :
    p.clampToBounds v =
      if Grid.midpoint p.min p.max p.step ≤ stdClamp v p.min p.max then p.max
      else Grid.nearest p.min p.step (stdClamp v p.min p.max) := by
  have hstep := step_pos_of_hasGrid hgrid
  obtain ⟨hlo, hhi⟩ := TuningSpace.inRange_stdClamp hle v
  rw [clampToBounds, sample, if_pos hgrid, snap_eq_nearest hround hgrid (not_lt.mp hlo)]
  split_ifs with hmid
  · have hbeyond := Grid.lt_beyond p.min p.max hstep
    rw [Grid.nearest_eq_beyond hstep (not_lt.mp hhi) hmid, stdClamp,
      if_neg (not_lt.mpr (hle.trans hbeyond.1.le)), if_pos hbeyond.1]
  · exact p.stdClamp_of_inRange ⟨not_lt.mpr (Grid.le_nearest hstep (not_lt.mp hlo)),
      not_lt.mpr (Grid.nearest_le hstep (not_le.mp hmid))⟩

omit [IsStrictOrderedRing F] [FloorRing F] in
theorem inRange_clampToBounds (hle : p.min ≤ p.max) : p.InRange (p.clampToBounds v) := by
  unfold clampToBounds sample
  split_ifs
  · exact TuningSpace.inRange_stdClamp hle _
  · exact TuningSpace.inRange_stdClamp hle _

/-- Clamping a second time changes nothing. -/
theorem clampToBounds_idem (hround : RoundsHalfUp F) (hle : p.min ≤ p.max) :
    p.clampToBounds (p.clampToBounds v) = p.clampToBounds v := by
  have hrange := p.stdClamp_of_inRange (inRange_clampToBounds (v := v) hle)
  cases hgrid : p.hasGrid with
  | false =>
    have hsame : ∀ u, p.clampToBounds u = stdClamp u p.min p.max := fun u => by
      rw [clampToBounds, sample, if_neg (by simp [hgrid])]
    rw [hsame (p.clampToBounds v), hrange]
  | true =>
    have hstep := step_pos_of_hasGrid hgrid
    obtain ⟨-, hhi⟩ := TuningSpace.inRange_stdClamp hle v
    rw [clampToBounds_of_grid hround hgrid hle, hrange, clampToBounds_of_grid hround hgrid hle]
    by_cases hmid : Grid.midpoint p.min p.max p.step ≤ stdClamp v p.min p.max
    · rw [if_pos hmid, if_pos (hmid.trans (not_lt.mp hhi))]
    · rw [if_neg hmid, Grid.nearest_nearest hstep, ite_eq_right_iff]
      -- a grid point at or above the midpoint would be beyond the bound
      intro hmid'
      have hbelow := Grid.nearest_le hstep (not_le.mp hmid)
      have hbeyond := Grid.nearest_eq_beyond hstep hbelow hmid'
      rw [Grid.nearest_nearest hstep] at hbeyond
      exact absurd hbelow (not_le.mpr (hbeyond ▸ (Grid.lt_beyond p.min p.max hstep).1))

omit [FloorRing F] [TuningMath F] in
theorem ratio_nonneg (m n : ℕ) : (0 : F) ≤ ratio m n :=
  div_nonneg (Nat.cast_nonneg m) (Nat.cast_nonneg n)

/-- A clamped coordinate is admitted just when it does not miss the grid. -/
theorem admits_clampToBounds_iff (hround : RoundsHalfUp F) (hle : p.min ≤ p.max) :
    p.admits (p.clampToBounds v) = true ↔ (p.hasGrid = true → ¬p.MissesGrid v) := by
  obtain ⟨hlo, hhi⟩ := inRange_clampToBounds (v := v) hle
  cases hgrid : p.hasGrid with
  | false => simp [admits, hgrid, hlo, hhi]
  | true =>
    have hstep := step_pos_of_hasGrid hgrid
    have hadmits : p.admits (p.clampToBounds v) = true ↔
        stdAbs (p.clampToBounds v - Grid.nearest p.min p.step (p.clampToBounds v)) ≤
          ratio 1 (10 ^ 9) := by
      rw [← snap_eq_nearest hround hgrid (not_lt.mp hlo)]
      simp [admits, hgrid, hlo, hhi]
    rw [hadmits, clampToBounds_of_grid hround hgrid hle]
    by_cases hmid : Grid.midpoint p.min p.max p.step ≤ stdClamp v p.min p.max
    · have hboth := (midpoint_le_stdClamp_iff hgrid hle).mp hmid
      have hbeyond := (Grid.lt_beyond p.min p.max hstep).1
      rw [if_pos hmid, Grid.nearest_eq_beyond hstep le_rfl hboth.2, stdAbs,
        if_pos (sub_neg.mpr hbeyond), neg_sub]
      simp only [MissesGrid, hboth, and_true, forall_true_left, not_lt, sub_le_iff_le_add']
    · rw [if_neg hmid, Grid.nearest_nearest hstep, sub_self, stdAbs, if_neg (lt_irrefl 0)]
      refine iff_of_true (ratio_nonneg _ _) fun _ hmisses => hmid ?_
      exact (midpoint_le_stdClamp_iff hgrid hle).mpr hmisses.2

end TuningParameter

namespace TuningSpace

variable {space : TuningSpace F} {point : List F}

omit [FloorRing F] [IsStrictOrderedRing F] in
theorem all_admits_iff (ps : List (TuningParameter F)) (xs : List F) :
    (List.zipWith TuningParameter.admits ps
        (List.zipWith TuningParameter.clampToBounds ps xs)).all id = true ↔
      ∀ (i : ℕ) (p : TuningParameter F) (v : F), ps[i]? = some p → xs[i]? = some v →
        p.admits (p.clampToBounds v) = true := by
  induction ps generalizing xs with
  | nil => simp
  | cons p ps ih =>
    cases xs with
    | nil => simp
    | cons x xs =>
      simp only [List.zipWith_cons_cons, List.all_cons, id_eq, Bool.and_eq_true, ih]
      constructor
      · rintro ⟨hhead, htail⟩ i q v hq hv
        cases i with
        | zero =>
          obtain rfl := Option.some.inj hq
          obtain rfl := Option.some.inj hv
          exact hhead
        | succ i => exact htail i q v hq hv
      · intro h
        exact ⟨h 0 p x rfl rfl, fun i q v hq hv => h (i + 1) q v hq hv⟩

theorem zipWith_clampToBounds_idem (hround : RoundsHalfUp F) (ps : List (TuningParameter F))
    (hle : ∀ p ∈ ps, p.min ≤ p.max) (xs : List F) :
    List.zipWith TuningParameter.clampToBounds ps
        (List.zipWith TuningParameter.clampToBounds ps xs) =
      List.zipWith TuningParameter.clampToBounds ps xs := by
  induction ps generalizing xs with
  | nil => rfl
  | cons p ps ih =>
    cases xs with
    | nil => rfl
    | cons x xs =>
      rw [List.zipWith_cons_cons, List.zipWith_cons_cons,
        TuningParameter.clampToBounds_idem hround (hle p List.mem_cons_self),
        ih fun q hq => hle q (List.mem_cons_of_mem p hq)]

theorem clampToBounds_idem (hround : RoundsHalfUp F)
    (hle : ∀ p ∈ space.parameters, p.min ≤ p.max) :
    space.clampToBounds (space.clampToBounds point) = space.clampToBounds point := by
  by_cases hlen : point.length = space.dimension
  · have hclamped : space.clampToBounds point =
        List.zipWith TuningParameter.clampToBounds space.parameters point := if_pos hlen
    rw [clampToBounds, if_pos (length_clampToBounds hlen), hclamped]
    exact zipWith_clampToBounds_idem hround space.parameters hle point
  · have hsame : space.clampToBounds point = point := if_neg hlen
    rw [hsame, hsame]

/-- No coordinate misses its grid at the upper bound. -/
def StaysOnGrid (space : TuningSpace F) (point : List F) : Prop :=
  ∀ (i : ℕ) (p : TuningParameter F) (v : F), space.parameters[i]? = some p → point[i]? = some v →
    p.hasGrid = true → ¬p.MissesGrid v

/-- A clamped point is feasible just when no coordinate misses its grid; clamping it again never
changes it. -/
theorem clampToBounds_feasible_iff (hround : RoundsHalfUp F) (hconstraints : space.constraints = [])
    (hle : ∀ p ∈ space.parameters, p.min ≤ p.max) (hlen : point.length = space.dimension) :
    (space.isFeasible (space.clampToBounds point) = true ∧
        space.clampToBounds (space.clampToBounds point) = space.clampToBounds point ↔
      space.StaysOnGrid point) ∧
    space.clampToBounds (space.clampToBounds point) = space.clampToBounds point := by
  have hidem : space.clampToBounds (space.clampToBounds point) = space.clampToBounds point :=
    clampToBounds_idem hround hle
  refine ⟨(and_iff_left hidem).trans ?_, hidem⟩
  have hclamped : space.clampToBounds point =
      List.zipWith TuningParameter.clampToBounds space.parameters point := if_pos hlen
  have hfeasible : space.isFeasible (space.clampToBounds point) = true ↔
      (List.zipWith TuningParameter.admits space.parameters
        (List.zipWith TuningParameter.clampToBounds space.parameters point)).all id = true := by
    have hlength := length_clampToBounds hlen
    rw [hclamped] at hlength ⊢
    simp only [isFeasible, hlength, hconstraints, List.all_nil, decide_true, Bool.true_and,
      Bool.and_true]
  rw [hfeasible, all_admits_iff, StaysOnGrid]
  refine forall₃_congr fun i p v => forall₂_congr fun hp _ => ?_
  exact TuningParameter.admits_clampToBounds_iff hround (hle p (List.mem_of_getElem? hp))

end TuningSpace

/-! ### A grid that does not end at the bound -/

theorem roundsHalfUp_exact : RoundsHalfUp ℚ := fun _ hx => if_neg (not_lt.mpr hx)

/-- Steps of two fifths between zero and one. -/
def fifths : TuningSpace ℚ := ⟨[⟨"ng_threshold", .discrete, 0, 1, 2 / 5⟩], []⟩

/-- Below the last midpoint a value is clamped to the grid. -/
theorem clampToBounds_feasible_iff_fifths :
    fifths.isFeasible (fifths.clampToBounds [9 / 10]) = true := by
  have hstays : fifths.StaysOnGrid [9 / 10] := by
    rintro (_ | i) p v hp hv
    · obtain rfl := Option.some.inj hp
      obtain rfl := Option.some.inj hv
      rintro - ⟨-, hmid, -⟩
      exact absurd hmid (by decide +kernel)
    · cases hp
  have hle : ∀ p ∈ fifths.parameters, p.min ≤ p.max := by decide +kernel
  exact ((TuningSpace.clampToBounds_feasible_iff roundsHalfUp_exact rfl hle rfl).1.mpr hstays).1

/-- The upper bound itself is rounded beyond and moved back, off the grid. -/
theorem clampToBounds_off_grid :
    fifths.clampToBounds [1] = [1] ∧ fifths.isFeasible (fifths.clampToBounds [1]) = false := by
  decide +kernel

end SurfaceAi.Tuning
