import SurfaceAi.Core.RealMath
import SurfaceAi.Detection.CoresetEvolution
import SurfaceAi.Library.Averages
import Mathlib.Algebra.Order.BigOperators.Group.List
import Mathlib.Data.List.Induction

/-! The drift check over its window of five displacements. Three of five values cannot all exceed
their mean by two deviations, so the check never reports a drift. -/

namespace SurfaceAi.Detection.CoresetEvolution

/-- The history after one more displacement. -/
def driftWindow {F : Type*} (history : List F) (displacement : F) : List F :=
  let extended := history ++ [displacement]
  if 5 < extended.length then extended.drop 1 else extended

/-- The branch of `CheckDrift` that reports a drift. -/
def ReportsDrift {F : Type*} [Zero F] [Add F] [Sub F] [Mul F] [Div F] [NatCast F] [LT F]
    [DecidableLT F] [FloatMath F] (s : CoresetEvolution F) (displacement : F) : Prop :=
  3 ≤ (driftWindow s.displacementHistory displacement).length ∧
    driftDetected (driftWindow s.displacementHistory displacement) = true

/-- Without a report only the window changes. -/
theorem checkDrift_of_not_reportsDrift {F : Type*} [Zero F] [Add F] [Sub F] [Mul F] [Div F]
    [NatCast F] [LT F] [DecidableLT F] [FloatMath F] {s : CoresetEvolution F} {displacement : F}
    (h : ¬s.ReportsDrift displacement) :
    s.checkDrift displacement =
      { s with displacementHistory := driftWindow s.displacementHistory displacement } := by
  unfold checkDrift
  dsimp only
  change (if (driftWindow s.displacementHistory displacement).length < 3 then _
    else if driftDetected (driftWindow s.displacementHistory displacement) = true then _
    else _) = _
  by_cases hshort : (driftWindow s.displacementHistory displacement).length < 3
  · rw [if_pos hshort]
    rfl
  · rw [if_neg hshort, if_neg fun hdrift => h ⟨not_lt.mp hshort, hdrift⟩]
    rfl

theorem length_driftWindow_le {F : Type*} {history : List F} (h : history.length ≤ 5)
    (displacement : F) : (driftWindow history displacement).length ≤ 5 := by
  unfold driftWindow
  dsimp only
  split_ifs with hlt
  · rw [List.length_drop, List.length_append, List.length_singleton]
    omega
  · omega

/-- The window holds the last five displacements. -/
theorem driftWindow_drop {F : Type*} (displacements : List F) (displacement : F) :
    driftWindow (displacements.drop (displacements.length - 5)) displacement =
      (displacements ++ [displacement]).drop ((displacements ++ [displacement]).length - 5) := by
  have hlength : (displacements.drop (displacements.length - 5)).length =
      displacements.length - (displacements.length - 5) := List.length_drop
  unfold driftWindow
  dsimp only
  rw [List.length_append, List.length_append, List.length_singleton]
  by_cases h : 5 ≤ displacements.length
  · rw [if_pos (by omega),
      List.drop_append_of_le_length (show 1 ≤ (displacements.drop _).length by omega),
      List.drop_append_of_le_length (show _ ≤ displacements.length by omega), List.drop_drop]
    congr 2
    omega
  · rw [if_neg (by omega), show displacements.length - 5 = 0 by omega, List.drop_zero,
      show displacements.length + 1 - 5 = 0 by omega, List.drop_zero]

/-- A window of three to five values is never a drift. -/
theorem driftDetected_eq_false {history : List ℝ} (hmin : 3 ≤ history.length)
    (hmax : history.length ≤ 5) : driftDetected history = false := by
  by_contra hdrift
  rw [Bool.not_eq_false, driftDetected] at hdrift
  simp only [accumulate_eq_sum, decide_eq_true_eq] at hdrift
  obtain ⟨hpos, hlast⟩ := hdrift
  generalize hmean : history.sum / (history.length : ℝ) = mean at hpos hlast
  have hcount : (0 : ℝ) < history.length := by
    exact_mod_cast (show 0 < history.length by omega)
  have hsum : 0 ≤ (history.map fun d => (d - mean) * (d - mean)).sum := by
    refine List.sum_nonneg fun x hx => ?_
    obtain ⟨d, -, rfl⟩ := List.mem_map.mp hx
    exact mul_self_nonneg _
  have hroot := Real.mul_self_sqrt (div_nonneg hsum hcount.le)
  change 0 < Real.sqrt _ at hpos
  change ((history.drop (history.length - 3)).all fun d =>
    decide (mean + (2 : ℕ) * Real.sqrt _ < d)) = true at hlast
  generalize Real.sqrt ((history.map fun d => (d - mean) * (d - mean)).sum /
    (history.length : ℝ)) = deviation at hroot hpos hlast
  have hvariance : (history.map fun d => (d - mean) * (d - mean)).sum =
      history.length * (deviation * deviation) := by
    rw [hroot, mul_div_cancel₀ _ hcount.ne']
  have hbeyond := Deviation.mul_countP_le (c := ((2 : ℕ) : ℝ)) (Nat.cast_nonneg 2) hpos hvariance
  -- the last three count, and four times three is more than five
  have hthree : 3 ≤ history.countP fun d => decide (mean + (2 : ℕ) * deviation < d) := by
    calc 3 = (history.drop (history.length - 3)).length := by rw [List.length_drop]; omega
      _ = (history.drop (history.length - 3)).countP
            fun d => decide (mean + (2 : ℕ) * deviation < d) :=
          (List.countP_eq_length.mpr (List.all_eq_true.mp hlast)).symm
      _ ≤ history.countP fun d => decide (mean + (2 : ℕ) * deviation < d) :=
          (List.drop_sublist _ _).countP_le
  have hfour : 2 * 2 * (history.countP fun d => decide (mean + (2 : ℕ) * deviation < d)) ≤
      history.length := by
    exact_mod_cast hbeyond
  omega

variable {s : CoresetEvolution ℝ}

theorem not_reportsDrift (h : s.displacementHistory.length ≤ 5) (displacement : ℝ) :
    ¬s.ReportsDrift displacement := by
  rintro ⟨hmin, hdrift⟩
  rw [driftDetected_eq_false hmin (length_driftWindow_le h displacement)] at hdrift
  cases hdrift

/-- The check moves the window on and does nothing else. -/
theorem checkDrift_eq (h : s.displacementHistory.length ≤ 5) (displacement : ℝ) :
    s.checkDrift displacement =
      { s with displacementHistory := driftWindow s.displacementHistory displacement } :=
  checkDrift_of_not_reportsDrift (not_reportsDrift h displacement)

/-- `CheckDrift` with one displacement after another. -/
noncomputable def checkDrifts (s : CoresetEvolution ℝ) (displacements : List ℝ) :
    CoresetEvolution ℝ :=
  displacements.foldl (fun s displacement => s.checkDrift displacement) s

/-- No sequence of displacements is ever reported as a drift, so that the checks leave the
saturation counters and the standby bank as they were. -/
theorem drift_never_reported (hempty : s.displacementHistory = []) (displacements : List ℝ) :
    (∀ displacement, ¬(s.checkDrifts displacements).ReportsDrift displacement) ∧
      s.checkDrifts displacements =
        { s with displacementHistory := displacements.drop (displacements.length - 5) } := by
  have hrun : s.checkDrifts displacements =
      { s with displacementHistory := displacements.drop (displacements.length - 5) } := by
    induction displacements using List.reverseRecOn with
    | nil => rw [checkDrifts, List.foldl_nil, List.drop_nil, ← hempty]
    | append_singleton displacements displacement ih =>
      rw [checkDrifts, List.foldl_append, List.foldl_cons, List.foldl_nil, ← checkDrifts, ih,
        checkDrift_eq (by rw [List.length_drop]; omega)]
      dsimp only
      rw [driftWindow_drop]
  refine ⟨fun displacement => not_reportsDrift ?_ displacement, hrun⟩
  rw [hrun]
  dsimp only
  rw [List.length_drop]
  omega

/-- Displacements that jump and stay up, with a bank that is paused and would be rebuilt. -/
theorem drift_never_reported_jump :
    let s : CoresetEvolution ℝ :=
      { create (⟨true, 5, 1, 1, {}, 10, 10, true, 1, 10, true, true, 1, 100⟩ : EvolutionConfig ℝ) none
          .default with
        consecutiveSaturationCount := 12
        evolutionPaused := true }
    s.checkDrifts [0, 0, 0, 9, 9, 9] = { s with displacementHistory := [0, 0, 9, 9, 9] } := by
  intro s
  exact (drift_never_reported (s := s) rfl [0, 0, 0, 9, 9, 9]).2

end SurfaceAi.Detection.CoresetEvolution
