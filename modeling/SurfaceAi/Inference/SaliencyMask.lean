import SurfaceAi.Core.Arithmetic
import SurfaceAi.Detection.NormalityProfile
import SurfaceAi.Library.Thresholding
import Mathlib.Algebra.Order.Floor.Semiring
import Mathlib.Data.List.GetD

/-! Binary masks of a saliency map. The Otsu threshold is the lower end of the last bin of the
lower class, and what is not below it counts as foreground: the mask cuts one bin too low. -/

namespace SurfaceAi.Inference

open Thresholding

/-! ### Masks -/

inductive MaskThresholdMethod where
  | percentile | otsu
  deriving DecidableEq, Repr

def nBins : ℕ := 256

section Definitions

variable {F : Type*} [Zero F] [One F] [Add F] [Sub F] [Mul F] [Div F] [Neg F] [NatCast F]
  [LT F] [DecidableLT F] [FloatMath F]

/-- `*std::min_element`. -/
def lowest : List F → F
  | [] => 0
  | x :: xs => xs.foldl stdMin x

/-- `*std::max_element`. -/
def highest : List F → F
  | [] => 0
  | x :: xs => xs.foldl stdMax x

/-- The factor from values to bins. -/
def binScale (data : List F) : F := ((nBins - 1 : ℕ) : F) / (highest data - lowest data)

/-- The bin of a value; the cast truncates, and what is below the lowest value is in bin zero. -/
def binOf (data : List F) (x : F) : ℕ :=
  min (nBins - 1) (FloatMath.toSize ((x - lowest data) * binScale data))

/-- `++hist[bin]` for every value. -/
def histogram (data : List F) : List ℕ :=
  data.foldl (fun hist x => hist.modify (binOf data x) (· + 1)) (List.replicate nBins 0)

/-- What the scan over the splits has: the count and the sum of the lower class, and the best
variance with its threshold. -/
structure OtsuScan (F : Type*) where
  wFg : ℕ
  sumFg : F
  bestVar : F
  bestThresh : F

/-- The split after bin `t`. -/
def OtsuScan.next (data : List F) (hist : List ℕ) (sumAll : F) (s : OtsuScan F) (t : ℕ) :
    OtsuScan F :=
  let total := data.length
  let wFg := s.wFg + hist.getD t 0
  if wFg = 0 ∨ wFg = total then { s with wFg := wFg }
  else
    let sumFg := s.sumFg + (t : F) * ((hist.getD t 0 : ℕ) : F)
    let wBg := total - wFg
    let mFg := sumFg / (wFg : F)
    let mBg := (sumAll - sumFg) / (wBg : F)
    let var := (wFg : F) * (wBg : F) * (mFg - mBg) * (mFg - mBg)
    if s.bestVar < var then ⟨wFg, sumFg, var, lowest data + (t : F) / binScale data⟩
    else { s with wFg := wFg, sumFg := sumFg }

def sumAll (hist : List ℕ) : F :=
  accumulate ((List.range nBins).map fun i : ℕ => (i : F) * ((hist.getD i 0 : ℕ) : F))

def otsuThreshold (data : List F) : F :=
  if data = [] then 0
  else if highest data - lowest data < 1 / (1000000 : ℕ) then highest data
  else ((List.range nBins).foldl (OtsuScan.next data (histogram data) (sumAll (histogram data)))
    ⟨0, 0, -1, 0⟩).bestThresh

/-- The threshold of a method; the quantile of an empty map reads past its end, zero here. -/
def maskThreshold (saliency : List F) (method : MaskThresholdMethod) (percentile : F) : F :=
  match method with
  | .percentile =>
    let total := saliency.length
    let index := FloatMath.toSize (((total - 1 : ℕ) : F) * (1 - percentile))
    (Detection.stdSort saliency).getD (min index (total - 1)) 0
  | .otsu => otsuThreshold saliency

/-- `BinarizeSaliencyMask` of a map of height `h` and width `w`. -/
def binarizeSaliencyMask (saliency : List F) (h w : ℕ) (method : MaskThresholdMethod)
    (percentile : F) : List F :=
  let values := saliency.take (h * w)
  let threshold := maskThreshold values method percentile
  values.map fun x => if x < threshold then 0 else 1

end Definitions

/-! ### Bins -/

section Histogram

variable {F : Type*} [Zero F] [Sub F] [Mul F] [Div F] [NatCast F] [LT F] [DecidableLT F]
  [FloatMath F]

/-- The bins of the values. -/
def levels (data : List F) : List ℕ := data.map (binOf data)

theorem binOf_lt (data : List F) (x : F) : binOf data x < nBins :=
  Nat.lt_of_le_of_lt (Nat.min_le_left _ _) (by decide)

theorem lt_of_mem_levels {data : List F} {b : ℕ} (hb : b ∈ levels data) : b < nBins := by
  obtain ⟨x, -, rfl⟩ := List.mem_map.mp hb
  exact binOf_lt data x

/-- The histogram counts. -/
theorem histogram_getD (data : List F) {t : ℕ} (ht : t < nBins) :
    (histogram data).getD t 0 = (levels data).count t := by
  have hfold : ∀ (xs : List F) (hist : List ℕ), hist.length = nBins →
      (xs.foldl (fun hist x => hist.modify (binOf data x) (· + 1)) hist).getD t 0 =
        hist.getD t 0 + (xs.map (binOf data)).count t := by
    intro xs
    induction xs with
    | nil => simp
    | cons x xs ih =>
      intro hist hlength
      have ht' : t < hist.length := hlength.symm ▸ ht
      rw [List.foldl_cons, ih _ (by rw [List.length_modify, hlength]), List.map_cons,
        List.count_cons, List.getD_eq_getElem _ _ (by rwa [List.length_modify]),
        List.getElem_modify, List.getD_eq_getElem _ _ ht']
      by_cases hbin : binOf data x = t
      · simp [hbin]
        omega
      · simp [hbin]
  have hzero : (List.replicate nBins 0).getD t 0 = 0 := by
    rw [List.getD_eq_getElem _ _ (by rwa [List.length_replicate]), List.getElem_replicate]
  rw [histogram, hfold data _ (List.length_replicate ..), hzero, Nat.zero_add, levels]

end Histogram

/-! ### The range of the values -/

section Range

variable {F : Type*}

/-- A fold that keeps one of two values keeps one that is related to all. -/
theorem foldl_choice {op : F → F → F} {r : F → F → Prop} (hchoice : ∀ a b, op a b = a ∨ op a b = b)
    (hrefl : ∀ a, r a a) (htrans : ∀ a b c, r a b → r b c → r a c) (hleft : ∀ a b, r (op a b) a)
    (hright : ∀ a b, r (op a b) b) (x : F) (xs : List F) :
    xs.foldl op x ∈ x :: xs ∧ ∀ y ∈ x :: xs, r (xs.foldl op x) y := by
  induction xs generalizing x with
  | nil => simpa using hrefl x
  | cons z zs ih =>
    obtain ⟨hmem, hall⟩ := ih (op x z)
    have hfirst := hall (op x z) List.mem_cons_self
    rw [List.foldl_cons]
    constructor
    · rcases List.mem_cons.mp hmem with heq | hmem
      · rcases hchoice x z with h | h
        · rw [heq, h]
          exact List.mem_cons_self
        · rw [heq, h]
          exact List.mem_cons_of_mem _ List.mem_cons_self
      · exact List.mem_cons_of_mem _ (List.mem_cons_of_mem _ hmem)
    · intro y hy
      rcases List.mem_cons.mp hy with rfl | hy
      · exact htrans _ _ _ hfirst (hleft _ _)
      · rcases List.mem_cons.mp hy with rfl | hy
        · exact htrans _ _ _ hfirst (hright _ _)
        · exact hall y (List.mem_cons_of_mem _ hy)

variable [LinearOrder F]

theorem foldl_stdMin_spec (x : F) (xs : List F) :
    xs.foldl stdMin x ∈ x :: xs ∧ ∀ y ∈ x :: xs, xs.foldl stdMin x ≤ y := by
  refine foldl_choice (fun a b => ?_) le_refl (fun _ _ _ => le_trans) (fun a b => ?_)
    (fun a b => ?_) x xs
  all_goals rw [stdMin_eq_min]
  · exact min_choice a b
  · exact min_le_left a b
  · exact min_le_right a b

theorem foldl_stdMax_spec (x : F) (xs : List F) :
    xs.foldl stdMax x ∈ x :: xs ∧ ∀ y ∈ x :: xs, xs.foldl stdMax x ≥ y := by
  refine foldl_choice (r := (· ≥ ·)) (fun a b => ?_) le_refl (fun _ _ _ => ge_trans)
    (fun a b => ?_) (fun a b => ?_) x xs
  all_goals rw [stdMax_eq_max]
  · exact max_choice a b
  · exact le_max_left a b
  · exact le_max_right a b

variable [Zero F] {data : List F}

theorem lowest_mem (hne : data ≠ []) : lowest data ∈ data := by
  obtain ⟨x, xs, rfl⟩ := List.exists_cons_of_ne_nil hne
  exact (foldl_stdMin_spec x xs).1

theorem lowest_le {x : F} (hx : x ∈ data) : lowest data ≤ x := by
  obtain ⟨y, ys, rfl⟩ := List.exists_cons_of_ne_nil (List.ne_nil_of_mem hx)
  exact (foldl_stdMin_spec y ys).2 x hx

theorem highest_mem (hne : data ≠ []) : highest data ∈ data := by
  obtain ⟨x, xs, rfl⟩ := List.exists_cons_of_ne_nil hne
  exact (foldl_stdMax_spec x xs).1

theorem le_highest {x : F} (hx : x ∈ data) : x ≤ highest data := by
  obtain ⟨y, ys, rfl⟩ := List.exists_cons_of_ne_nil (List.ne_nil_of_mem hx)
  exact (foldl_stdMax_spec y ys).2 x hx

end Range

section Exact

variable {F : Type*} [Field F] [LinearOrder F] [IsStrictOrderedRing F] [FloorSemiring F]
  [FloatMath F] {data : List F} {x : F}

omit [FloorSemiring F] [FloatMath F] in
theorem binScale_pos (hspread : lowest data < highest data) : 0 < binScale data :=
  div_pos (Nat.cast_pos.mpr (by decide)) (sub_pos.mpr hspread)

/-- A value of the map is in a bin not below `t` exactly if it reaches the lower end of bin `t`. -/
theorem le_binOf_iff (htrunc : Truncates F) (hspread : lowest data < highest data)
    (hx : x ∈ data) {t : ℕ} :
    t ≤ binOf data x ↔ lowest data + (t : F) / binScale data ≤ x := by
  have hscale := binScale_pos hspread
  have hlow : 0 ≤ (x - lowest data) * binScale data :=
    mul_nonneg (sub_nonneg.mpr (lowest_le hx)) hscale.le
  have hhigh : (x - lowest data) * binScale data ≤ ((nBins - 1 : ℕ) : F) := by
    rw [binScale, mul_div_assoc', div_le_iff₀ (sub_pos.mpr hspread), mul_comm]
    exact mul_le_mul_of_nonneg_left (sub_le_sub_right (le_highest hx) _) (Nat.cast_nonneg _)
  have hclamped : binOf data x = ⌊(x - lowest data) * binScale data⌋₊ := by
    rw [binOf, htrunc _ hlow, Nat.min_eq_right]
    exact Nat.floor_le_of_le hhigh
  rw [hclamped, Nat.le_floor_iff hlow, ← le_sub_iff_add_le', div_le_iff₀ hscale]

end Exact

/-! ### The scan over the splits -/

section Scan

variable {F : Type*} [Field F] [LinearOrder F] [IsStrictOrderedRing F] [FloatMath F]
  {data : List F} {n : ℕ} {s : OtsuScan F}

/-- Both classes of the split after bin `t` have values. -/
def TwoClasses (levels : List ℕ) (t : ℕ) : Prop :=
  0 < (below levels (t + 1)).length ∧ (below levels (t + 1)).length < levels.length

/-- What the scan compares. -/
def splitScore (levels : List ℕ) (t : ℕ) : F :=
  (below levels (t + 1)).length * (above levels (t + 1)).length *
    (mean (below levels (t + 1)) - mean (above levels (t + 1))) *
      (mean (below levels (t + 1)) - mean (above levels (t + 1)))

omit [FloatMath F] in
theorem splitScore_nonneg (levels : List ℕ) (t : ℕ) : (0 : F) ≤ splitScore levels t := by
  rw [splitScore, mul_assoc]
  exact mul_nonneg (mul_nonneg (Nat.cast_nonneg _) (Nat.cast_nonneg _)) (mul_self_nonneg _)

/-- The scan before bin `n`: counts and sums of what is below, and the first of the best splits. -/
structure OtsuScan.Invariant (data : List F) (n : ℕ) (s : OtsuScan F) : Prop where
  wFg : s.wFg = (below (levels data) n).length
  sumFg : (below (levels data) n).length < (levels data).length →
    s.sumFg = ((below (levels data) n).sum : ℕ)
  best : (∀ u < n, ¬TwoClasses (levels data) u) ∧ s.bestVar = -1 ∨
    ∃ t, FirstBest (TwoClasses (levels data)) (splitScore (F := F) (levels data)) n t ∧
      s.bestVar = splitScore (levels data) t ∧
      s.bestThresh = lowest data + (t : F) / binScale data

omit [LinearOrder F] [IsStrictOrderedRing F] in
theorem sumAll_histogram [LinearOrder F] (data : List F) :
    (sumAll (histogram data) : F) = ((levels data).sum : ℕ) := by
  have hpartial : ∀ n ≤ nBins, accumulate ((List.range n).map fun i : ℕ =>
      (i : F) * (((histogram data).getD i 0 : ℕ) : F)) = ((below (levels data) n).sum : ℕ) := by
    intro n hn
    induction n with
    | zero => simp [accumulate]
    | succ n ih =>
      rw [List.range_succ, List.map_append, accumulate, List.foldl_append, ← accumulate,
        ih (Nat.le_of_succ_le hn), sum_below_succ, List.map_singleton, List.foldl_cons,
        List.foldl_nil, histogram_getD data hn]
      push_cast
      rfl
  rw [sumAll, hpartial nBins le_rfl, below_eq_self _ fun x hx => lt_of_mem_levels hx]

theorem OtsuScan.Invariant.next (h : s.Invariant data n) (hn : n < nBins) :
    (s.next data (histogram data) (sumAll (histogram data)) n).Invariant data (n + 1) := by
  have hcount : s.wFg + (histogram data).getD n 0 = (below (levels data) (n + 1)).length := by
    rw [h.wFg, histogram_getD data hn, length_below_succ]
  have htotal : data.length = (levels data).length := (List.length_map _).symm
  have hle := length_below_le (levels data) (n + 1)
  have hgrow : (below (levels data) n).length ≤ (below (levels data) (n + 1)).length := by
    rw [length_below_succ]
    exact Nat.le_add_right _ _
  have habove : (levels data).length - (below (levels data) (n + 1)).length =
      (above (levels data) (n + 1)).length := (length_above ..).symm
  unfold OtsuScan.next
  dsimp only
  rw [hcount, htotal, habove]
  by_cases hclasses : TwoClasses (levels data) n
  · have hsum : s.sumFg + (n : F) * (((histogram data).getD n 0 : ℕ) : F) =
        ((below (levels data) (n + 1)).sum : ℕ) := by
      rw [h.sumFg (hgrow.trans_lt hclasses.2), histogram_getD data hn, sum_below_succ]
      push_cast
      rfl
    have hrest : (sumAll (histogram data) : F) - ((below (levels data) (n + 1)).sum : ℕ) =
        ((above (levels data) (n + 1)).sum : ℕ) := by
      rw [sumAll_histogram, ← sum_below_add_above (levels data) (n + 1)]
      push_cast
      ring
    rw [if_neg (not_or.mpr ⟨hclasses.1.ne', hclasses.2.ne⟩), hsum, hrest]
    change OtsuScan.Invariant data (n + 1) (if s.bestVar < splitScore (levels data) n then
      ⟨_, _, splitScore (levels data) n, _⟩ else _)
    split_ifs with hbetter
    · refine ⟨rfl, fun _ => rfl, .inr ⟨n, ?_, rfl, rfl⟩⟩
      rcases h.best with ⟨hnone, -⟩ | ⟨t, hfirst, hvar, -⟩
      · exact .of_first hnone hclasses
      · exact hfirst.replace hclasses (hvar ▸ hbetter)
    · refine ⟨rfl, fun _ => rfl, ?_⟩
      rcases h.best with ⟨-, hvar⟩ | ⟨t, hfirst, hvar, hthresh⟩
      · -- the first split that has two classes is better than none
        rw [hvar] at hbetter
        exact absurd (neg_one_lt_zero.trans_le (splitScore_nonneg ..)) hbetter
      · exact .inr ⟨t, hfirst.keep (hvar ▸ not_lt.mp hbetter), hvar, hthresh⟩
  · have hempty : (below (levels data) (n + 1)).length = 0 ∨
        (below (levels data) (n + 1)).length = (levels data).length := by
      by_contra hboth
      exact hclasses ⟨by omega, by omega⟩
    rw [if_pos hempty]
    refine ⟨rfl, fun hlt => ?_, ?_⟩
    · -- nothing has been counted yet
      have hnone : (below (levels data) (n + 1)).length = 0 := hempty.resolve_right hlt.ne
      have hbefore : (below (levels data) n).length = 0 := by omega
      have hsum := h.sumFg (hgrow.trans_lt hlt)
      rw [List.length_eq_zero_iff.mp hbefore] at hsum
      rw [List.length_eq_zero_iff.mp hnone]
      exact hsum
    · rcases h.best with ⟨hnone, hvar⟩ | ⟨t, hfirst, hvar, hthresh⟩
      · refine .inl ⟨fun u hu => ?_, hvar⟩
        rcases Nat.lt_succ_iff_lt_or_eq.mp hu with hlt | rfl
        · exact hnone u hlt
        · exact hclasses
      · exact .inr ⟨t, hfirst.skip hclasses, hvar, hthresh⟩

theorem otsuScan_invariant (data : List F) {n : ℕ} (hn : n ≤ nBins) :
    ((List.range n).foldl (OtsuScan.next data (histogram data) (sumAll (histogram data)))
      ⟨0, 0, -1, 0⟩).Invariant data n := by
  induction n with
  | zero => exact ⟨by simp, fun _ => by simp, .inl ⟨by simp, rfl⟩⟩
  | succ n ih =>
    rw [List.range_succ, List.foldl_append]
    exact (ih (Nat.le_of_succ_le hn)).next hn

end Scan

/-! ### The mask -/

section Mask

variable {F : Type*} [Field F] [LinearOrder F]

/-- The bins of the values whose entry in the mask is `v`. -/
def classBins (bins : List ℕ) (mask : List F) (v : F) : List ℕ :=
  ((bins.zip mask).filter fun p => p.2 = v).map Prod.fst

/-- The mask has values of both kinds, and no split after a bin has a larger variance between its
classes. -/
structure OptimalSplit (bins : List ℕ) (mask : List F) : Prop where
  background : classBins bins mask 0 ≠ []
  foreground : classBins bins mask 1 ≠ []
  optimal : ∀ t, bins.filter (· ≤ t) ≠ [] → bins.filter (t < ·) ≠ [] →
    (betweenVariance (bins.filter (· ≤ t)) (bins.filter (t < ·)) : F) ≤
      betweenVariance (classBins bins mask 0) (classBins bins mask 1)

omit [Field F] in
theorem classBins_map {α : Type*} (xs : List α) (b : α → ℕ) (f : α → F) (v : F) {P : ℕ → Bool}
    (h : ∀ x ∈ xs, f x = v ↔ P (b x)) : classBins (xs.map b) (xs.map f) v = (xs.map b).filter P := by
  induction xs with
  | nil => rfl
  | cons x xs ih =>
    have hrest := ih fun y hy => h y (List.mem_cons_of_mem x hy)
    rw [classBins] at hrest ⊢
    simp only [List.map_cons, List.zip_cons_cons, List.filter_cons, ← hrest]
    by_cases hx : f x = v
    · simp [hx, (h x List.mem_cons_self).mp hx]
    · have hP : P (b x) = false := by
        simpa using fun hP => hx ((h x List.mem_cons_self).mpr hP)
      simp [hx, hP]

variable [IsStrictOrderedRing F] [FloorSemiring F] [FloatMath F] {saliency : List F} {h w : ℕ}

omit [FloatMath F] in
/-- The map is not empty, and its values are not all the same. -/
theorem spread_pos (hspread : (1 : F) / (1000000 : ℕ) ≤ highest saliency - lowest saliency) :
    saliency ≠ [] ∧ lowest saliency < highest saliency := by
  have hpos : (0 : F) < highest saliency - lowest saliency :=
    (div_pos one_pos (Nat.cast_pos.mpr (by decide))).trans_le hspread
  refine ⟨?_, sub_pos.mp hpos⟩
  rintro rfl
  exact absurd hpos (by simp [highest, lowest])

/-- The threshold is the lower end of the bin after which the first of the best splits is. -/
theorem otsuThreshold_spec (htrunc : Truncates F)
    (hspread : (1 : F) / (1000000 : ℕ) ≤ highest saliency - lowest saliency) :
    ∃ t, FirstBest (TwoClasses (levels saliency)) (splitScore (F := F) (levels saliency)) nBins t ∧
      otsuThreshold saliency = lowest saliency + (t : F) / binScale saliency := by
  obtain ⟨hne, hlt⟩ := spread_pos hspread
  rw [otsuThreshold, if_neg hne, if_neg (not_lt.mpr hspread)]
  rcases (otsuScan_invariant saliency (n := nBins) le_rfl).best with
    ⟨hnone, -⟩ | ⟨t, hfirst, -, hthresh⟩
  · -- the lowest value is in bin zero and the highest is not
    have hlow : binOf saliency (lowest saliency) < 1 := by
      rw [← not_le, le_binOf_iff htrunc hlt (lowest_mem hne), not_le]
      exact lt_add_of_pos_right _ (div_pos (by simp) (binScale_pos hlt))
    have hhigh : 1 ≤ binOf saliency (highest saliency) := by
      have hlast : nBins - 1 ≤ binOf saliency (highest saliency) := by
        rw [le_binOf_iff htrunc hlt (highest_mem hne), binScale, div_div_cancel₀ (by simp [nBins])]
        exact (add_sub_cancel _ _).le
      exact le_trans (by decide) hlast
    have hbelow : 0 < (below (levels saliency) 1).length :=
      List.length_pos_of_mem (List.mem_filter.mpr
        ⟨List.mem_map_of_mem (lowest_mem hne), decide_eq_true hlow⟩)
    have habove : 0 < (above (levels saliency) 1).length :=
      List.length_pos_of_mem (List.mem_filter.mpr
        ⟨List.mem_map_of_mem (highest_mem hne), decide_eq_true hhigh⟩)
    rw [length_above] at habove
    have hless : (below (levels saliency) 1).length < (levels saliency).length := by omega
    exact absurd ⟨hbelow, hless⟩ (hnone 0 (by decide))
  · exact ⟨t, hfirst, hthresh⟩

/-- What is not below the threshold is in the bin of the threshold or above. -/
theorem binarize_otsu_classes (htrunc : Truncates F) (hlength : saliency.length = h * w)
    (hlt : lowest saliency < highest saliency) {t : ℕ}
    (hthresh : otsuThreshold saliency = lowest saliency + (t : F) / binScale saliency)
    (percentile : F) :
    classBins (levels saliency) (binarizeSaliencyMask saliency h w .otsu percentile) 0 =
        below (levels saliency) t ∧
      classBins (levels saliency) (binarizeSaliencyMask saliency h w .otsu percentile) 1 =
        above (levels saliency) t := by
  have hmask : binarizeSaliencyMask saliency h w .otsu percentile = saliency.map fun x =>
      if x < lowest saliency + (t : F) / binScale saliency then 0 else 1 := by
    rw [binarizeSaliencyMask, List.take_of_length_le hlength.le]
    change saliency.map (fun x => if x < otsuThreshold saliency then 0 else 1) = _
    rw [hthresh]
  rw [hmask, levels]
  have hside : ∀ x ∈ saliency, x < lowest saliency + (t : F) / binScale saliency ↔
      binOf saliency x < t := by
    intro x hx
    rw [← not_le, ← le_binOf_iff htrunc hlt hx, not_le]
  constructor
  · refine classBins_map saliency _ _ 0 fun x hx => ?_
    rw [decide_eq_true_iff, ← hside x hx]
    by_cases hbelow : x < lowest saliency + (t : F) / binScale saliency <;> simp [hbelow]
  · refine classBins_map saliency _ _ 1 fun x hx => ?_
    rw [decide_eq_true_iff, ← not_lt, ← hside x hx]
    by_cases hbelow : x < lowest saliency + (t : F) / binScale saliency <;> simp [hbelow]

/-- On no map with two distinct values is the mask the optimal split: the bin of the threshold is on
the wrong side. -/
theorem otsu_mask_never_optimal (htrunc : Truncates F) (hlength : saliency.length = h * w)
    (hspread : (1 : F) / (1000000 : ℕ) ≤ highest saliency - lowest saliency) (percentile : F) :
    ¬OptimalSplit (levels saliency) (binarizeSaliencyMask saliency h w .otsu percentile) := by
  obtain ⟨t, hfirst, hthresh⟩ := otsuThreshold_spec htrunc hspread
  obtain ⟨hbackground, hforeground⟩ :=
    binarize_otsu_classes htrunc hlength (spread_pos hspread).2 hthresh percentile
  intro hoptimal
  have hsome := hoptimal.background
  have hbest := hoptimal.optimal t
  rw [hbackground] at hsome hbest
  rw [hforeground] at hbest
  have hlow : (levels saliency).filter (· ≤ t) = below (levels saliency) (t + 1) :=
    List.filter_congr fun x _ => decide_eq_decide.mpr Nat.lt_succ_iff.symm
  have hhigh : (levels saliency).filter (t < ·) = above (levels saliency) (t + 1) :=
    List.filter_congr fun x _ => decide_eq_decide.mpr Nat.succ_le_iff.symm
  rw [hlow, hhigh] at hbest
  obtain ⟨hpos, hless⟩ := hfirst.candidate
  have hsplit : ∀ c, (below (levels saliency) c).length + (above (levels saliency) c).length =
      (levels saliency).length := by
    intro c
    rw [← List.length_append, (below_append_above_perm (levels saliency) c).length_eq]
  cases t with
  | zero => exact hsome (below_zero _)
  | succ u =>
    have hgrow := length_below_succ (levels saliency) (u + 1)
    have hclasses : TwoClasses (levels saliency) u :=
      ⟨List.length_pos_iff.mpr hsome, by omega⟩
    have hworse := hfirst.first u (Nat.lt_succ_self u) hclasses
    have hvariance := (betweenVariance_lt_iff (F := F) (by omega) (hsplit (u + 1))
      (hsplit (u + 1 + 1))).mpr hworse
    have hrest := hsplit (u + 1 + 1)
    exact absurd (hbest (List.length_pos_iff.mp hpos) (List.length_pos_iff.mp (by omega)))
      (not_le.mpr hvariance)

end Mask

/-- Three values: the middle one is in the bin of the threshold. -/
def threeValues : List ℚ := [0, 1 / 2, 1]

theorem otsu_mask_never_optimal_three :
    ¬OptimalSplit (levels threeValues) (binarizeSaliencyMask threeValues 1 3 .otsu 0) :=
  otsu_mask_never_optimal truncates_exactMath rfl (by decide +kernel) 0

/-- Of two values both are foreground, and of three values the middle one is on the wrong side. -/
theorem otsu_mask_not_optimal :
    binarizeSaliencyMask [(0 : ℚ), 1] 1 2 .otsu 0 = [1, 1] ∧
      ¬OptimalSplit (levels [(0 : ℚ), 1]) (binarizeSaliencyMask [(0 : ℚ), 1] 1 2 .otsu 0) ∧
      binarizeSaliencyMask threeValues 1 3 .otsu 0 = [0, 1, 1] ∧
      levels threeValues = [0, 127, 255] ∧
      (betweenVariance [0] [127, 255] : ℚ) < betweenVariance [0, 127] [255] :=
  ⟨by decide +kernel, fun h => h.background (by decide +kernel), by decide +kernel,
    by decide +kernel, by decide +kernel⟩

end SurfaceAi.Inference
