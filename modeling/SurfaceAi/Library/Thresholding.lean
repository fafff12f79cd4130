import Mathlib.Algebra.BigOperators.Group.List.Basic
import Mathlib.Algebra.Order.Field.Basic
import Mathlib.Tactic.FieldSimp
import Mathlib.Tactic.Linarith

/-! Splits of a list of levels into those below a cut and those from it on, with the variance
between the two classes, and a scan that keeps the first of the best candidates. -/

namespace Thresholding

/-! ### Cuts -/

section Cuts

variable (levels : List ℕ)

/-- The levels below a cut. -/
def below (c : ℕ) : List ℕ := levels.filter (· < c)

/-- The levels from a cut on. -/
def above (c : ℕ) : List ℕ := levels.filter (c ≤ ·)

@[simp] theorem below_zero : below levels 0 = [] := by simp [below]

theorem below_cons (x c : ℕ) :
    below (x :: levels) c = if x < c then x :: below levels c else below levels c := by
  rw [below, List.filter_cons]
  simp only [decide_eq_true_eq]
  rfl

theorem count_cons_ite (x c : ℕ) :
    (x :: levels).count c = levels.count c + if x = c then 1 else 0 := by
  rw [List.count_cons]
  simp only [beq_iff_eq]

theorem length_below_succ (c : ℕ) :
    (below levels (c + 1)).length = (below levels c).length + levels.count c := by
  induction levels with
  | nil => rfl
  | cons x xs ih =>
    rw [below_cons, below_cons, count_cons_ite]
    split_ifs <;> simp only [List.length_cons, ih] <;> omega

theorem sum_below_succ (c : ℕ) :
    (below levels (c + 1)).sum = (below levels c).sum + c * levels.count c := by
  induction levels with
  | nil => rfl
  | cons x xs ih =>
    rw [below_cons, below_cons, count_cons_ite]
    split_ifs <;> simp only [List.sum_cons, ih, Nat.mul_add, Nat.mul_one, Nat.mul_zero] <;> omega

theorem below_append_above_perm (c : ℕ) : (below levels c ++ above levels c).Perm levels := by
  have hnot : above levels c = levels.filter (fun x => !decide (x < c)) := by
    refine List.filter_congr fun x _ => ?_
    simp only [← decide_not, not_lt]
  rw [hnot]
  exact List.filter_append_perm _ levels

theorem length_above (c : ℕ) :
    (above levels c).length = levels.length - (below levels c).length := by
  have h := (below_append_above_perm levels c).length_eq
  rw [List.length_append] at h
  omega

theorem sum_below_add_above (c : ℕ) :
    (below levels c).sum + (above levels c).sum = levels.sum := by
  rw [← List.sum_append, (below_append_above_perm levels c).sum_eq]

theorem length_below_le (c : ℕ) : (below levels c).length ≤ levels.length :=
  List.length_filter_le ..

theorem below_eq_self {n : ℕ} (h : ∀ x ∈ levels, x < n) : below levels n = levels :=
  List.filter_eq_self.mpr fun x hx => by simpa using h x hx

end Cuts

/-! ### The variance between classes -/

section Variance

variable {F : Type*} [Field F]

def mean (xs : List ℕ) : F := (xs.sum : F) / xs.length

/-- The variance between two classes: their weights times the square of the distance of their
means. -/
def betweenVariance (xs ys : List ℕ) : F :=
  (xs.length : F) / (xs.length + ys.length : ℕ) * ((ys.length : F) / (xs.length + ys.length : ℕ)) *
    (mean xs - mean ys) ^ 2

variable [LinearOrder F] [IsStrictOrderedRing F]

/-- Classes of the same list are compared by counts as by weights. -/
theorem betweenVariance_lt_iff {xs ys us vs : List ℕ} {n : ℕ} (hn : 0 < n)
    (hx : xs.length + ys.length = n) (hu : us.length + vs.length = n) :
    (betweenVariance xs ys : F) < betweenVariance us vs ↔
      (xs.length : F) * ys.length * (mean xs - mean ys) * (mean xs - mean ys) <
        us.length * vs.length * (mean us - mean vs) * (mean us - mean vs) := by
  have hpos : (0 : F) < n := Nat.cast_pos.mpr hn
  have hscale : ∀ ps qs : List ℕ, ps.length + qs.length = n →
      (betweenVariance ps qs : F) =
        (ps.length : F) * qs.length * (mean ps - mean qs) * (mean ps - mean qs) / (n * n) := by
    intro ps qs hlength
    rw [betweenVariance, hlength]
    field_simp
  rw [hscale xs ys hx, hscale us vs hu, div_lt_div_iff_of_pos_right (mul_pos hpos hpos)]

end Variance

/-! ### The first of the best -/

section FirstBest

variable {α : Type*} [LinearOrder α]

/-- Among the candidates below `n`, the first that none exceeds. -/
structure FirstBest (valid : ℕ → Prop) (score : ℕ → α) (n t : ℕ) : Prop where
  lt : t < n
  candidate : valid t
  best : ∀ u < n, valid u → score u ≤ score t
  first : ∀ u < t, valid u → score u < score t

variable {valid : ℕ → Prop} {score : ℕ → α} {n t : ℕ}

theorem FirstBest.of_first (hnone : ∀ u < n, ¬valid u) (hn : valid n) :
    FirstBest valid score (n + 1) n where
  lt := Nat.lt_succ_self n
  candidate := hn
  best u hu hvalid := by
    rcases Nat.lt_succ_iff_lt_or_eq.mp hu with hlt | rfl
    · exact absurd hvalid (hnone u hlt)
    · exact le_rfl
  first u hu hvalid := absurd hvalid (hnone u hu)

theorem FirstBest.skip (h : FirstBest valid score n t) (hn : ¬valid n) :
    FirstBest valid score (n + 1) t where
  lt := Nat.lt_succ_of_lt h.lt
  candidate := h.candidate
  best u hu hvalid := by
    rcases Nat.lt_succ_iff_lt_or_eq.mp hu with hlt | rfl
    · exact h.best u hlt hvalid
    · exact absurd hvalid hn
  first := h.first

theorem FirstBest.keep (h : FirstBest valid score n t) (hle : score n ≤ score t) :
    FirstBest valid score (n + 1) t where
  lt := Nat.lt_succ_of_lt h.lt
  candidate := h.candidate
  best u hu hvalid := by
    rcases Nat.lt_succ_iff_lt_or_eq.mp hu with hlt | rfl
    · exact h.best u hlt hvalid
    · exact hle
  first := h.first

theorem FirstBest.replace (h : FirstBest valid score n t) (hn : valid n)
    (hlt : score t < score n) : FirstBest valid score (n + 1) n where
  lt := Nat.lt_succ_self n
  candidate := hn
  best u hu hvalid := by
    rcases Nat.lt_succ_iff_lt_or_eq.mp hu with hbefore | rfl
    · exact ((h.best u hbefore hvalid).trans_lt hlt).le
    · exact le_rfl
  first u hu hvalid := (h.best u hu hvalid).trans_lt hlt

end FirstBest

end Thresholding
