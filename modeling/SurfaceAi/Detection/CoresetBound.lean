import SurfaceAi.Detection.Coreset
import SurfaceAi.Library.KCenter
import Mathlib.Algebra.Field.Rat
import Mathlib.Algebra.Order.Ring.Rat
import Mathlib.Tactic.Linarith

/-! How well a greedy coreset covers the vectors it is chosen from. Squared distances take the
place of distances, so twice a radius is four times its square. -/

namespace SurfaceAi.Detection

open FarthestPoint

variable {F : Type*}

section Distances

variable [Ring F] [LinearOrder F] [IsStrictOrderedRing F]

omit [LinearOrder F] [IsStrictOrderedRing F] in
theorem squaredDistance_self (x : List F) : squaredDistance x x = 0 := by
  induction x with
  | nil => rfl
  | cons a x ih => rw [squaredDistance_cons, ih, sub_self, mul_zero, add_zero]

end Distances

section Coverage

variable [CommRing F] [LinearOrder F] [IsStrictOrderedRing F]

/-- The triangle inequality for squares: both legs count twice. -/
theorem squaredDistance_le {x y c : List F} (hx : x.length = c.length) (hy : y.length = c.length) :
    squaredDistance y x ≤ 2 * squaredDistance x c + 2 * squaredDistance y c := by
  induction c generalizing x y with
  | nil =>
    rw [List.length_eq_zero_iff.mp hx, List.length_eq_zero_iff.mp hy, squaredDistance_self]
    simp
  | cons d c ih =>
    cases x with
    | nil => simp at hx
    | cons a x =>
      cases y with
      | nil => simp at hy
      | cons b y =>
        have hrest := ih (by simpa using hx) (by simpa using hy)
        have hhead : (b - a) * (b - a) ≤ 2 * ((a - d) * (a - d)) + 2 * ((b - d) * (b - d)) := by
          have hsquare := mul_self_nonneg ((a - d) + (b - d))
          linarith
        rw [squaredDistance_cons, squaredDistance_cons, squaredDistance_cons]
        linarith

/-- Every point is within the radius of a centre. The covering radius is the least such. -/
def CoversWithin (points centres : List (List F)) (radius : F) : Prop :=
  ∀ x ∈ points, ∃ c ∈ centres, squaredDistance x c ≤ radius * radius

/-- The loop of `BuildWithGreedyCoreset` after some rounds beyond the first vector. -/
def selectionAfter {dim : ℕ} (g : Gathered F dim) (rounds : ℕ) : Selection F :=
  (FarthestPoint.round squaredDistance g.rows)^[rounds] (start squaredDistance g.rows)

/-- Every entry of `min_dist` is the squared distance to the nearest chosen vector. -/
def MinDistExact {dim : ℕ} (g : Gathered F dim) (s : Selection F) : Prop :=
  s.gaps.length = g.rows.length ∧ ∀ (i : ℕ) (x : List F) (gap : F),
    g.rows[i]? = some x → s.gaps[i]? = some gap →
      IsNearest squaredDistance (chosenPoints g.rows s) x gap

variable {dim : ℕ} {g : Gathered F dim}

omit [IsStrictOrderedRing F] in
theorem vectors_greedyCoreset {count : ℕ} (hcount : 0 < count) :
    (FeatureBank.greedyCoreset g count).vectors =
      chosenPoints g.rows (selectionAfter g (count - 1)) := by
  have hlength := length_select_le squaredDistance g.rows hcount
  exact List.take_of_length_le hlength

omit [IsStrictOrderedRing F] in
theorem buildWithGreedyCoreset_eq {embeddings : List (PatchEmbedding F)} {maxSamples : ℕ}
    (hg : gather "BuildWithGreedyCoreset" dim embeddings = .ok g) (hpos : 0 < g.total) :
    FeatureBank.buildWithGreedyCoreset embeddings dim maxSamples =
      .ok (FeatureBank.greedyCoreset g (min maxSamples g.total)) := by
  rw [FeatureBank.buildWithGreedyCoreset, hg]
  exact if_neg hpos.ne'

omit [CommRing F] [LinearOrder F] [IsStrictOrderedRing F] in
theorem rows_ne_nil (hpos : 0 < g.total) : g.rows ≠ [] := by
  rw [← List.length_pos_iff, Gathered.rows, Rows.length_rows]
  exact hpos

theorem separates_rows (g : Gathered F dim) : Separates (squaredDistance (F := F)) g.rows := by
  intro x hx y hy
  exact eq_of_squaredDistance_eq_zero
    ((Gathered.length_of_mem_rows hx).trans (Gathered.length_of_mem_rows hy).symm)

/-- What is within the radius of as many centres is within twice the radius of the selection. -/
theorem coversWithin_selection (hpos : 0 < g.total) {count : ℕ} (hcount : 0 < count)
    {centres : List (List F)} (hcentres : ∀ c ∈ centres, c ∈ g.rows)
    (hlength : centres.length ≤ count) {radius : F}
    (hcovers : CoversWithin g.rows centres radius) :
    CoversWithin g.rows (chosenPoints g.rows (selectionAfter g (count - 1))) (2 * radius) := by
  obtain ⟨hnear, hchosen⟩ := nearest_rounds squaredDistance_nonneg squaredDistance_self
    (rows_ne_nil hpos) (count - 1)
  have hlengths : ∀ x ∈ g.rows, ∀ y ∈ g.rows, x.length = y.length := fun x hx y hy =>
    (Gathered.length_of_mem_rows hx).trans (Gathered.length_of_mem_rows hy).symm
  have hbound : ∀ x ∈ g.rows, ∀ y ∈ g.rows, ∀ c ∈ centres,
      squaredDistance x c ≤ radius * radius → squaredDistance y c ≤ radius * radius →
        squaredDistance y x ≤ 2 * radius * (2 * radius) := by
    intro x hx y hy c hc hxc hyc
    have hle := squaredDistance_le (hlengths x hx c (hcentres c hc))
      (hlengths y hy c (hcentres c hc))
    linarith
  have hgap := hnear.gap_le squaredDistance_nonneg (rows_ne_nil hpos)
    (hlength.trans (by rw [hchosen]; omega)) hcovers hbound
  intro x hx
  obtain ⟨gap, hmem, ⟨c, hc, rfl⟩, -⟩ := hnear.exists_gap hx
  exact ⟨c, hc, hgap _ hmem⟩

/-- The greedy coreset has the size that was asked for, repeats no vector while there are
others, measures its gaps exactly, and covers the vectors at most twice as widely as any
choice of that many vectors. -/
theorem greedyCoreset_two_approximation {embeddings : List (PatchEmbedding F)} {maxSamples : ℕ}
    (hg : gather "BuildWithGreedyCoreset" dim embeddings = .ok g) (hpos : 0 < g.total)
    (hmax : 1 ≤ maxSamples) :
    ∃ bank, FeatureBank.buildWithGreedyCoreset embeddings dim maxSamples = .ok bank ∧
      bank.vectors =
        chosenPoints g.rows (selectionAfter g (min maxSamples g.total - 1)) ∧
      (selectionAfter g (min maxSamples g.total - 1)).chosen.length = min maxSamples g.total ∧
      (∀ values : List (List F), values.Nodup → (∀ v ∈ values, v ∈ g.rows) →
        min maxSamples g.total ≤ values.length →
          (selectionAfter g (min maxSamples g.total - 1)).chosen.Nodup) ∧
      (∀ rounds, MinDistExact g (selectionAfter g rounds)) ∧
      ∀ (centres : List (List F)) (radius : F), centres.length ≤ maxSamples →
        (∀ c ∈ centres, c ∈ g.rows) → CoversWithin g.rows centres radius →
          CoversWithin g.rows bank.vectors (2 * radius) := by
  have hne := rows_ne_nil hpos
  have hcount : 0 < min maxSamples g.total := by omega
  have hvectors := vectors_greedyCoreset (g := g) hcount
  have hrounds := nearest_rounds squaredDistance_nonneg squaredDistance_self hne
  refine ⟨_, buildWithGreedyCoreset_eq hg hpos, hvectors, ?_, ?_, ?_, ?_⟩
  · rw [selectionAfter, (hrounds _).2]
    omega
  · intro values hnodup hsub hlength
    exact nodup_chosen squaredDistance_nonneg squaredDistance_self (separates_rows g) hnodup hsub
      (by omega)
  · intro rounds
    exact ⟨(hrounds rounds).1.length_gaps, (hrounds rounds).1.nearest⟩
  · intro centres radius hlength hcentres hcovers
    rw [hvectors]
    by_cases htotal : maxSamples ≤ g.total
    · rw [Nat.min_eq_left htotal]
      exact coversWithin_selection hpos (by omega) hcentres hlength hcovers
    · -- asked for more vectors than there are, the selection has them all
      intro x hx
      refine ⟨x, ?_, squaredDistance_self x ▸ mul_self_nonneg _⟩
      refine mem_select squaredDistance squaredDistance_nonneg (separates_rows g) ?_ hx
      rw [Gathered.rows, Rows.length_rows]
      omega

/-- Two of four vectors, of which two are the same. -/
theorem greedyCoreset_two_approximation_corner :
    ∃ bank, FeatureBank.buildWithGreedyCoreset
        [.ofVectors ([0, 0, 3, 4, 0, 1, 0, 0] : List ℚ) 2 4 1] 2 2 = .ok bank ∧
      bank.vectors = [[0, 0], [3, 4]] ∧
      ∀ radius : ℚ, CoversWithin [[0, 0], [3, 4], [0, 1], [0, 0]] [[0, 1], [3, 4]] radius →
        CoversWithin [[0, 0], [3, 4], [0, 1], [0, 0]] bank.vectors (2 * radius) := by
  let g : Gathered ℚ 2 := ⟨[0, 0, 3, 4, 0, 1, 0, 0], 4, rfl⟩
  have hg : gather "BuildWithGreedyCoreset" 2
      [.ofVectors ([0, 0, 3, 4, 0, 1, 0, 0] : List ℚ) 2 4 1] = .ok g := rfl
  have hrows : g.rows = [[0, 0], [3, 4], [0, 1], [0, 0]] := by decide +kernel
  have hchosen : chosenPoints g.rows (selectionAfter g (min 2 g.total - 1)) = [[0, 0], [3, 4]] := by
    decide +kernel
  obtain ⟨bank, hbank, hvectors, -, -, -, hcovers⟩ :=
    greedyCoreset_two_approximation hg (by decide) (show 1 ≤ 2 by decide)
  refine ⟨bank, hbank, hvectors.trans hchosen, fun radius hradius => ?_⟩
  have hcovers := hcovers [[0, 1], [3, 4]] radius (by decide) (by rw [hrows]; decide)
  rw [hrows] at hcovers
  exact hcovers hradius

end Coverage

end SurfaceAi.Detection
