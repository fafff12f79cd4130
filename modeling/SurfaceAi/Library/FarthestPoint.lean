import Mathlib.Algebra.Order.Ring.Defs
import Mathlib.Data.Finset.Card
import Mathlib.Data.List.Basic

/-! Greedy farthest-point selection. The gap of a point is its distance to the nearest
chosen one; each round chooses a point with the largest gap. A round either closes a
gap or finds none left, so as many rounds as there are points close them all, and a
selection of full size misses no point's value. -/

namespace FarthestPoint

variable {X F : Type*}

/-- The gaps of all points, and the indices chosen so far. -/
structure Selection (F : Type*) where
  gaps : List F
  chosen : List ℕ

section Rounds

variable [Zero F] [One F] [Neg F] [LT F] [DecidableLT F] [DecidableEq F] (dist : X → X → F)

/-- The first point: the others' gaps are their distances to it. -/
def start : List X → Selection F
  | [] => ⟨[], []⟩
  | p :: points => ⟨0 :: points.map fun x => dist x p, [0]⟩

/-- The better of the best entry so far and the next one, which has to be larger. -/
def better (best : ℕ × F) (entry : F × ℕ) : ℕ × F :=
  if best.2 < entry.1 then (entry.2, entry.1) else best

/-- The index of the first largest gap. -/
def farthest (gaps : List F) : ℕ := (gaps.zipIdx.foldl better (0, -1)).1

/-- The gaps after `p` was chosen; a closed gap stays closed. -/
def narrow (p : X) (points : List X) (gaps : List F) : List F :=
  List.zipWith (fun x gap => if gap = 0 then gap else if dist x p < gap then dist x p else gap)
    points gaps

def round (points : List X) (s : Selection F) : Selection F :=
  match points[farthest s.gaps]? with
  | none => s
  | some p =>
    ⟨narrow dist p points (s.gaps.set (farthest s.gaps) 0), s.chosen ++ [farthest s.gaps]⟩

/-- The points chosen in `count` rounds, the first of which takes the first point. -/
def select (points : List X) (count : ℕ) : List X :=
  ((round dist points)^[count - 1] (start dist points)).chosen.filterMap fun i => points[i]?

end Rounds

section Membership

variable [Zero F] [One F] [Neg F] [LT F] [DecidableLT F] [DecidableEq F] (dist : X → X → F)

theorem length_chosen_le (points : List X) (n : ℕ) :
    ((round dist points)^[n] (start dist points)).chosen.length ≤ n + 1 := by
  induction n with
  | zero => cases points <;> simp [start]
  | succ n ih =>
    rw [Function.iterate_succ_apply', round]
    split
    · omega
    · rw [List.length_append, List.length_singleton]
      omega

theorem length_select_le (points : List X) {count : ℕ} (h : 0 < count) :
    (select dist points count).length ≤ count := by
  have hfilter := List.length_filterMap_le (fun i => points[i]?)
    ((round dist points)^[count - 1] (start dist points)).chosen
  have hchosen := length_chosen_le dist points (count - 1)
  rw [select]
  omega

theorem mem_of_mem_select {points : List X} {count : ℕ} {x : X}
    (h : x ∈ select dist points count) : x ∈ points := by
  obtain ⟨i, -, hi⟩ := List.mem_filterMap.mp h
  exact List.mem_of_getElem? hi

end Membership

section Farthest

variable [Ring F] [LinearOrder F] [IsStrictOrderedRing F]

omit [Ring F] [IsStrictOrderedRing F] in
/-- The scan ends with its start or an entry of the list, and no entry is larger. -/
private theorem foldl_better (gaps : List F) (k : ℕ) (best : ℕ × F) :
    ((gaps.zipIdx k).foldl better best = best ∨
        ∃ j, ((gaps.zipIdx k).foldl better best).1 = k + j ∧
          gaps[j]? = some ((gaps.zipIdx k).foldl better best).2) ∧
      best.2 ≤ ((gaps.zipIdx k).foldl better best).2 ∧
      ∀ g ∈ gaps, g ≤ ((gaps.zipIdx k).foldl better best).2 := by
  induction gaps generalizing k best with
  | nil => simp
  | cons g gaps ih =>
    rw [List.zipIdx_cons, List.foldl_cons]
    have hbetter : best.2 ≤ (better best (g, k)).2 ∧ g ≤ (better best (g, k)).2 := by
      unfold better
      split_ifs with h
      · exact ⟨h.le, le_rfl⟩
      · exact ⟨le_rfl, not_lt.mp h⟩
    obtain ⟨hwhere, hle, hall⟩ := ih (k + 1) (better best (g, k))
    refine ⟨?_, hbetter.1.trans hle, ?_⟩
    · rcases hwhere with heq | ⟨j, hj, hget⟩
      · rw [heq]
        unfold better
        split_ifs with h
        · exact .inr ⟨0, rfl, rfl⟩
        · exact .inl rfl
      · refine .inr ⟨j + 1, ?_, hget⟩
        rw [hj]
        omega
    · intro g' hg'
      rcases List.mem_cons.mp hg' with rfl | hg'
      · exact hbetter.2.trans hle
      · exact hall g' hg'

/-- The chosen gap is one of the gaps and the largest of them. -/
theorem farthest_spec {gaps : List F} (hne : gaps ≠ []) (hnonneg : ∀ g ∈ gaps, 0 ≤ g) :
    ∃ gap, gaps[farthest gaps]? = some gap ∧ ∀ g ∈ gaps, g ≤ gap := by
  obtain ⟨hwhere, -, hall⟩ := foldl_better gaps 0 (0, -1)
  rcases hwhere with heq | ⟨j, hj, hget⟩
  · -- the start is below every gap
    obtain ⟨g, hg⟩ := List.exists_mem_of_ne_nil gaps hne
    have hlt : (-1 : F) < g := neg_one_lt_zero.trans_le (hnonneg g hg)
    have hle := hall g hg
    rw [heq] at hle
    exact absurd hle (not_le.mpr hlt)
  · refine ⟨_, ?_, hall⟩
    rw [farthest, hj, Nat.zero_add]
    exact hget

end Farthest

section Coverage

variable [Ring F] [LinearOrder F] [IsStrictOrderedRing F] (dist : X → X → F)

/-- Every gap is a distance, and a closed gap belongs to a chosen point's value. -/
structure Covered (points : List X) (s : Selection F) : Prop where
  length_gaps : s.gaps.length = points.length
  nonneg : ∀ g ∈ s.gaps, 0 ≤ g
  closed : ∀ (i : ℕ) (x : X), points[i]? = some x → s.gaps[i]? = some 0 → ∃ j ∈ s.chosen, points[j]? = some x

/-- The indices of the closed gaps. -/
def closedGaps (s : Selection F) : Finset ℕ :=
  (Finset.range s.gaps.length).filter fun i => s.gaps[i]? = some 0

omit [IsStrictOrderedRing F] in
theorem mem_closedGaps {s : Selection F} {i : ℕ} : i ∈ closedGaps s ↔ s.gaps[i]? = some 0 := by
  simp only [closedGaps, Finset.mem_filter, Finset.mem_range, and_iff_right_iff_imp]
  intro h
  exact (List.getElem?_eq_some_iff.mp h).1

omit [IsStrictOrderedRing F] in
theorem closedGaps_subset {points : List X} {s : Selection F} (h : Covered points s) :
    closedGaps s ⊆ Finset.range points.length := by
  intro i hi
  rw [mem_closedGaps] at hi
  rw [Finset.mem_range, ← h.length_gaps]
  exact (List.getElem?_eq_some_iff.mp hi).1

omit [IsStrictOrderedRing F] in
theorem getElem?_narrow (p : X) (points : List X) (gaps : List F) (i : ℕ) :
    (narrow dist p points gaps)[i]? =
      points[i]?.bind fun x => gaps[i]?.map fun gap =>
        if gap = 0 then gap else if dist x p < gap then dist x p else gap := by
  rw [narrow, List.getElem?_zipWith]
  cases points[i]? <;> cases gaps[i]? <;> rfl

/-- Points at distance zero are equal. -/
def Separates (points : List X) : Prop := ∀ x ∈ points, ∀ y ∈ points, dist x y = 0 → x = y

variable (hdist : ∀ x y, 0 ≤ dist x y)
include hdist

omit [IsStrictOrderedRing F] in
theorem covered_start {points : List X} (hzero : Separates dist points) :
    Covered points (start dist points) := by
  cases points with
  | nil => exact ⟨rfl, by simp [start], by simp⟩
  | cons p points =>
    refine ⟨by simp [start], ?_, ?_⟩
    · intro g hg
      rcases List.mem_cons.mp hg with rfl | hg
      · exact le_rfl
      · obtain ⟨x, -, rfl⟩ := List.mem_map.mp hg
        exact hdist x p
    · intro i x hx hgap
      refine ⟨0, by simp [start], ?_⟩
      cases i with
      | zero => exact hx
      | succ i =>
        rw [List.getElem?_cons_succ] at hx
        simp only [start, List.getElem?_cons_succ, List.getElem?_map, hx, Option.map_some,
          Option.some_inj] at hgap
        have hmem := List.mem_cons_of_mem p (List.mem_of_getElem? hx)
        rw [hzero x hmem p (by simp) hgap]
        rfl

omit [IsStrictOrderedRing F] in
/-- One round keeps the gaps in order, and closes the one it chooses. -/
theorem covered_round {points : List X} (hzero : Separates dist points) {s : Selection F}
    (h : Covered points s) :
    Covered points (round dist points s) ∧
      insert (farthest s.gaps) (closedGaps s) ∩ Finset.range points.length ⊆
        closedGaps (round dist points s) := by
  unfold round
  cases hp : points[farthest s.gaps]? with
  | none =>
    refine ⟨h, ?_⟩
    intro i hi
    obtain ⟨hi, hlt⟩ := Finset.mem_inter.mp hi
    rcases Finset.mem_insert.mp hi with rfl | hi
    · rw [List.getElem?_eq_none_iff] at hp
      exact absurd (Finset.mem_range.mp hlt) (not_lt.mpr hp)
    · exact hi
  | some p =>
    have hb : farthest s.gaps < s.gaps.length := by
      rw [h.length_gaps]
      exact (List.getElem?_eq_some_iff.mp hp).1
    have hget := getElem?_narrow dist p points (s.gaps.set (farthest s.gaps) 0)
    refine ⟨⟨?_, ?_, ?_⟩, ?_⟩
    · simp [narrow, h.length_gaps]
    · intro g hg
      obtain ⟨i, hi⟩ := List.getElem?_of_mem hg
      rw [hget, Option.bind_eq_some_iff] at hi
      obtain ⟨x, -, hi⟩ := hi
      obtain ⟨gap, hgap, rfl⟩ := Option.map_eq_some_iff.mp hi
      have hgap0 : 0 ≤ gap := by
        rcases List.mem_or_eq_of_mem_set (List.mem_of_getElem? hgap) with hmem | rfl
        · exact h.nonneg gap hmem
        · exact le_rfl
      split_ifs
      · exact hgap0
      · exact hdist x p
      · exact hgap0
    · intro i x hx hi
      rw [hget, hx, Option.bind_some] at hi
      obtain ⟨gap, hgap, hi⟩ := Option.map_eq_some_iff.mp hi
      by_cases hchosen : farthest s.gaps = i
      · exact ⟨i, by simp [hchosen], hx⟩
      rw [List.getElem?_set_ne hchosen] at hgap
      split_ifs at hi with hgap0 hlt
      · obtain ⟨j, hj, hjx⟩ := h.closed i x hx (hi ▸ hgap)
        exact ⟨j, List.mem_append_left _ hj, hjx⟩
      · rw [hzero x (List.mem_of_getElem? hx) p (List.mem_of_getElem? hp) hi]
        exact ⟨farthest s.gaps, by simp, hp⟩
      · exact absurd hi hgap0
    · intro i hi
      obtain ⟨hi, hlt⟩ := Finset.mem_inter.mp hi
      obtain ⟨x, hx⟩ : ∃ x, points[i]? = some x :=
        ⟨_, List.getElem?_eq_getElem (Finset.mem_range.mp hlt)⟩
      have hset : (s.gaps.set (farthest s.gaps) 0)[i]? = some 0 := by
        by_cases hchosen : farthest s.gaps = i
        · rw [← hchosen, List.getElem?_set_self hb]
        · rw [List.getElem?_set_ne hchosen]
          rcases Finset.mem_insert.mp hi with rfl | hi
          · exact absurd rfl hchosen
          · exact mem_closedGaps.mp hi
      rw [mem_closedGaps, hget, hx, hset]
      simp

/-- After `n` further rounds at least `n + 1` gaps are closed, or all of them. -/
theorem covered_rounds {points : List X} (hzero : Separates dist points)
    (hne : points ≠ []) (n : ℕ) :
    Covered points ((round dist points)^[n] (start dist points)) ∧
      min (n + 1) points.length ≤
        (closedGaps ((round dist points)^[n] (start dist points))).card := by
  induction n with
  | zero =>
    refine ⟨covered_start dist hdist hzero, ?_⟩
    have hfirst : 0 ∈ closedGaps (start dist points) := by
      cases points with
      | nil => exact absurd rfl hne
      | cons p points => simp [mem_closedGaps, start]
    have hpos := Finset.card_pos.mpr ⟨0, hfirst⟩
    simp only [Function.iterate_zero, id_eq]
    omega
  | succ n ih =>
    rw [Function.iterate_succ_apply']
    obtain ⟨hcov, hcard⟩ := ih
    generalize (round dist points)^[n] (start dist points) = s at hcov hcard
    obtain ⟨hcov', hclosed⟩ := covered_round dist hdist hzero hcov
    refine ⟨hcov', ?_⟩
    have hgaps : s.gaps ≠ [] := by
      rw [← List.length_pos_iff, hcov.length_gaps]
      exact List.length_pos_iff.mpr hne
    obtain ⟨gap, hgap, hmax⟩ := farthest_spec hgaps hcov.nonneg
    by_cases hopen : gap = 0
    · -- no gap was left, so all were closed before the round
      have hall : Finset.range points.length ⊆ closedGaps s := by
        intro i hi
        rw [Finset.mem_range, ← hcov.length_gaps] at hi
        have hget := List.getElem?_eq_getElem hi
        have hmem := List.getElem_mem hi
        rw [mem_closedGaps, hget, le_antisymm (hopen ▸ hmax _ hmem) (hcov.nonneg _ hmem)]
      have hle := Finset.card_le_card fun i hi => hclosed
        (Finset.mem_inter.mpr ⟨Finset.mem_insert_of_mem (hall hi), hi⟩)
      rw [Finset.card_range] at hle
      omega
    · have hnot : farthest s.gaps ∉ closedGaps s := by
        rw [mem_closedGaps, hgap]
        simpa using hopen
      have hlt : farthest s.gaps < points.length := by
        rw [← hcov.length_gaps]
        exact (List.getElem?_eq_some_iff.mp hgap).1
      have hins : insert (farthest s.gaps) (closedGaps s) ⊆ closedGaps (round dist points s) := by
        intro i hi
        refine hclosed (Finset.mem_inter.mpr ⟨hi, ?_⟩)
        rcases Finset.mem_insert.mp hi with rfl | hi
        · exact Finset.mem_range.mpr hlt
        · exact closedGaps_subset hcov hi
      have hle := Finset.card_le_card hins
      rw [Finset.card_insert_of_notMem hnot] at hle
      omega

/-- A selection of full size misses no point's value. -/
theorem mem_select {points : List X} (hzero : Separates dist points) {count : ℕ}
    (hcount : points.length ≤ count) {x : X} (hx : x ∈ points) : x ∈ select dist points count := by
  have hne : points ≠ [] := List.ne_nil_of_mem hx
  have hpos := List.length_pos_iff.mpr hne
  obtain ⟨hcov, hcard⟩ := covered_rounds dist hdist hzero hne (count - 1)
  obtain ⟨i, hi⟩ := List.getElem?_of_mem hx
  have hall := Finset.eq_of_subset_of_card_le (closedGaps_subset hcov)
    (by rw [Finset.card_range]; omega)
  have hclosed : i ∈ closedGaps ((round dist points)^[count - 1] (start dist points)) := by
    rw [hall, Finset.mem_range]
    exact (List.getElem?_eq_some_iff.mp hi).1
  obtain ⟨j, hj, hjx⟩ := hcov.closed i x hi (mem_closedGaps.mp hclosed)
  exact List.mem_filterMap.mpr ⟨j, hj, hjx⟩

end Coverage

end FarthestPoint
