import SurfaceAi.Library.FarthestPoint
import Mathlib.Data.Fintype.Card
import Mathlib.Data.Fintype.Pigeonhole
import Mathlib.Data.List.Perm.Subperm

/-! How well a greedy farthest-point selection covers its points. After every round a gap is
the distance to the nearest chosen point, and the chosen points are no closer to each other
than the largest gap. The chosen points and the farthest one are one more than the centres of
any other selection of that size, so two of them share a centre, which bounds the gap. -/

namespace FarthestPoint

variable {X F : Type*}

/-- The chosen points, in order. -/
def chosenPoints (points : List X) (s : Selection F) : List X :=
  s.chosen.filterMap fun i => points[i]?

theorem mem_chosenPoints {points : List X} {s : Selection F} {x : X} :
    x ∈ chosenPoints points s ↔ ∃ i ∈ s.chosen, points[i]? = some x :=
  List.mem_filterMap

section Nearest

variable [Ring F] [LinearOrder F] [IsStrictOrderedRing F] (dist : X → X → F)

/-- `gap` is the distance from `x` to the nearest of the centres. -/
def IsNearest (centres : List X) (x : X) (gap : F) : Prop :=
  (∃ c ∈ centres, dist x c = gap) ∧ ∀ c ∈ centres, gap ≤ dist x c

/-- What holds between two rounds. -/
structure Nearest (points : List X) (s : Selection F) : Prop where
  length_gaps : s.gaps.length = points.length
  chosen_lt : ∀ i ∈ s.chosen, i < points.length
  nearest : ∀ (i : ℕ) (x : X) (gap : F), points[i]? = some x → s.gaps[i]? = some gap →
    IsNearest dist (chosenPoints points s) x gap
  spread : s.chosen.Pairwise fun i j => ∀ x y, points[i]? = some x → points[j]? = some y →
    ∀ g ∈ s.gaps, g ≤ dist y x

variable {dist} {points : List X} {s : Selection F} {x : X} {gap gap' : F}

omit [Ring F] [IsStrictOrderedRing F] in
/-- More centres are not farther away. -/
theorem IsNearest.anti {centres centres' : List X} (h : IsNearest dist centres x gap)
    (h' : IsNearest dist centres' x gap') (hsub : centres ⊆ centres') : gap' ≤ gap := by
  obtain ⟨c, hc, rfl⟩ := h.1
  exact h'.2 c (hsub hc)

omit [Ring F] [IsStrictOrderedRing F] in
theorem Nearest.exists_gap (h : Nearest dist points s) (hx : x ∈ points) :
    ∃ gap ∈ s.gaps, IsNearest dist (chosenPoints points s) x gap := by
  obtain ⟨i, hi⟩ := List.getElem?_of_mem hx
  have hlt : i < s.gaps.length := h.length_gaps ▸ (List.getElem?_eq_some_iff.mp hi).1
  exact ⟨s.gaps[i], List.getElem_mem hlt, h.nearest i x _ hi (List.getElem?_eq_getElem hlt)⟩

omit [Ring F] [IsStrictOrderedRing F] in
/-- The chosen points and the next one are spread by the largest gap. -/
theorem Nearest.spread_extended (h : Nearest dist points s) {b : ℕ} {p : X}
    (hp : points[b]? = some p) (hgap : s.gaps[b]? = some gap) :
    (s.chosen ++ [b]).Pairwise fun i j => ∀ x y,
      points[i]? = some x → points[j]? = some y → gap ≤ dist y x := by
  rw [List.pairwise_append]
  refine ⟨?_, List.pairwise_singleton _ _, ?_⟩
  · refine h.spread.imp fun hspread x y hx hy => ?_
    exact hspread x y hx hy gap (List.mem_of_getElem? hgap)
  · intro i hi j hj x y hx hy
    obtain rfl := List.mem_singleton.mp hj
    obtain rfl := Option.some.inj (hp.symm.trans hy)
    exact (h.nearest j p gap hp hgap).2 x (mem_chosenPoints.mpr ⟨i, hi, hx⟩)

omit [IsStrictOrderedRing F] in
theorem nearest_start (hself : ∀ x, dist x x = 0) (hne : points ≠ []) :
    Nearest dist points (start dist points) := by
  cases points with
  | nil => exact absurd rfl hne
  | cons p points =>
    have hchosen : chosenPoints (p :: points) (start dist (p :: points)) = [p] := rfl
    refine ⟨by simp [start], by simp [start], ?_, List.pairwise_singleton _ _⟩
    intro i x gap hx hgap
    rw [hchosen, IsNearest]
    cases i with
    | zero =>
      obtain rfl := Option.some.inj hx
      obtain rfl := Option.some.inj hgap
      simp [hself]
    | succ i =>
      rw [List.getElem?_cons_succ] at hx
      simp only [start, List.getElem?_cons_succ, List.getElem?_map, hx, Option.map_some,
        Option.some_inj] at hgap
      simp [hgap]

/-! ### A round -/

variable (hdist : ∀ x y, 0 ≤ dist x y)
include hdist

omit [IsStrictOrderedRing F] in
theorem Nearest.nonneg (h : Nearest dist points s) : ∀ g ∈ s.gaps, 0 ≤ g := by
  intro g hg
  obtain ⟨i, hi⟩ := List.getElem?_of_mem hg
  have hlt : i < points.length := h.length_gaps ▸ (List.getElem?_eq_some_iff.mp hi).1
  obtain ⟨c, -, rfl⟩ := (h.nearest i _ g (List.getElem?_eq_getElem hlt) hi).1
  exact hdist _ c

/-- A round takes a point with the largest gap. -/
theorem Nearest.round_eq (h : Nearest dist points s) (hne : points ≠ []) :
    ∃ p gap, points[farthest s.gaps]? = some p ∧ s.gaps[farthest s.gaps]? = some gap ∧
      (∀ g ∈ s.gaps, g ≤ gap) ∧ round dist points s =
        ⟨narrow dist p points (s.gaps.set (farthest s.gaps) 0), s.chosen ++ [farthest s.gaps]⟩ := by
  have hgaps : s.gaps ≠ [] := by
    rw [← List.length_pos_iff, h.length_gaps]
    exact List.length_pos_iff.mpr hne
  obtain ⟨gap, hgap, hmax⟩ := farthest_spec hgaps (h.nonneg hdist)
  have hlt : farthest s.gaps < points.length :=
    h.length_gaps ▸ (List.getElem?_eq_some_iff.mp hgap).1
  have hp := List.getElem?_eq_getElem hlt
  refine ⟨_, gap, hp, hgap, hmax, ?_⟩
  rw [round, hp]

omit [IsStrictOrderedRing F] in
/-- A closed gap stays closed, an open one may become the distance to the new point. -/
theorem IsNearest.narrowed {centres : List X} (h : IsNearest dist centres x gap) (p : X) :
    IsNearest dist (centres ++ [p]) x
      (if gap = 0 then gap else if dist x p < gap then dist x p else gap) := by
  obtain ⟨⟨c, hc, hcx⟩, hle⟩ := h
  have hnearer : ∀ gap', gap' ≤ gap → gap' ≤ dist x p → ∀ c ∈ centres ++ [p], gap' ≤ dist x c := by
    intro gap' hgap hp c' hc'
    rcases List.mem_append.mp hc' with hc' | hc'
    · exact hgap.trans (hle c' hc')
    · exact List.mem_singleton.mp hc' ▸ hp
  split_ifs with h0 hlt
  · exact ⟨⟨c, List.mem_append_left _ hc, hcx⟩, hnearer _ le_rfl (h0 ▸ hdist x p)⟩
  · exact ⟨⟨p, by simp, rfl⟩, hnearer _ hlt.le le_rfl⟩
  · exact ⟨⟨c, List.mem_append_left _ hc, hcx⟩, hnearer _ le_rfl (not_lt.mp hlt)⟩

variable (hself : ∀ x, dist x x = 0)
include hself

/-- A round keeps the gaps the distances to the nearest chosen point, and the spread. -/
theorem nearest_round (h : Nearest dist points s) (hne : points ≠ []) :
    Nearest dist points (round dist points s) ∧
      (round dist points s).chosen.length = s.chosen.length + 1 := by
  obtain ⟨p, gap, hp, hgap, hmax, hround⟩ := h.round_eq hdist hne
  generalize hb : farthest s.gaps = b at hp hgap hround
  have hset : b < s.gaps.length := (List.getElem?_eq_some_iff.mp hgap).1
  have hchosen : chosenPoints points (round dist points s) = chosenPoints points s ++ [p] := by
    rw [hround, chosenPoints, List.filterMap_append]
    simp [chosenPoints, hp]
  have hnearest : ∀ (i : ℕ) (x : X) (gap' : F), points[i]? = some x →
      (round dist points s).gaps[i]? = some gap' →
        IsNearest dist (chosenPoints points s ++ [p]) x gap' := by
    intro i x gap' hx hgap'
    rw [hround, getElem?_narrow, hx, Option.bind_some] at hgap'
    obtain ⟨old, hold, rfl⟩ := Option.map_eq_some_iff.mp hgap'
    by_cases hbi : b = i
    · -- the gap of the chosen point is closed
      subst hbi
      obtain rfl := Option.some.inj (hp.symm.trans hx)
      rw [List.getElem?_set_self hset] at hold
      obtain rfl := Option.some.inj hold
      rw [if_pos rfl]
      exact ⟨⟨p, by simp, hself p⟩, fun c _ => hdist p c⟩
    · rw [List.getElem?_set_ne hbi] at hold
      exact (h.nearest i x old hx hold).narrowed hdist p
  have hlength : (round dist points s).gaps.length = points.length := by
    rw [hround, narrow, List.length_zipWith, List.length_set, h.length_gaps, Nat.min_self]
  refine ⟨⟨hlength, ?_, ?_, ?_⟩, ?_⟩
  · intro i hi
    rw [hround] at hi
    rcases List.mem_append.mp hi with hi | hi
    · exact h.chosen_lt i hi
    · exact List.mem_singleton.mp hi ▸ (List.getElem?_eq_some_iff.mp hp).1
  · rw [hchosen]
    exact hnearest
  · -- no gap has grown beyond the one that was the largest
    have hgaps : ∀ g ∈ (round dist points s).gaps, g ≤ gap := by
      intro g hg
      obtain ⟨i, hi⟩ := List.getElem?_of_mem hg
      have hlt : i < points.length := hlength ▸ (List.getElem?_eq_some_iff.mp hi).1
      have hx := List.getElem?_eq_getElem hlt
      obtain ⟨old, hold, hnear⟩ := h.exists_gap (List.mem_of_getElem? hx)
      exact (hnear.anti (hnearest i _ g hx hi) (List.subset_append_left _ _)).trans (hmax old hold)
    have hspread := h.spread_extended hp hgap
    rw [hround] at hgaps ⊢
    exact hspread.imp fun hle x y hx hy g hg => (hgaps g hg).trans (hle x y hx hy)
  · rw [hround, List.length_append, List.length_singleton]

/-- After `n` further rounds `n + 1` points are chosen. -/
theorem nearest_rounds (hne : points ≠ []) (n : ℕ) :
    Nearest dist points ((round dist points)^[n] (start dist points)) ∧
      ((round dist points)^[n] (start dist points)).chosen.length = n + 1 := by
  induction n with
  | zero =>
    refine ⟨nearest_start hself hne, ?_⟩
    cases points with
    | nil => exact absurd rfl hne
    | cons p points => rfl
  | succ n ih =>
    rw [Function.iterate_succ_apply']
    obtain ⟨hnear, hlength⟩ := nearest_round hdist hself ih.1 hne
    exact ⟨hnear, hlength.trans (by rw [ih.2])⟩

/-- No point is chosen twice while there are more values than chosen points. -/
theorem nodup_chosen (hzero : Separates dist points) {values : List X} (hvalues : values.Nodup)
    (hsub : ∀ v ∈ values, v ∈ points) {n : ℕ} (hn : n + 1 ≤ values.length) :
    ((round dist points)^[n] (start dist points)).chosen.Nodup := by
  have hne : points ≠ [] := by
    rintro rfl
    cases values with
    | nil => simp at hn
    | cons v values => exact absurd (hsub v List.mem_cons_self) List.not_mem_nil
  induction n with
  | zero =>
    cases points with
    | nil => exact absurd rfl hne
    | cons p points => exact List.nodup_singleton 0
  | succ n ih =>
    have hchosen := ih (by omega)
    obtain ⟨hnear, hlength⟩ := nearest_rounds hdist hself hne n
    rw [Function.iterate_succ_apply']
    generalize (round dist points)^[n] (start dist points) = s at hchosen hnear hlength
    obtain ⟨p, gap, hp, hgap, hmax, hround⟩ := hnear.round_eq hdist hne
    rw [hround]
    refine List.nodup_append.mpr ⟨hchosen, List.nodup_singleton _, ?_⟩
    intro i hi j hj hij
    -- a point chosen again has a closed gap, so every value has been chosen
    obtain rfl := List.mem_singleton.mp hj
    subst hij
    have hclosed : gap ≤ 0 := by
      rw [← hself p]
      exact (hnear.nearest _ p gap hp hgap).2 p (mem_chosenPoints.mpr ⟨_, hi, hp⟩)
    have hall : values ⊆ chosenPoints points s := by
      intro v hv
      obtain ⟨g, hg, ⟨c, hc, hdc⟩, -⟩ := hnear.exists_gap (hsub v hv)
      have hvc : dist v c = 0 :=
        le_antisymm (hdc ▸ (hmax g hg).trans hclosed) (hdist v c)
      obtain ⟨k, -, hk⟩ := mem_chosenPoints.mp hc
      exact hzero v (hsub v hv) c (List.mem_of_getElem? hk) hvc ▸ hc
    have hle := (hvalues.subperm hall).length_le
    have hfilter := List.length_filterMap_le (fun i => points[i]?) s.chosen
    rw [chosenPoints] at hle
    omega

omit hself in
/-- No gap is larger than what two points of one centre can be apart, if as many centres as
points were chosen reach all points. -/
theorem Nearest.gap_le (h : Nearest dist points s) (hne : points ≠ []) {centres : List X}
    (hlength : centres.length ≤ s.chosen.length) {reach bound : F}
    (hreach : ∀ x ∈ points, ∃ c ∈ centres, dist x c ≤ reach)
    (hbound : ∀ x ∈ points, ∀ y ∈ points, ∀ c ∈ centres, dist x c ≤ reach → dist y c ≤ reach →
      dist y x ≤ bound) :
    ∀ g ∈ s.gaps, g ≤ bound := by
  obtain ⟨p, gap, hp, hgap, hmax, -⟩ := h.round_eq hdist hne
  generalize farthest s.gaps = b at hp hgap
  have hlt : ∀ k : Fin (s.chosen ++ [b]).length, (s.chosen ++ [b])[k] < points.length := by
    intro k
    rcases List.mem_append.mp (List.getElem_mem k.2) with hk | hk
    · exact h.chosen_lt _ hk
    · exact (List.mem_singleton.mp hk).trans_lt (List.getElem?_eq_some_iff.mp hp).1
  have hcentre : ∀ k : Fin (s.chosen ++ [b]).length, ∃ c : Fin centres.length,
      dist (points.get ⟨(s.chosen ++ [b])[k], hlt k⟩) centres[c] ≤ reach := by
    intro k
    obtain ⟨c, hc, hle⟩ := hreach _ (List.getElem_mem (hlt k))
    obtain ⟨i, hi, rfl⟩ := List.mem_iff_getElem.mp hc
    exact ⟨⟨i, hi⟩, hle⟩
  choose centre hreached using hcentre
  obtain ⟨i, j, hij, hshared⟩ := Fintype.exists_ne_map_eq_of_card_lt centre
    (by rw [Fintype.card_fin, Fintype.card_fin, List.length_append, List.length_singleton]; omega)
  have hpair : ∀ i j : Fin (s.chosen ++ [b]).length, i < j → centre i = centre j → gap ≤ bound := by
    intro i j hlt' hshared
    have hspread := List.pairwise_iff_getElem.mp (h.spread_extended hp hgap) i j i.2 j.2 hlt'
    refine (hspread _ _ (List.getElem?_eq_getElem (hlt i))
      (List.getElem?_eq_getElem (hlt j))).trans ?_
    exact hbound _ (List.getElem_mem (hlt i)) _ (List.getElem_mem (hlt j)) _
      (List.getElem_mem (centre i).2) (hreached i) (hshared ▸ hreached j)
  have hgap_le : gap ≤ bound := by
    rcases lt_or_gt_of_ne hij with hij | hij
    · exact hpair i j hij hshared
    · exact hpair j i hij hshared.symm
  exact fun g hg => (hmax g hg).trans hgap_le

end Nearest

end FarthestPoint
