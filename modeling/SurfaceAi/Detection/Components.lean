import SurfaceAi.Detection.Collection
import Mathlib.Algebra.BigOperators.Group.Finset.Basic
import Mathlib.Algebra.Field.Rat
import Mathlib.Algebra.Order.Ring.Rat
import Mathlib.Data.List.Forall2

/-! The regions of a mask. They are the components of the graph of its positive pixels in which
pixels that share an edge are linked, and each region measures its own component. -/

namespace SurfaceAi.Detection

open UnionFind Relation

/-! ### Pixels that hang together -/

section Regions

variable {F : Type*} [Zero F] [LT F] {binary : List F} {h w v x : ℕ} {s : Labelling}

/-- A pixel of the image that the mask marks. -/
def Foreground (binary : List F) (h w v : ℕ) : Prop := v < h * w ∧ Positive binary v

/-- Pixels that share an edge: neighbours in one row, or in one column. -/
def Adjacent (w v x : ℕ) : Prop :=
  v / w = x / w ∧ (v % w + 1 = x % w ∨ x % w + 1 = v % w) ∨
    v % w = x % w ∧ (v / w + 1 = x / w ∨ x / w + 1 = v / w)

def Joined (binary : List F) (h w v x : ℕ) : Prop :=
  Foreground binary h w v ∧ Foreground binary h w x ∧ Adjacent w v x

def Connected (binary : List F) (h w : ℕ) : ℕ → ℕ → Prop := ReflTransGen (Joined binary h w)

/-- All that hangs together with one positive pixel. -/
def IsComponent (binary : List F) (h w : ℕ) (C : Finset ℕ) : Prop :=
  ∃ v, Foreground binary h w v ∧ ∀ x, x ∈ C ↔ Connected binary h w v x

theorem Joined.symm (hvx : Joined binary h w v x) : Joined binary h w x v := by
  obtain ⟨hv, hx, hadj⟩ := hvx
  refine ⟨hx, hv, ?_⟩
  rcases hadj with ⟨hrow, hcol⟩ | ⟨hcol, hrow⟩
  · exact .inl ⟨hrow.symm, hcol.symm⟩
  · exact .inr ⟨hcol.symm, hrow.symm⟩

theorem Connected.symm (hvx : Connected binary h w v x) : Connected binary h w x v := by
  induction hvx with
  | refl => exact .refl
  | tail _ hjoined ih => exact .head hjoined.symm ih

theorem Connected.foreground (hv : Foreground binary h w v) (hvx : Connected binary h w v x) :
    Foreground binary h w x := by
  cases hvx with
  | refl => exact hv
  | tail _ hjoined => exact hjoined.2.1

/-- The pixel behind in a row, or in a column. -/
theorem next_iff (hw : 0 < w) : (v + w = x ∨ v + 1 = x ∧ 0 < x % w) ↔
    v / w = x / w ∧ v % w + 1 = x % w ∨ v % w = x % w ∧ v / w + 1 = x / w := by
  have hv := Nat.div_add_mod v w
  have hx := Nat.div_add_mod x w
  constructor
  · rintro (rfl | ⟨rfl, hpos⟩)
    · exact .inr ⟨(Nat.add_mod_right v w).symm, (Nat.add_div_right v hw).symm⟩
    · have hdvd : ¬w ∣ v + 1 := fun hdvd => hpos.ne' (Nat.mod_eq_zero_of_dvd hdvd)
      have hrow : (v + 1) / w = v / w := Nat.succ_div_of_not_dvd hdvd
      rw [hrow] at hx
      exact .inl ⟨hrow.symm, by omega⟩
  · rintro (⟨hrow, hcol⟩ | ⟨hcol, hrow⟩)
    · rw [← hrow] at hx
      exact .inr ⟨by omega, by omega⟩
    · rw [← hrow, Nat.mul_succ] at hx
      exact .inl (by omega)

theorem adjacent_iff (hw : 0 < w) : Adjacent w v x ↔
    (v + w = x ∨ v + 1 = x ∧ 0 < x % w) ∨ x + w = v ∨ x + 1 = v ∧ 0 < v % w := by
  rw [next_iff hw, next_iff hw, Adjacent]
  omega

/-- The scan sees the links of the image. -/
theorem joined_iff (hw : 0 < w) :
    Joined binary h w v x ↔ Edge binary w (h * w) v x ∨ Edge binary w (h * w) x v := by
  rw [Joined, adjacent_iff hw]
  constructor
  · rintro ⟨hv, hx, hnext | hnext⟩
    · exact .inl ⟨hx.1, hx.2, hv.2, hnext⟩
    · exact .inr ⟨hv.1, hv.2, hx.2, hnext⟩
  · rintro (hedge | hedge)
    · have hlt := hedge.2.2.lt hw
      exact ⟨⟨hlt.trans hedge.1, hedge.2.2.1⟩, ⟨hedge.1, hedge.2.1⟩, .inl hedge.2.2.2⟩
    · have hlt := hedge.2.2.lt hw
      exact ⟨⟨hedge.1, hedge.2.1⟩, ⟨hlt.trans hedge.1, hedge.2.2.1⟩, .inr hedge.2.2.2⟩

theorem connected_iff_eqvGen (hw : 0 < w) :
    Connected binary h w v x ↔ EqvGen (Edge binary w (h * w)) v x := by
  constructor
  · intro hvx
    induction hvx with
    | refl => exact .refl _
    | tail _ hjoined ih =>
      rcases (joined_iff hw).mp hjoined with hedge | hedge
      · exact ih.trans _ _ _ (.rel _ _ hedge)
      · exact ih.trans _ _ _ (.symm _ _ (.rel _ _ hedge))
  · intro hvx
    induction hvx with
    | rel _ _ hedge => exact .single ((joined_iff hw).mpr (.inl hedge))
    | refl => exact .refl
    | symm _ _ _ ih => exact ih.symm
    | trans _ _ _ _ _ hvx hxy => exact hvx.trans hxy

/-- Components that share a pixel are the same. -/
theorem IsComponent.eq {C D : Finset ℕ} (hC : IsComponent binary h w C)
    (hD : IsComponent binary h w D) (hv : v ∈ C) (hv' : v ∈ D) : C = D := by
  obtain ⟨c, -, hC⟩ := hC
  obtain ⟨d, -, hD⟩ := hD
  have hcd : Connected binary h w c d := ((hC v).mp hv).trans ((hD v).mp hv').symm
  refine Finset.ext fun x => ?_
  rw [hC, hD]
  exact ⟨fun hcx => hcd.symm.trans hcx, fun hdx => hcd.trans hdx⟩

theorem exists_isComponent (hv : Foreground binary h w v) :
    ∃ C, IsComponent binary h w C ∧ v ∈ C := by
  classical
  refine ⟨(Finset.range (h * w)).filter (Connected binary h w v), ⟨v, hv, fun x => ?_⟩, ?_⟩
  · rw [Finset.mem_filter, Finset.mem_range]
    exact and_iff_right_of_imp fun hvx => (Connected.foreground hv hvx).1
  · exact Finset.mem_filter.mpr ⟨Finset.mem_range.mpr hv.1, .refl⟩

/-- The components share out the positive pixels. -/
theorem sum_card_components [DecidableLT F] {comps : List (Finset ℕ)} (hnodup : comps.Nodup)
    (hmem : ∀ C, C ∈ comps ↔ IsComponent binary h w C) :
    (comps.map Finset.card).sum = ((Finset.range (h * w)).filter (Positive binary)).card := by
  have hdisjoint : ((comps.toFinset : Finset (Finset ℕ)) : Set (Finset ℕ)).PairwiseDisjoint id := by
    intro C hC D hD hne
    refine Finset.disjoint_left.mpr fun v hv hv' => hne ?_
    exact ((hmem C).mp (List.mem_toFinset.mp hC)).eq ((hmem D).mp (List.mem_toFinset.mp hD)) hv hv'
  have hunion : (Finset.range (h * w)).filter (Positive binary) = comps.toFinset.biUnion id := by
    ext v
    rw [Finset.mem_filter, Finset.mem_range, Finset.mem_biUnion]
    constructor
    · intro hv
      obtain ⟨C, hC, hvC⟩ := exists_isComponent hv
      exact ⟨C, List.mem_toFinset.mpr ((hmem C).mpr hC), hvC⟩
    · rintro ⟨C, hC, hvC⟩
      obtain ⟨c, hc, hC⟩ := (hmem C).mp (List.mem_toFinset.mp hC)
      exact Connected.foreground hc ((hC v).mp hvC)
  rw [hunion, Finset.card_biUnion hdisjoint, List.sum_toFinset _ hnodup]
  rfl

/-- The components are the classes of labels with one root. -/
theorem isComponent_iff (hs : Scanned binary w (h * w) s) (hw : 0 < w) (C : Finset ℕ) :
    IsComponent binary h w C ↔ ∃ r < s.parent.length, pixelsOf s (h * w) r ≠ [] ∧
      (pixelsOf s (h * w) r).toFinset = C := by
  have hforeground : ∀ v r, pixelRoot s v = some r → Foreground binary h w v := by
    intro v r hv
    obtain ⟨l, hl, -⟩ := Option.map_eq_some_iff.mp hv
    exact (hs.foreground v).mp (Option.isSome_iff_exists.mpr ⟨l, hl⟩)
  have hclass : ∀ v r x, pixelRoot s v = some r →
      (x ∈ (pixelsOf s (h * w) r).toFinset ↔ Connected binary h w v x) := by
    intro v r x hv
    rw [List.mem_toFinset, mem_pixelsOf, connected_iff_eqvGen hw]
    constructor
    · rintro ⟨-, hx⟩
      exact hs.classes.complete v x r hv hx
    · intro hvx
      have hx : pixelRoot s x = some r := (hs.classes.eq_of_eqvGen hvx).symm.trans hv
      exact ⟨(hforeground x r hx).1, hx⟩
  constructor
  · rintro ⟨v, hv, hC⟩
    obtain ⟨l, hl⟩ := Option.isSome_iff_exists.mp ((hs.foreground v).mpr hv)
    have hroot : pixelRoot s v = some (root s.parent l) := by rw [pixelRoot, hl, Option.map_some]
    refine ⟨root s.parent l, (root_le hs.falling l).trans_lt (hs.label_lt v l hl), ?_, ?_⟩
    · exact List.ne_nil_of_mem (mem_pixelsOf.mpr ⟨hv.1, hroot⟩)
    · exact Finset.ext fun x => (hclass v _ x hroot).trans (hC x).symm
  · rintro ⟨r, -, hne, rfl⟩
    obtain ⟨v, hv⟩ := List.exists_mem_of_ne_nil _ hne
    have hroot := (mem_pixelsOf.mp hv).2
    exact ⟨v, hforeground v r hroot, fun x => hclass v r x hroot⟩

end Regions

/-! ### What a region says of its component -/

def Rect.Contains (box : Rect) (w v : ℕ) : Prop :=
  (box.x ≤ v % w ∧ v % w < box.x + box.width) ∧ box.y ≤ v / w ∧ v / w < box.y + box.height

def Rect.Within (box outer : Rect) : Prop :=
  (outer.x ≤ box.x ∧ box.x + box.width ≤ outer.x + outer.width) ∧
    outer.y ≤ box.y ∧ box.y + box.height ≤ outer.y + outer.height

/-- The tightest box around some pixels. -/
def IsBoundingBox (w : ℕ) (C : Finset ℕ) (box : Rect) : Prop :=
  (∀ v ∈ C, box.Contains w v) ∧ ∀ outer : Rect, (∀ v ∈ C, outer.Contains w v) → box.Within outer

theorem isBoundingBox_of_extrema {w minX minY maxX maxY : ℕ} {C : Finset ℕ}
    (hminX : IsLeast {x | ∃ v ∈ C, v % w = x} minX)
    (hmaxX : IsGreatest {x | ∃ v ∈ C, v % w = x} maxX)
    (hminY : IsLeast {y | ∃ v ∈ C, v / w = y} minY)
    (hmaxY : IsGreatest {y | ∃ v ∈ C, v / w = y} maxY) :
    IsBoundingBox w C ⟨minX, minY, maxX - minX + 1, maxY - minY + 1⟩ := by
  have hx : minX ≤ maxX := hmaxX.2 hminX.1
  have hy : minY ≤ maxY := hmaxY.2 hminY.1
  constructor
  · intro v hv
    have hleft := hminX.2 ⟨v, hv, rfl⟩
    have hright := hmaxX.2 ⟨v, hv, rfl⟩
    have htop := hminY.2 ⟨v, hv, rfl⟩
    have hbottom := hmaxY.2 ⟨v, hv, rfl⟩
    refine ⟨⟨hleft, ?_⟩, htop, ?_⟩
    · change v % w < minX + (maxX - minX + 1)
      omega
    · change v / w < minY + (maxY - minY + 1)
      omega
  · intro outer houter
    obtain ⟨a, ha, hleft⟩ := hminX.1
    obtain ⟨b, hb, hright⟩ := hmaxX.1
    obtain ⟨c, hc, htop⟩ := hminY.1
    obtain ⟨d, hd, hbottom⟩ := hmaxY.1
    refine ⟨⟨hleft ▸ (houter a ha).1.1, ?_⟩, htop ▸ (houter c hc).2.1, ?_⟩
    · have hlt := (houter b hb).1.2
      change minX + (maxX - minX + 1) ≤ _
      omega
    · have hlt := (houter d hd).2.2
      change minY + (maxY - minY + 1) ≤ _
      omega

section Exact

variable {K : Type*} [Field K] [LinearOrder K] {binary scores : List K} {h w : ℕ} {s : Labelling}

/-- What a region says of a component in exact arithmetic. -/
structure Describes (w : ℕ) (scores : List K) (C : Finset ℕ) (region : RegionProposal K) :
    Prop where
  area : region.areaPixels = C.card
  box : IsBoundingBox w C region.boundingBox
  mean : region.meanAnomalyScore = (∑ v ∈ C, scores.getD v 0) / C.card
  max : (∀ v ∈ C, 0 ≤ scores.getD v 0) →
    IsGreatest {q | ∃ v ∈ C, scores.getD v 0 = q} region.maxAnomalyScore

theorem values_eq {α : Type*} (f : ℕ → α) (pixels : List ℕ) :
    {q | ∃ v ∈ pixels.toFinset, f v = q} = {q | q ∈ pixels.map f} := by
  ext q
  simp

theorem describes_regionOf {pixels : List ℕ} (hnodup : pixels.Nodup) (hne : pixels ≠ [])
    (hbound : ∀ v ∈ pixels, v % w < 2 ^ 64 ∧ v / w < 2 ^ 64) :
    Describes w scores pixels.toFinset (regionOf (componentOf w scores pixels)) := by
  have hcols : ∀ x ∈ pixels.map (· % w), x ≤ 2 ^ 64 - 1 := by
    intro x hx
    obtain ⟨v, hv, rfl⟩ := List.mem_map.mp hx
    exact Nat.le_sub_one_of_lt (hbound v hv).1
  have hrows : ∀ y ∈ pixels.map (· / w), y ≤ 2 ^ 64 - 1 := by
    intro y hy
    obtain ⟨v, hv, rfl⟩ := List.mem_map.mp hy
    exact Nat.le_sub_one_of_lt (hbound v hv).2
  rw [componentOf_eq]
  constructor
  · exact (List.toFinset_card_of_nodup hnodup).symm
  · refine isBoundingBox_of_extrema ?_ ?_ ?_ ?_
    · rw [values_eq]
      exact isLeast_foldl_min (mt List.map_eq_nil_iff.mp hne) hcols
    · rw [values_eq]
      exact isGreatest_foldl_max (mt List.map_eq_nil_iff.mp hne) fun x _ => Nat.zero_le x
    · rw [values_eq]
      exact isLeast_foldl_min (mt List.map_eq_nil_iff.mp hne) hrows
    · rw [values_eq]
      exact isGreatest_foldl_max (mt List.map_eq_nil_iff.mp hne) fun y _ => Nat.zero_le y
  · rw [List.sum_toFinset _ hnodup, List.toFinset_card_of_nodup hnodup]
    rfl
  · intro hnonneg
    rw [values_eq]
    refine isGreatest_foldl_max (mt List.map_eq_nil_iff.mp hne) fun q hq => ?_
    obtain ⟨v, hv, rfl⟩ := List.mem_map.mp hq
    exact hnonneg v (List.mem_toFinset.mpr hv)

/-- The regions are those of the roots that have a pixel, in some order. -/
theorem connectedComponents_eq_map (scores : List K)
    (hfalling : Falling (labelPixels binary h w).parent) (hh : 0 < h) (hw : 0 < w) :
    ∃ rs : List ℕ,
      rs.Perm ((List.range (labelPixels binary h w).parent.length).filter fun r =>
        pixelsOf (labelPixels binary h w) (h * w) r ≠ []) ∧
      connectedComponents binary h w scores = rs.map fun r =>
        regionOf (componentOf w scores (pixelsOf (labelPixels binary h w) (h * w) r)) := by
  generalize hs : labelPixels binary h w = s at *
  let region : ℕ → RegionProposal K := fun r =>
    regionOf (componentOf w scores (pixelsOf s (h * w) r))
  let rs := (List.range s.parent.length).filter fun r => pixelsOf s (h * w) r ≠ []
  refine ⟨rs.mergeSort fun a b => !decide ((region a).maxAnomalyScore < (region b).maxAnomalyScore),
    List.mergeSort_perm _ _, ?_⟩
  rw [connectedComponents, if_neg (by omega), hs, collectComponents_eq_collect,
    (collected_collect hfalling w scores (h * w)).components]
  dsimp only
  rw [List.filter_map, List.map_map]
  have hfilter : (List.range s.parent.length).filter
      ((fun ci : ComponentInfo K => decide (ci.pixelCount ≠ 0)) ∘ fun r =>
        componentOf w scores (pixelsOf s (h * w) r)) = rs := by
    refine List.filter_congr fun r _ => ?_
    simp [componentOf_eq]
  rw [hfilter]
  symm
  change (rs.mergeSort _).map region = (rs.map region).mergeSort _
  exact List.map_mergeSort fun a _ b _ => rfl

/-- The parent arrays on which the two passes call `find_root`. -/
inductive Searched (binary scores : List K) (h w : ℕ) : List ℕ → Prop
  | up (n : ℕ) : Searched binary scores h w (scan binary w n).parent
  | left (n u : ℕ) : Searched binary scores h w (findRoot u (scan binary w n).parent u).2
  | collected (n : ℕ) :
    Searched binary scores h w (collect (labelPixels binary h w) w scores n).2

theorem Searched.falling {parent : List ℕ} (hw : 0 < w)
    (hparent : Searched binary scores h w parent) : Falling parent := by
  cases hparent with
  | up n => exact (scanned_scan binary hw n).falling
  | left n u => exact (findRoot_spec (scanned_scan binary hw n).falling (le_refl u)).falling
  | collected n =>
    exact (collected_collect (scanned_scan binary hw (h * w)).falling w scores n).falling

/-- The pixels of the roots that have one, as sets, are the components. -/
theorem components_of_perm (hs : Scanned binary w (h * w) s) (hw : 0 < w) {rs : List ℕ}
    (hperm : rs.Perm ((List.range s.parent.length).filter fun r => pixelsOf s (h * w) r ≠ [])) :
    (rs.map fun r => (pixelsOf s (h * w) r).toFinset).Nodup ∧
      ∀ C, C ∈ rs.map (fun r => (pixelsOf s (h * w) r).toFinset) ↔ IsComponent binary h w C := by
  have hmem : ∀ r, r ∈ rs ↔ r < s.parent.length ∧ pixelsOf s (h * w) r ≠ [] := by
    intro r
    rw [hperm.mem_iff]
    simp
  have hnodup : rs.Nodup := hperm.nodup_iff.mpr (List.nodup_range.filter _)
  constructor
  · refine hnodup.map_on fun r hr r' _ heq => ?_
    obtain ⟨v, hv⟩ := List.exists_mem_of_ne_nil _ ((hmem r).mp hr).2
    have hv' : v ∈ pixelsOf s (h * w) r' := by
      rw [← List.mem_toFinset, ← heq, List.mem_toFinset]
      exact hv
    exact Option.some.inj ((mem_pixelsOf.mp hv).2.symm.trans (mem_pixelsOf.mp hv').2)
  · intro C
    rw [isComponent_iff hs hw, List.mem_map]
    constructor
    · rintro ⟨r, hr, rfl⟩
      exact ⟨r, ((hmem r).mp hr).1, ((hmem r).mp hr).2, rfl⟩
    · rintro ⟨r, hlt, hne, rfl⟩
      exact ⟨r, (hmem r).mpr ⟨hlt, hne⟩, rfl⟩

theorem sum_areas {comps : List (Finset ℕ)} {regions : List (RegionProposal K)}
    (hdescribe : List.Forall₂ (Describes w scores) comps regions) :
    (regions.map RegionProposal.areaPixels).sum = (comps.map Finset.card).sum := by
  induction hdescribe with
  | nil => rfl
  | cons hregion _ ih => rw [List.map_cons, List.sum_cons, hregion.area, ih, List.map_cons,
      List.sum_cons]

/-- There is one region for each component of the positive pixels and no other. -/
theorem connectedComponents_exact (binary scores : List K) {h w : ℕ} (hh : 0 < h) (hw : 0 < w)
    (hhmax : h < 2 ^ 64) (hwmax : w < 2 ^ 64) :
    (∃ comps : List (Finset ℕ), comps.Nodup ∧ (∀ C, C ∈ comps ↔ IsComponent binary h w C) ∧
      List.Forall₂ (Describes w scores) comps (connectedComponents binary h w scores)) ∧
    ((connectedComponents binary h w scores).map RegionProposal.areaPixels).sum =
      ((Finset.range (h * w)).filter (Positive binary)).card ∧
    ∀ parent label, Searched binary scores h w parent → FindEnds parent label := by
  have hs := scanned_scan binary hw (h * w)
  rw [← labelPixels_eq_scan] at hs
  obtain ⟨rs, hperm, hregions⟩ := connectedComponents_eq_map scores hs.falling hh hw
  obtain ⟨hnodup, hcomps⟩ := components_of_perm hs hw hperm
  have hdescribe : List.Forall₂ (Describes w scores)
      (rs.map fun r => (pixelsOf (labelPixels binary h w) (h * w) r).toFinset)
      (connectedComponents binary h w scores) := by
    rw [hregions, List.forall₂_map_left_iff, List.forall₂_map_right_iff, List.forall₂_same]
    intro r hr
    have hne : pixelsOf (labelPixels binary h w) (h * w) r ≠ [] := by
      simpa using (List.mem_filter.mp (hperm.mem_iff.mp hr)).2
    refine describes_regionOf (nodup_pixelsOf _ _ r) hne fun v hv => ?_
    have hrow : v / w < h := Nat.div_lt_of_lt_mul (Nat.mul_comm h w ▸ (mem_pixelsOf.mp hv).1)
    exact ⟨(Nat.mod_lt v hw).trans hwmax, hrow.trans hhmax⟩
  refine ⟨⟨_, hnodup, hcomps, hdescribe⟩, ?_, fun parent label hparent =>
    findEnds (hparent.falling hw) label⟩
  rw [sum_areas hdescribe]
  exact sum_card_components hnodup hcomps

/-- Two columns that a lower row joins are one region; the pixel apart from them is another. -/
theorem connectedComponents_exact_bridge :
    (∃ comps : List (Finset ℕ), comps.Nodup ∧
      (∀ C, C ∈ comps ↔ IsComponent ([1, 0, 1, 0, 1, 1, 1, 1, 0, 0] : List ℚ) 2 5 C) ∧
      List.Forall₂ (Describes 5 ([2, 0, 4, 0, 1, 3, 1, 2, 0, 0] : List ℚ)) comps
        [⟨⟨0, 0, 3, 2⟩, 4, 12 / 5, 5⟩, ⟨⟨4, 0, 1, 1⟩, 1, 1, 1⟩]) ∧
    ((Finset.range 10).filter (Positive ([1, 0, 1, 0, 1, 1, 1, 1, 0, 0] : List ℚ))).card = 6 := by
  have hunsorted : ((collectComponents (labelPixels ([1, 0, 1, 0, 1, 1, 1, 1, 0, 0] : List ℚ) 2 5)
      2 5 ([2, 0, 4, 0, 1, 3, 1, 2, 0, 0] : List ℚ)).filter fun ci => ci.pixelCount ≠ 0).map
        regionOf = [⟨⟨0, 0, 3, 2⟩, 4, 12 / 5, 5⟩, ⟨⟨4, 0, 1, 1⟩, 1, 1, 1⟩] := by decide +kernel
  have hregions : connectedComponents ([1, 0, 1, 0, 1, 1, 1, 1, 0, 0] : List ℚ) 2 5
      [2, 0, 4, 0, 1, 3, 1, 2, 0, 0] =
        [⟨⟨0, 0, 3, 2⟩, 4, 12 / 5, 5⟩, ⟨⟨4, 0, 1, 1⟩, 1, 1, 1⟩] := by
    rw [connectedComponents, if_neg (by decide)]
    dsimp only
    rw [hunsorted]
    exact List.mergeSort_of_pairwise (by decide +kernel)
  obtain ⟨hcomps, hareas, -⟩ := connectedComponents_exact ([1, 0, 1, 0, 1, 1, 1, 1, 0, 0] : List ℚ)
    [2, 0, 4, 0, 1, 3, 1, 2, 0, 0] (show 0 < 2 by decide) (show 0 < 5 by decide) (by decide)
    (by decide)
  rw [hregions] at hcomps hareas
  exact ⟨hcomps, hareas.symm⟩

end Exact

end SurfaceAi.Detection
