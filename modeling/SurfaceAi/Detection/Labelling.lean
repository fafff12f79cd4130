import SurfaceAi.Library.UnionFind
import SurfaceAi.Detection.PostProcess
import Mathlib.Order.MinMax

/-! The first pass over a mask. After every pixel, two pixels seen so far have labels with the same
root exactly when neighbours among the seen ones join them. -/

namespace SurfaceAi.Detection

open UnionFind Relation

/-! ### Finding a root -/

/-- What `find_root` returns and leaves. -/
structure Finds (parent : List ℕ) (label : ℕ) (found : ℕ × List ℕ) : Prop where
  fst_eq : found.1 = root parent label
  falling : Falling found.2
  root_eq : root found.2 = root parent
  length_eq : found.2.length = parent.length

theorem findRoot_succ (fuel : ℕ) (parent : List ℕ) (label : ℕ) :
    findRoot (fuel + 1) parent label =
      if up parent label = label then (label, parent)
      else findRoot fuel (parent.set label (up parent (up parent label)))
        (up parent (up parent label)) := rfl

theorem findRoot_spec {fuel label : ℕ} {parent : List ℕ} (hfalling : Falling parent)
    (hle : label ≤ fuel) : Finds parent label (findRoot fuel parent label) := by
  induction fuel generalizing label parent with
  | zero =>
    obtain rfl : label = 0 := Nat.le_zero.mp hle
    exact ⟨(Nat.le_zero.mp (root_le hfalling 0)).symm, hfalling, rfl, rfl⟩
  | succ fuel ih =>
    rw [findRoot_succ]
    by_cases hfixed : up parent label = label
    · rw [if_pos hfixed]
      exact ⟨(root_of_up hfixed).symm, hfalling, rfl, rfl⟩
    · rw [if_neg hfixed]
      have hup : up parent label < label := lt_of_le_of_ne (hfalling label) hfixed
      have hgrand : up parent (up parent label) < label := (hfalling _).trans_lt hup
      have hroot : root parent (up parent (up parent label)) = root parent label := by
        rw [root_up hfalling, root_up hfalling]
      have hkeep : root (parent.set label (up parent (up parent label))) = root parent :=
        funext (root_set_of_root_eq hfalling hgrand hroot)
      have hle' : up parent (up parent label) ≤ fuel := by omega
      obtain ⟨hfst, hfall, hroots, hlength⟩ := ih (falling_set hfalling hgrand.le) hle'
      exact ⟨hfst.trans (by rw [hkeep, hroot]), hfall, hroots.trans hkeep,
        hlength.trans (List.length_set ..)⟩

/-- Turns beyond the label change nothing. -/
theorem findRoot_fuel {fuel fuel' label : ℕ} {parent : List ℕ} (hfalling : Falling parent)
    (hle : label ≤ fuel) (hle' : label ≤ fuel') :
    findRoot fuel parent label = findRoot fuel' parent label := by
  induction fuel generalizing label parent fuel' with
  | zero =>
    obtain rfl : label = 0 := Nat.le_zero.mp hle
    cases fuel' with
    | zero => rfl
    | succ fuel' =>
      rw [findRoot_succ, if_pos (Nat.le_zero.mp (hfalling 0))]
      rfl
  | succ fuel ih =>
    by_cases hfixed : up parent label = label
    · rw [findRoot_succ, if_pos hfixed]
      cases fuel' with
      | zero => rfl
      | succ fuel' => rw [findRoot_succ, if_pos hfixed]
    · have hup : up parent label < label := lt_of_le_of_ne (hfalling label) hfixed
      have hgrand : up parent (up parent label) < label := (hfalling _).trans_lt hup
      obtain ⟨fuel', rfl⟩ : ∃ k, fuel' = k + 1 := ⟨fuel' - 1, by omega⟩
      rw [findRoot_succ, findRoot_succ, if_neg hfixed, if_neg hfixed]
      exact ih (falling_set hfalling hgrand.le) (by omega) (by omega)

/-- The loop of `find_root` ends by its own condition within as many turns as the label, and further
turns change nothing. -/
def FindEnds (parent : List ℕ) (label : ℕ) : Prop :=
  ∀ turns, label ≤ turns → findRoot turns parent label = findRoot label parent label ∧
    up (findRoot label parent label).2 (findRoot label parent label).1 =
      (findRoot label parent label).1

theorem findEnds {parent : List ℕ} (hfalling : Falling parent) (label : ℕ) :
    FindEnds parent label := by
  intro turns hle
  obtain ⟨hfst, hfall, hroots, -⟩ := findRoot_spec hfalling (le_refl label)
  refine ⟨findRoot_fuel hfalling hle le_rfl, ?_⟩
  rw [hfst, ← hroots]
  exact up_root hfall label

/-! ### One pixel -/

/-- The root of the label above or to the left. -/
def NearRoot (parent : List ℕ) (above left : Option ℕ) (q : ℕ) : Prop :=
  (∃ u, above = some u ∧ root parent u = q) ∨ ∃ l, left = some l ∧ root parent l = q

/-- A new label joins the classes of the labels above and to the left, and no others: `f` is what
becomes of an old root. -/
structure Joins (s : Labelling) (above left : Option ℕ) (s' : Labelling) (label : ℕ) (f : ℕ → ℕ) :
    Prop where
  labels_eq : s'.labels = s.labels ++ [some label]
  falling : Falling s'.parent
  length_le : s.parent.length ≤ s'.parent.length
  label_lt : label < s'.parent.length
  root_eq : ∀ j < s.parent.length, root s'.parent j = f (root s.parent j)
  merges : ∀ q q', f q = f q' →
    q = q' ∨ NearRoot s.parent above left q ∧ NearRoot s.parent above left q'
  own_iff : ∀ q < s.parent.length, f q = root s'.parent label ↔ NearRoot s.parent above left q

/-- Two labels meet: the larger root is hung below the smaller. -/
theorem joins_both {s : Labelling} {u l : ℕ} (hfalling : Falling s.parent)
    (hu : u < s.parent.length) (hl : l < s.parent.length) :
    ∃ label f, Joins s (some u) (some l) (labelPixel s (some u) (some l)) label f := by
  obtain ⟨hfst₁, hfall₁, hroots₁, hlength₁⟩ := findRoot_spec hfalling (le_refl u)
  obtain ⟨hfst₂, hfall₂, hroots₂, hlength₂⟩ := findRoot_spec hfall₁ (le_refl l)
  generalize hfirst : findRoot u s.parent u = first at *
  generalize hsecond : findRoot l first.2 l = second at *
  rw [hroots₁] at hfst₂ hroots₂
  have hlength : second.2.length = s.parent.length := hlength₂.trans hlength₁
  have hlt : first.1 < s.parent.length := hfst₁ ▸ (root_le hfalling u).trans_lt hu
  have hlt' : second.1 < s.parent.length := hfst₂ ▸ (root_le hfalling l).trans_lt hl
  have hfixed : up second.2 first.1 = first.1 := by
    have hroot := up_root hfall₂ u
    rwa [hroots₂, ← hfst₁] at hroot
  have hfixed' : up second.2 second.1 = second.1 := by
    have hroot := up_root hfall₂ l
    rwa [hroots₂, ← hfst₂] at hroot
  have hnear : ∀ q, NearRoot s.parent (some u) (some l) q ↔ q = first.1 ∨ q = second.1 := by
    intro q
    simp [NearRoot, hfst₁, hfst₂, eq_comm]
  have hstep : labelPixel s (some u) (some l) =
      ⟨s.labels ++ [some (min first.1 second.1)], link second.2 first.1 second.1⟩ := by
    simp only [labelPixel, hfirst, hsecond, link]
  have hlink : ∀ j, root (link second.2 first.1 second.1) j =
      linked first.1 second.1 (root s.parent j) := by
    intro j
    rw [root_link hfall₂ hfixed hfixed' (by omega) (by omega), hroots₂]
  have hmin : root s.parent (min first.1 second.1) = min first.1 second.1 := by
    rcases min_choice first.1 second.1 with hmin | hmin
    · rw [hmin, ← hroots₂, root_of_up hfixed]
    · rw [hmin, ← hroots₂, root_of_up hfixed']
  rw [hstep]
  refine ⟨_, linked first.1 second.1, rfl, falling_link hfall₂ _ _, ?_, ?_, fun j _ => hlink j,
    fun q q' h => ?_, fun q _ => ?_⟩
  · rw [length_link, hlength]
  · rw [length_link, hlength]
    exact (min_le_left _ _).trans_lt hlt
  · rw [hnear, hnear]
    exact eq_or_of_linked_eq h
  · rw [hlink, hmin, linked_eq_min.mpr (min_choice first.1 second.1), hnear, linked_eq_min]

theorem joins_labelPixel {s : Labelling} {above left : Option ℕ} (hfalling : Falling s.parent)
    (habove : ∀ u, above = some u → u < s.parent.length)
    (hleft : ∀ l, left = some l → l < s.parent.length) :
    ∃ label f, Joins s above left (labelPixel s above left) label f := by
  match above, left with
  | none, none =>
    have hend : root s.parent s.parent.length = s.parent.length := root_of_up (by simp [up])
    refine ⟨s.parent.length, id, rfl, falling_append hfalling, by simp [labelPixel],
      by simp [labelPixel], fun j _ => ?_, fun q q' h => .inl h, fun q hq => ?_⟩
    · simp only [labelPixel, root_append, id]
    · simp only [labelPixel, root_append, hend, NearRoot, id]
      simp
      omega
  | some u, none =>
    refine ⟨u, id, rfl, hfalling, le_rfl, habove u rfl, fun j _ => rfl, fun q q' h => .inl h, ?_⟩
    intro q _
    simp [labelPixel, NearRoot, eq_comm]
  | none, some l =>
    refine ⟨l, id, rfl, hfalling, le_rfl, hleft l rfl, fun j _ => rfl, fun q q' h => .inl h, ?_⟩
    intro q _
    simp [labelPixel, NearRoot, eq_comm]
  | some u, some l => exact joins_both hfalling (habove u rfl) (hleft l rfl)

/-! ### The scan -/

section Scan

variable {F : Type*} [Zero F] [LT F] [DecidableLT F] {binary : List F} {w n : ℕ} {s : Labelling}

def Positive (binary : List F) (v : ℕ) : Prop := 0 < binary.getD v 0

instance : DecidablePred (Positive binary) := fun v =>
  inferInstanceAs (Decidable (0 < binary.getD v 0))

/-- The label above a pixel. -/
def aboveLabel (s : Labelling) (w idx : ℕ) : Option ℕ :=
  if w ≤ idx then s.labels.getD (idx - w) none else none

/-- The label to the left of a pixel. -/
def leftLabel (s : Labelling) (w idx : ℕ) : Option ℕ :=
  if 0 < idx % w then s.labels.getD (idx - 1) none else none

theorem aboveLabel_eq_some {u : ℕ} :
    aboveLabel s w n = some u ↔ w ≤ n ∧ s.labels.getD (n - w) none = some u := by
  rw [aboveLabel]
  split_ifs with hle <;> simp [hle]

theorem leftLabel_eq_some {l : ℕ} :
    leftLabel s w n = some l ↔ 0 < n % w ∧ s.labels.getD (n - 1) none = some l := by
  rw [leftLabel]
  split_ifs with hlt <;> simp [hlt]

/-- One turn of the first pass. -/
def scanPixel (binary : List F) (w : ℕ) (s : Labelling) (idx : ℕ) : Labelling :=
  if 0 < binary.getD idx 0 then labelPixel s (aboveLabel s w idx) (leftLabel s w idx)
  else { s with labels := s.labels ++ [none] }

theorem scanPixel_of_positive (hn : Positive binary n) :
    scanPixel binary w s n = labelPixel s (aboveLabel s w n) (leftLabel s w n) := if_pos hn

theorem scanPixel_of_not (hn : ¬Positive binary n) :
    scanPixel binary w s n = { s with labels := s.labels ++ [none] } := if_neg hn

/-- The labelling of the first `n` pixels. -/
def scan (binary : List F) (w n : ℕ) : Labelling :=
  (List.range n).foldl (scanPixel binary w) ⟨[], []⟩

theorem labelPixels_eq_scan (binary : List F) (h w : ℕ) :
    labelPixels binary h w = scan binary w (h * w) := rfl

/-- A positive pixel `v` above or to the left of pixel `x`. -/
def Before (binary : List F) (w x v : ℕ) : Prop :=
  Positive binary v ∧ (v + w = x ∨ v + 1 = x ∧ 0 < x % w)

/-- Two neighbouring positive pixels, the later one among the first `n`. -/
def Edge (binary : List F) (w n v x : ℕ) : Prop :=
  x < n ∧ Positive binary x ∧ Before binary w x v

/-- The root of a pixel's label. -/
def pixelRoot (s : Labelling) (v : ℕ) : Option ℕ := (s.labels.getD v none).map (root s.parent)

/-- What holds of the labelling of the first `n` pixels. -/
structure Scanned (binary : List F) (w n : ℕ) (s : Labelling) : Prop where
  falling : Falling s.parent
  length_labels : s.labels.length = n
  label_lt : ∀ v l, s.labels.getD v none = some l → l < s.parent.length
  foreground : ∀ v, (s.labels.getD v none).isSome ↔ v < n ∧ Positive binary v
  classes : Classifies (Edge binary w n) (pixelRoot s)

theorem getD_append_singleton (labels : List (Option ℕ)) (label : Option ℕ) (v : ℕ) :
    (labels ++ [label]).getD v none = if v = labels.length then label else labels.getD v none := by
  rw [List.getD_eq_getElem?_getD, List.getD_eq_getElem?_getD]
  rcases lt_trichotomy v labels.length with hlt | rfl | hlt
  · rw [List.getElem?_append_left hlt, if_neg hlt.ne]
  · simp
  · rw [if_neg hlt.ne', List.getElem?_eq_none (by simp; omega), List.getElem?_eq_none hlt.le]

/-- An unlabelled pixel at the end is one that no lookup sees. -/
theorem getD_append_none (labels : List (Option ℕ)) (v : ℕ) :
    (labels ++ [none]).getD v none = labels.getD v none := by
  rw [getD_append_singleton]
  split_ifs with hv
  · simp [hv]
  · rfl

omit [DecidableLT F] in
/-- The edges of one more pixel. -/
theorem edge_succ (hn : Positive binary n) (v x : ℕ) :
    Edge binary w (n + 1) v x ↔ Edge binary w n v x ∨ x = n ∧ Before binary w n v := by
  constructor
  · rintro ⟨hx, hpos, hbefore⟩
    rcases Nat.lt_succ_iff_lt_or_eq.mp hx with hlt | rfl
    · exact .inl ⟨hlt, hpos, hbefore⟩
    · exact .inr ⟨rfl, hbefore⟩
  · rintro (⟨hx, hpos, hbefore⟩ | ⟨rfl, hbefore⟩)
    · exact ⟨Nat.lt_succ_of_lt hx, hpos, hbefore⟩
    · exact ⟨Nat.lt_succ_self x, hn, hbefore⟩

omit [DecidableLT F] in
theorem edge_succ_of_not (hn : ¬Positive binary n) :
    Edge binary w (n + 1) = Edge binary w n := by
  funext v x
  have hne : Positive binary x → x ≠ n := by
    rintro hx rfl
    exact hn hx
  exact propext ⟨fun ⟨hx, hpos, hbefore⟩ =>
      ⟨lt_of_le_of_ne (Nat.lt_succ_iff.mp hx) (hne hpos), hpos, hbefore⟩,
    fun ⟨hx, hpos, hbefore⟩ => ⟨Nat.lt_succ_of_lt hx, hpos, hbefore⟩⟩

omit [DecidableLT F] in
theorem Before.lt {x v : ℕ} (hw : 0 < w) (h : Before binary w x v) : v < x := by
  rcases h.2 with hadd | ⟨hadd, -⟩ <;> omega

omit [DecidableLT F] in
/-- The roots next to a pixel are the classes of its positive neighbours. -/
theorem nearRoot_iff (hs : Scanned binary w n s) (q : ℕ) :
    NearRoot s.parent (aboveLabel s w n) (leftLabel s w n) q ↔
      ∃ v, Before binary w n v ∧ pixelRoot s v = some q := by
  constructor
  · rintro (⟨u, hu, hroot⟩ | ⟨l, hl, hroot⟩)
    · obtain ⟨hle, hu⟩ := aboveLabel_eq_some.mp hu
      have hpos := ((hs.foreground _).mp (Option.isSome_iff_exists.mpr ⟨u, hu⟩)).2
      exact ⟨n - w, ⟨hpos, .inl (by omega)⟩, by rw [pixelRoot, hu, Option.map_some, hroot]⟩
    · obtain ⟨hlt, hl⟩ := leftLabel_eq_some.mp hl
      have hpos := ((hs.foreground _).mp (Option.isSome_iff_exists.mpr ⟨l, hl⟩)).2
      have hn : 0 < n := Nat.pos_of_ne_zero (by rintro rfl; simp at hlt)
      exact ⟨n - 1, ⟨hpos, .inr ⟨by omega, hlt⟩⟩, by rw [pixelRoot, hl, Option.map_some, hroot]⟩
  · rintro ⟨v, ⟨-, hnear⟩, hv⟩
    obtain ⟨l, hl, hroot⟩ := Option.map_eq_some_iff.mp hv
    rcases hnear with rfl | ⟨rfl, hlt⟩
    · exact .inl ⟨l, aboveLabel_eq_some.mpr ⟨Nat.le_add_left .., by rwa [Nat.add_sub_cancel]⟩,
        hroot⟩
    · exact .inr ⟨l, leftLabel_eq_some.mpr ⟨hlt, by rwa [Nat.add_sub_cancel]⟩, hroot⟩

omit [DecidableLT F] in
theorem scanned_zero (binary : List F) (w : ℕ) : Scanned binary w 0 ⟨[], []⟩ := by
  refine ⟨falling_nil, rfl, ?_, ?_, ⟨?_, ?_⟩⟩
  · intro v l hl
    simp at hl
  · intro v
    simp
  · rintro v x ⟨hx, -⟩
    exact absurd hx (Nat.not_lt_zero x)
  · intro v x r hv
    simp [pixelRoot] at hv

omit [DecidableLT F] in
theorem scanned_background (hs : Scanned binary w n s) (hn : ¬Positive binary n) :
    Scanned binary w (n + 1) { s with labels := s.labels ++ [none] } := by
  have hroots : pixelRoot { s with labels := s.labels ++ [none] } = pixelRoot s := by
    funext v
    rw [pixelRoot, getD_append_none, pixelRoot]
  refine ⟨hs.falling, ?_, ?_, ?_, ?_⟩
  · rw [List.length_append, hs.length_labels, List.length_singleton]
  · intro v l hl
    rw [getD_append_none] at hl
    exact hs.label_lt v l hl
  · intro v
    rw [getD_append_none, hs.foreground]
    constructor
    · rintro ⟨hv, hpos⟩
      exact ⟨Nat.lt_succ_of_lt hv, hpos⟩
    · rintro ⟨hv, hpos⟩
      refine ⟨lt_of_le_of_ne (Nat.lt_succ_iff.mp hv) ?_, hpos⟩
      rintro rfl
      exact hn hpos
  · rw [edge_succ_of_not hn, hroots]
    exact hs.classes

omit [DecidableLT F] in
theorem scanned_foreground (hw : 0 < w) (hs : Scanned binary w n s) (hn : Positive binary n) :
    Scanned binary w (n + 1) (labelPixel s (aboveLabel s w n) (leftLabel s w n)) := by
  obtain ⟨label, f, hjoins⟩ := joins_labelPixel hs.falling
    (fun u hu => hs.label_lt _ u (aboveLabel_eq_some.mp hu).2)
    (fun l hl => hs.label_lt _ l (leftLabel_eq_some.mp hl).2)
  generalize labelPixel s (aboveLabel s w n) (leftLabel s w n) = s' at *
  have hget : ∀ v, s'.labels.getD v none = if v = n then some label else s.labels.getD v none := by
    intro v
    rw [hjoins.labels_eq, getD_append_singleton, hs.length_labels]
  have hnone : s.labels.getD n none = none := by simp [← hs.length_labels]
  have hlabel : ∀ v q, pixelRoot s v = some q → q < s.parent.length := by
    intro v q hv
    obtain ⟨l, hl, rfl⟩ := Option.map_eq_some_iff.mp hv
    exact (root_le hs.falling l).trans_lt (hs.label_lt v l hl)
  refine ⟨hjoins.falling, ?_, ?_, ?_, ?_⟩
  · rw [hjoins.labels_eq, List.length_append, hs.length_labels, List.length_singleton]
  · intro v l hl
    rw [hget] at hl
    split_ifs at hl
    · exact Option.some.inj hl ▸ hjoins.label_lt
    · exact (hs.label_lt v l hl).trans_le hjoins.length_le
  · intro v
    rw [hget]
    split_ifs with hv
    · simp [hv, hn]
    · rw [hs.foreground]
      exact and_congr_left fun _ => by omega
  · refine hs.classes.grow f (root s'.parent label) (edge_succ hn) ?_ ?_ ?_ ?_ ?_ ?_ ?_
    · rintro v x ⟨hx, -, hbefore⟩
      exact ⟨((hbefore.lt hw).trans hx).ne, hx.ne⟩
    · rw [pixelRoot, hnone, Option.map_none]
    · rw [pixelRoot, hget, if_pos rfl, Option.map_some]
    · intro v hv
      rw [pixelRoot, hget, if_neg hv, pixelRoot, Option.map_map]
      exact Option.map_congr fun l hl => hjoins.root_eq l (hs.label_lt v l hl)
    · intro v hv
      have hsome : (s.labels.getD v none).isSome := (hs.foreground v).mpr ⟨hv.lt hw, hv.1⟩
      obtain ⟨l, hl⟩ := Option.isSome_iff_exists.mp hsome
      have hroot : pixelRoot s v = some (root s.parent l) := by rw [pixelRoot, hl, Option.map_some]
      exact ⟨_, hroot, (hjoins.own_iff _ (hlabel v _ hroot)).mpr
        ((nearRoot_iff hs _).mpr ⟨v, hv, hroot⟩)⟩
    · intro q q' hq
      rw [← nearRoot_iff hs, ← nearRoot_iff hs]
      exact hjoins.merges q q' hq
    · intro v q hv hq
      exact (nearRoot_iff hs q).mp ((hjoins.own_iff q (hlabel v q hv)).mp hq)

/-- One turn keeps labels and connections together. -/
theorem scanned_step (hw : 0 < w) (hs : Scanned binary w n s) :
    Scanned binary w (n + 1) (scanPixel binary w s n) := by
  by_cases hn : Positive binary n
  · rw [scanPixel_of_positive hn]
    exact scanned_foreground hw hs hn
  · rw [scanPixel_of_not hn]
    exact scanned_background hs hn

theorem scan_succ (binary : List F) (w n : ℕ) :
    scan binary w (n + 1) = scanPixel binary w (scan binary w n) n := by
  rw [scan, List.range_succ, List.foldl_append]
  rfl

theorem scanned_scan (binary : List F) (hw : 0 < w) (n : ℕ) :
    Scanned binary w n (scan binary w n) := by
  induction n with
  | zero => exact scanned_zero binary w
  | succ n ih =>
    rw [scan_succ]
    exact scanned_step hw ih

end Scan

end SurfaceAi.Detection
