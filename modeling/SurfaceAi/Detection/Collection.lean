import SurfaceAi.Detection.Labelling
import Mathlib.Algebra.BigOperators.Group.List.Basic
import Mathlib.Data.List.Induction
import Mathlib.Order.Bounds.Defs

/-! The second pass over a mask: the pixels whose labels have one root make one component, and its
fields are the extrema, the sum and the number of them. -/

namespace SurfaceAi.Detection

open UnionFind

section Collect

variable {F : Type*} [Zero F] [Add F] [LT F] [DecidableLT F] {s : Labelling} {w n r : ℕ}
  {scores : List F} {acc : List (ComponentInfo F) × List ℕ}

/-- One turn of the second pass. -/
def collectPixel (s : Labelling) (w : ℕ) (scores : List F)
    (acc : List (ComponentInfo F) × List ℕ) (idx : ℕ) : List (ComponentInfo F) × List ℕ :=
  match s.labels.getD idx none with
  | none => acc
  | some label =>
    let (root, parent) := findRoot label acc.2 label
    (acc.1.modify root fun ci => addPixel ci (scores.getD idx 0) (idx % w) (idx / w), parent)

/-- The components and the parents after `n` pixels. -/
def collect (s : Labelling) (w : ℕ) (scores : List F) (n : ℕ) :
    List (ComponentInfo F) × List ℕ :=
  (List.range n).foldl (collectPixel s w scores)
    (List.replicate s.parent.length emptyComponent, s.parent)

theorem collectComponents_eq_collect (s : Labelling) (h w : ℕ) (scores : List F) :
    collectComponents s h w scores = (collect s w scores (h * w)).1 := rfl

theorem collect_succ (s : Labelling) (w : ℕ) (scores : List F) (n : ℕ) :
    collect s w scores (n + 1) = collectPixel s w scores (collect s w scores n) n := by
  rw [collect, List.range_succ, List.foldl_append]
  rfl

/-- The component of a list of pixels. -/
def componentOf (w : ℕ) (scores : List F) (pixels : List ℕ) : ComponentInfo F :=
  pixels.foldl (fun ci idx => addPixel ci (scores.getD idx 0) (idx % w) (idx / w)) emptyComponent

theorem componentOf_append (w : ℕ) (scores : List F) (pixels : List ℕ) (v : ℕ) :
    componentOf w scores (pixels ++ [v]) =
      addPixel (componentOf w scores pixels) (scores.getD v 0) (v % w) (v / w) :=
  List.foldl_append ..

/-- The pixels among the first `n` whose labels have the root `r`. -/
def pixelsOf (s : Labelling) (n r : ℕ) : List ℕ :=
  (List.range n).filter fun v => pixelRoot s v = some r

theorem mem_pixelsOf {v : ℕ} : v ∈ pixelsOf s n r ↔ v < n ∧ pixelRoot s v = some r := by
  simp [pixelsOf]

theorem nodup_pixelsOf (s : Labelling) (n r : ℕ) : (pixelsOf s n r).Nodup :=
  List.nodup_range.filter _

theorem pixelsOf_succ (s : Labelling) (n r : ℕ) : pixelsOf s (n + 1) r =
    if pixelRoot s n = some r then pixelsOf s n r ++ [n] else pixelsOf s n r := by
  rw [pixelsOf, List.range_succ, List.filter_append, ← pixelsOf]
  split_ifs with hroot
  · rw [List.filter_singleton, decide_eq_true hroot, cond_true]
  · rw [List.filter_singleton, decide_eq_false hroot, cond_false, List.append_nil]

/-- What holds after the first `n` pixels. -/
structure Collected (s : Labelling) (w : ℕ) (scores : List F) (n : ℕ)
    (acc : List (ComponentInfo F) × List ℕ) : Prop where
  falling : Falling acc.2
  root_eq : root acc.2 = root s.parent
  components : acc.1 =
    (List.range s.parent.length).map fun r => componentOf w scores (pixelsOf s n r)

theorem modify_map_range {α : Type*} (f : ℕ → α) (g : α → α) (k r : ℕ) :
    ((List.range k).map f).modify r g =
      (List.range k).map fun i => if i = r then g (f i) else f i := by
  refine List.ext_getElem (by simp) fun i _ _ => ?_
  rw [List.getElem_modify]
  simp [eq_comm]

theorem collected_step (h : Collected s w scores n acc) :
    Collected s w scores (n + 1) (collectPixel s w scores acc n) := by
  rw [collectPixel]
  cases hlabel : s.labels.getD n none with
  | none =>
    have hroot : pixelRoot s n = none := by rw [pixelRoot, hlabel, Option.map_none]
    refine ⟨h.falling, h.root_eq, h.components.trans (List.map_congr_left fun r _ => ?_)⟩
    rw [pixelsOf_succ, hroot, if_neg (by simp)]
  | some label =>
    obtain ⟨hfst, hfalling, hroots, -⟩ := findRoot_spec h.falling (le_refl label)
    rw [h.root_eq] at hfst hroots
    refine ⟨hfalling, hroots, ?_⟩
    have hroot : pixelRoot s n = some (root s.parent label) := by
      rw [pixelRoot, hlabel, Option.map_some]
    simp only [h.components, hfst]
    rw [modify_map_range]
    refine List.map_congr_left fun r _ => ?_
    rw [pixelsOf_succ, hroot]
    by_cases hr : r = root s.parent label
    · rw [if_pos hr, if_pos (congrArg some hr.symm), componentOf_append]
    · rw [if_neg hr, if_neg fun heq => hr (Option.some.inj heq).symm]

theorem collected_collect (hfalling : Falling s.parent) (w : ℕ) (scores : List F) (n : ℕ) :
    Collected s w scores n (collect s w scores n) := by
  induction n with
  | zero =>
    refine ⟨hfalling, rfl, ?_⟩
    change List.replicate s.parent.length emptyComponent =
      (List.range s.parent.length).map fun _ => emptyComponent
    rw [List.map_const', List.length_range]
  | succ n ih =>
    rw [collect_succ]
    exact collected_step ih

end Collect

/-! ### The fields of a component -/

section Fields

variable {α : Type*} [LinearOrder α] {l : List α} {a : α}

theorem isLeast_foldl_min (hne : l ≠ []) (h : ∀ x ∈ l, x ≤ a) :
    IsLeast {x | x ∈ l} (l.foldl min a) := by
  have hmin : l.foldl min a = l.min hne := by
    rw [List.foldl_min, List.min?_eq_some_min hne, Option.getD_some,
      min_eq_right (h _ (List.min_mem hne))]
  rw [hmin]
  exact ⟨List.min_mem hne, fun x hx => List.min_le_of_mem hx⟩

theorem isGreatest_foldl_max (hne : l ≠ []) (h : ∀ x ∈ l, a ≤ x) :
    IsGreatest {x | x ∈ l} (l.foldl max a) := by
  have hmax : l.foldl max a = l.max hne := by
    rw [List.foldl_max, List.max?_eq_some_max hne, Option.getD_some,
      max_eq_right (h _ (List.max_mem hne))]
  rw [hmax]
  exact ⟨List.max_mem hne, fun x hx => List.le_max_of_mem hx⟩

/-- The fields of a component in exact arithmetic. -/
theorem componentOf_eq {K : Type*} [LinearOrder K] [AddMonoid K] (w : ℕ) (scores : List K)
    (pixels : List ℕ) : componentOf w scores pixels =
      { maxScore := (pixels.map (scores.getD · 0)).foldl max 0
        sumScore := (pixels.map (scores.getD · 0)).sum
        pixelCount := pixels.length
        minX := (pixels.map (· % w)).foldl min (2 ^ 64 - 1)
        minY := (pixels.map (· / w)).foldl min (2 ^ 64 - 1)
        maxX := (pixels.map (· % w)).foldl max 0
        maxY := (pixels.map (· / w)).foldl max 0 } := by
  induction pixels using List.reverseRecOn with
  | nil => rfl
  | append_singleton pixels v ih =>
    rw [componentOf_append, ih]
    simp [addPixel, stdMax, max_def_lt]

end Fields

end SurfaceAi.Detection
