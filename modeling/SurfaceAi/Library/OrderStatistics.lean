import Mathlib.Data.List.Count
import Mathlib.Data.List.Induction
import Mathlib.Data.List.Perm.Basic
import Mathlib.Data.List.Sort
import Mathlib.Order.Defs.LinearOrder

/-! Ranks in sorted lists. Few entries of a list exceed a given entry of its sorted form, and
taking out the least entry moves every rank by one. -/

namespace OrderStatistics

variable {α ι : Type*} [LinearOrder α]

/-- `sorted` is the list in ascending order. -/
structure Sorts (sorted l : List α) : Prop where
  perm : sorted.Perm l
  ascending : sorted.Pairwise (· ≤ ·)

theorem sorts_insertionSort (l : List α) : Sorts (l.insertionSort (· ≤ ·)) l :=
  ⟨List.perm_insertionSort _ l, List.pairwise_insertionSort _ l⟩

namespace Sorts

variable {sorted sorted' l : List α}

theorem length_eq (h : Sorts sorted l) : sorted.length = l.length := h.perm.length_eq

/-- The sorted form is unique. -/
theorem unique (h : Sorts sorted l) (h' : Sorts sorted' l) : sorted = sorted' :=
  (h.perm.trans h'.perm.symm).eq_of_pairwise (fun _ _ _ _ hab hba => le_antisymm hab hba)
    h.ascending h'.ascending

theorem getElem_le (h : Sorts sorted l) {i j : ℕ} (hij : i ≤ j) (hj : j < sorted.length) :
    sorted[i] ≤ sorted[j] := by
  rcases hij.eq_or_lt with rfl | hlt
  · exact le_rfl
  · exact List.pairwise_iff_getElem.mp h.ascending i j (by omega) hj hlt

/-- Only the entries behind a rank can exceed its entry. -/
theorem countP_lt_le (h : Sorts sorted l) {i : ℕ} (hi : i < sorted.length) :
    l.countP (fun x => decide (sorted[i] < x)) ≤ l.length - 1 - i := by
  have hfront : (sorted.take (i + 1)).countP (fun x => decide (sorted[i] < x)) = 0 := by
    rw [List.countP_eq_zero]
    intro x hx
    obtain ⟨j, hj, rfl⟩ := List.mem_iff_getElem.mp hx
    rw [List.getElem_take, decide_eq_true_eq, not_lt]
    rw [List.length_take] at hj
    exact h.getElem_le (by omega) hi
  rw [← h.perm.countP_eq, ← h.length_eq]
  calc sorted.countP (fun x => decide (sorted[i] < x))
      = ((sorted.take (i + 1)) ++ sorted.drop (i + 1)).countP fun x => decide (sorted[i] < x) := by
        rw [List.take_append_drop]
    _ = (sorted.drop (i + 1)).countP fun x => decide (sorted[i] < x) := by
        rw [List.countP_append, hfront, Nat.zero_add]
    _ ≤ (sorted.drop (i + 1)).length := List.countP_le_length
    _ = sorted.length - 1 - i := by rw [List.length_drop]; omega

/-- A least entry comes first, followed by the sorted rest. -/
theorem eq_cons (h : Sorts sorted l) {i : ℕ} (hi : i < l.length) (hleast : ∀ x ∈ l, l[i] ≤ x)
    (h' : Sorts sorted' (l.eraseIdx i)) : sorted = l[i] :: sorted' := by
  refine h.unique ⟨(h'.perm.cons l[i]).trans (List.getElem_cons_eraseIdx_perm hi), ?_⟩
  rw [List.pairwise_cons]
  refine ⟨fun x hx => hleast x ?_, h'.ascending⟩
  exact List.mem_of_mem_eraseIdx (h'.perm.mem_iff.mp hx)

end Sorts

/-- A count over two statistics, one below the other. -/
theorem countP_mono_of_le {l : List ι} {f g : ι → α} {t : α} (h : ∀ i ∈ l, f i ≤ g i) :
    l.countP (fun i => decide (t < f i)) ≤ (l.map g).countP fun x => decide (t < x) := by
  rw [List.countP_map]
  refine List.countP_mono_left fun i hi hlt => ?_
  rw [decide_eq_true_eq] at hlt
  exact decide_eq_true (hlt.trans_le (h i hi))

end OrderStatistics

/-! One pass over a list that keeps an element which no other one goes before. -/

namespace Extremes

variable {α : Type*} (before : α → α → Prop) [DecidableRel before]

/-- The element that is kept when one more is seen. -/
def keep (kept x : α) : α := if before x kept then x else kept

theorem foldl_keep_mem (l : List α) (start : α) :
    l.foldl (keep before) start = start ∨ l.foldl (keep before) start ∈ l := by
  induction l generalizing start with
  | nil => exact .inl rfl
  | cons x l ih =>
    rw [List.foldl_cons]
    obtain hstart | hmem := ih (keep before start x)
    · rw [hstart, keep]
      split_ifs
      · exact .inr List.mem_cons_self
      · exact .inl rfl
    · exact .inr (List.mem_cons_of_mem x hmem)

/-- Neither the start nor anything in the list goes before what is kept. -/
theorem not_before_foldl_keep (htrans : ∀ {x y z}, before x y → before y z → before x z)
    (hirrefl : ∀ x, ¬ before x x) (l : List α) (start : α) :
    ∀ x ∈ start :: l, ¬ before x (l.foldl (keep before) start) := by
  induction l using List.reverseRecOn with
  | nil =>
    intro x hx
    rw [List.mem_singleton.mp hx]
    exact hirrefl start
  | append_singleton l y ih =>
    intro x hx
    rw [List.foldl_append, List.foldl_cons, List.foldl_nil, keep]
    rw [← List.cons_append, List.mem_append, List.mem_singleton] at hx
    split_ifs with hy
    · obtain hold | rfl := hx
      · exact fun hbefore => ih x hold (htrans hbefore hy)
      · exact hirrefl x
    · obtain hold | rfl := hx
      · exact ih x hold
      · exact hy

end Extremes

/-! The intersection of two sorted lists in one pass over both. Of every element it keeps as many
copies as the list with fewer of them has. -/

namespace SortedIntersection

variable {α : Type*} [LinearOrder α]

/-- `std::set_intersection`. -/
def intersection : List α → List α → List α
  | [], _ => []
  | _, [] => []
  | x :: xs, y :: ys =>
    if x < y then intersection xs (y :: ys)
    else if y < x then intersection (x :: xs) ys
    else x :: intersection xs ys
termination_by xs ys => xs.length + ys.length

variable {xs ys : List α}

theorem intersection_sublist (xs ys : List α) : (intersection xs ys).Sublist xs := by
  induction xs, ys using intersection.induct with
  | case1 ys => simp [intersection]
  | case2 xs h => cases xs <;> simp [intersection]
  | case3 x xs y ys hlt ih =>
    rw [intersection, if_pos hlt]
    exact ih.cons x
  | case4 x xs y ys hlt hgt ih =>
    rw [intersection, if_neg hlt, if_pos hgt]
    exact ih
  | case5 x xs y ys hlt hgt ih =>
    rw [intersection, if_neg hlt, if_neg hgt]
    exact ih.cons_cons x

theorem pairwise_intersection (hx : xs.Pairwise (· ≤ ·)) :
    (intersection xs ys).Pairwise (· ≤ ·) :=
  hx.sublist (intersection_sublist xs ys)

/-- An element below the first of a sorted list is not in it. -/
theorem count_eq_zero_of_lt {a y : α} (hy : (y :: ys).Pairwise (· ≤ ·)) (hlt : a < y) :
    (y :: ys).count a = 0 := by
  apply List.count_eq_zero.mpr
  intro hmem
  rcases List.mem_cons.mp hmem with rfl | hmem
  · exact lt_irrefl a hlt
  · exact absurd ((List.pairwise_cons.mp hy).1 a hmem) (not_le.mpr hlt)

theorem count_intersection (hx : xs.Pairwise (· ≤ ·)) (hy : ys.Pairwise (· ≤ ·)) (a : α) :
    (intersection xs ys).count a = min (xs.count a) (ys.count a) := by
  induction xs, ys using intersection.induct with
  | case1 ys => simp [intersection]
  | case2 xs h => cases xs <;> simp [intersection]
  | case3 x xs y ys hlt ih =>
    rw [intersection, if_pos hlt, ih (List.pairwise_cons.mp hx).2 hy]
    by_cases hxa : x = a
    · subst hxa
      rw [count_eq_zero_of_lt hy hlt, Nat.min_zero, Nat.min_zero]
    · simp [hxa]
  | case4 x xs y ys hlt hgt ih =>
    rw [intersection, if_neg hlt, if_pos hgt, ih hx (List.pairwise_cons.mp hy).2]
    by_cases hya : y = a
    · subst hya
      rw [count_eq_zero_of_lt hx hgt, Nat.zero_min, Nat.zero_min]
    · simp [hya]
  | case5 x xs y ys hlt hgt ih =>
    obtain rfl : x = y := le_antisymm (not_lt.mp hgt) (not_lt.mp hlt)
    rw [intersection, if_neg hlt, if_neg hgt, List.count_cons, List.count_cons, List.count_cons,
      ih (List.pairwise_cons.mp hx).2 (List.pairwise_cons.mp hy).2]
    split_ifs <;> omega

theorem mem_intersection (hx : xs.Pairwise (· ≤ ·)) (hy : ys.Pairwise (· ≤ ·)) {a : α} :
    a ∈ intersection xs ys ↔ a ∈ xs ∧ a ∈ ys := by
  rw [← List.count_pos_iff, count_intersection hx hy, Nat.lt_min, List.count_pos_iff,
    List.count_pos_iff]

end SortedIntersection
