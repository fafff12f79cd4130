import SurfaceAi.Library.Rows
import Mathlib.Algebra.BigOperators.Fin
import Mathlib.Algebra.BigOperators.Group.List.Basic
import Mathlib.Data.List.GetD
import Mathlib.Data.Matrix.Mul

/-! Vectors and square matrices that are kept in flat lists, row after row, as the vectors and
matrices of the library. Entries that a list does not have count as zero. -/

namespace FlatMatrix

open Matrix

section Entries

variable {R : Type*} [Zero R]

def vecOf (n : ℕ) (x : List R) : Fin n → R := fun i => x.getD i 0

def matOf (n : ℕ) (a : List R) : Matrix (Fin n) (Fin n) R := fun i j => a.getD (i * n + j) 0

/-- The flat list of a matrix given by its entries. -/
def tabulate (n : ℕ) (f : ℕ → ℕ → R) : List R :=
  (List.range n).flatMap fun i => (List.range n).map (f i)

theorem getD_map_range {n i : ℕ} (hi : i < n) (f : ℕ → R) :
    ((List.range n).map f).getD i 0 = f i := by
  rw [List.getD_eq_getElem _ _ (by simpa using hi)]
  simp

@[simp] theorem vecOf_map_range (n : ℕ) (f : ℕ → R) :
    vecOf n ((List.range n).map f) = fun i : Fin n => f i := by
  funext i
  exact getD_map_range i.isLt f

@[simp] theorem matOf_tabulate (n : ℕ) (f : ℕ → ℕ → R) :
    matOf n (tabulate n f) = fun i j : Fin n => f i j := by
  funext i j
  have hentry : (tabulate n f)[i * n + j]? = some (f i j) := by
    rw [tabulate, Rows.getElem?_flatMap (fun x _ => by simp) j.isLt]
    simp
  rw [matOf, List.getD_eq_getElem?_getD, hentry, Option.getD_some]

omit [Zero R] in
theorem length_tabulate (n : ℕ) (f : ℕ → ℕ → R) : (tabulate n f).length = n * n := by
  simp [tabulate, List.length_flatMap]

theorem tabulate_inj {n : ℕ} {f g : ℕ → ℕ → R} :
    tabulate n f = tabulate n g ↔ ∀ i < n, ∀ j < n, f i j = g i j := by
  constructor
  · intro h i hi j hj
    have hmat := congrArg (matOf n) h
    rw [matOf_tabulate, matOf_tabulate] at hmat
    exact congrFun (congrFun hmat ⟨i, hi⟩) ⟨j, hj⟩
  · intro h
    rw [tabulate, tabulate, List.flatMap_def, List.flatMap_def]
    refine congrArg List.flatten (List.map_congr_left fun i hi => List.map_congr_left fun j hj => ?_)
    exact h i (List.mem_range.mp hi) j (List.mem_range.mp hj)

theorem getD_row {n i j : ℕ} (a : List R) (hj : j < n) :
    (Rows.row n i a).getD j 0 = a.getD (i * n + j) 0 := by
  rw [Rows.row, List.getD_eq_getElem?_getD, List.getElem?_take_of_lt hj, List.getElem?_drop,
    List.getD_eq_getElem?_getD]

/-- A row of the flat list is the row of the matrix. -/
theorem vecOf_row {n : ℕ} (a : List R) (i : Fin n) : vecOf n (Rows.row n i a) = matOf n a i := by
  funext j
  exact getD_row a j.isLt

/-- Lists of the same vector are equal. -/
theorem eq_of_vecOf_eq {n : ℕ} {x y : List R} (hx : x.length = n) (hy : y.length = n)
    (h : vecOf n x = vecOf n y) : x = y := by
  apply List.ext_getElem (hx.trans hy.symm)
  intro i hi hi'
  have hentry := congrFun h ⟨i, hx ▸ hi⟩
  rwa [vecOf, vecOf, List.getD_eq_getElem _ _ hi, List.getD_eq_getElem _ _ hi'] at hentry

theorem map_range_getD {n : ℕ} {x : List R} (hx : x.length = n) :
    (List.range n).map (x.getD · 0) = x :=
  eq_of_vecOf_eq (by simp) hx (vecOf_map_range n _)

theorem zipWith_eq_map_range {β : Type*} {n : ℕ} {x y : List R} (f : R → R → β)
    (hx : x.length = n) (hy : y.length = n) :
    List.zipWith f x y = (List.range n).map fun j => f (x.getD j 0) (y.getD j 0) := by
  conv_lhs => rw [← map_range_getD hx, ← map_range_getD hy]
  rw [List.zipWith_map, List.zipWith_self]

end Entries

section Sums

theorem sum_map_range {R : Type*} [AddCommMonoid R] (n : ℕ) (f : ℕ → R) :
    ((List.range n).map f).sum = ∑ i : Fin n, f i := by
  rw [Fin.sum_univ_eq_sum_range, Finset.sum_eq_multiset_sum]
  rfl

variable {R : Type*} [NonUnitalNonAssocSemiring R]

/-- The inner product of two lists. -/
theorem sum_zipWith_mul {n : ℕ} {x y : List R} (hx : x.length = n) (hy : y.length = n) :
    (List.zipWith (· * ·) x y).sum = vecOf n x ⬝ᵥ vecOf n y := by
  rw [zipWith_eq_map_range _ hx hy, sum_map_range]
  rfl

end Sums

end FlatMatrix
