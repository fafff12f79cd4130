import Mathlib.Algebra.BigOperators.Group.List.Basic
import Mathlib.Data.List.AList
import Mathlib.Data.List.Basic
import Mathlib.Logic.Function.Basic

/-! Folds into a map. Each element of a list changes the value at its own key, from what is there.
What a key holds in the end depends on the elements with that key alone, in their order. -/

namespace KeyedFold

variable {α K V : Type*} [DecidableEq K] (key : α → K) (f : Option V → α → V)

def fold (l : List α) (m : AList fun _ : K => V) : AList fun _ : K => V :=
  l.foldl (fun m a => m.insert (key a) (f (m.lookup (key a)) a)) m

/-- The value at a key after the elements with that key. -/
def value (l : List α) (o : Option V) : Option V := l.foldl (fun o a => some (f o a)) o

@[simp] theorem value_nil (o : Option V) : value f [] o = o := rfl

@[simp] theorem value_cons (a : α) (l : List α) (o : Option V) :
    value f (a :: l) o = value f l (some (f o a)) := rfl

variable {key f} {l : List α} {m : AList fun _ : K => V} {k : K}

theorem lookup_fold :
    (fold key f l m).lookup k = value f (l.filter fun a => key a = k) (m.lookup k) := by
  induction l generalizing m with
  | nil => rfl
  | cons a l ih =>
    rw [fold, List.foldl_cons, List.filter_cons]
    by_cases hk : key a = k
    · subst hk
      rw [if_pos (decide_eq_true rfl)]
      exact ih.trans (by rw [AList.lookup_insert]; rfl)
    · rw [if_neg (by simpa using hk)]
      exact ih.trans (by rw [AList.lookup_insert_ne (Ne.symm hk)])

theorem value_isSome (o : Option V) : (value f l o).isSome ↔ o.isSome ∨ l ≠ [] := by
  induction l generalizing o with
  | nil => simp
  | cons a l ih => simp [ih]

theorem mem_fold : k ∈ fold key f l m ↔ k ∈ m ∨ ∃ a ∈ l, key a = k := by
  rw [← AList.lookup_isSome, lookup_fold, value_isSome, AList.lookup_isSome]
  simp [List.filter_eq_nil_iff]

/-- Where each element replaces what is there, the last one stays. -/
theorem value_replace (g : α → V) (o : Option V) :
    value (fun _ a => g a) l o = (l.getLast?.map g).or o := by
  induction l generalizing o with
  | nil => rfl
  | cons a l ih =>
    rw [value_cons, ih]
    cases l with
    | nil => rfl
    | cons b l => simp [List.getLast?_cons]

/-- Where each element keeps what is there, the first one stays. -/
theorem value_keep (g : α → V) (o : Option V) :
    value (fun o a => o.getD (g a)) l o = o.or (l.head?.map g) := by
  induction l generalizing o with
  | nil => simp
  | cons a l ih =>
    rw [value_cons, ih]
    cases o <;> rfl

/-! ### Fields of a value, which is a default value before the first element -/

variable {M : Type*} (f) (g : V → M) {t : α → M} {z : V}

/-- A field that no element changes. -/
theorem field_value_keep (hg : ∀ o a, g (f o a) = g (o.getD z)) (l : List α) (o : Option V) :
    g ((value f l o).getD z) = g (o.getD z) := by
  induction l generalizing o with
  | nil => rfl
  | cons a l ih => exact (ih _).trans (hg o a)

/-- A field that each element replaces. -/
theorem field_value_replace (hg : ∀ o a, g (f o a) = t a) (l : List α) (o : Option V) :
    g ((value f l o).getD z) = (l.getLast?.map t).getD (g (o.getD z)) := by
  induction l generalizing o with
  | nil => rfl
  | cons a l ih =>
    rw [value_cons, ih]
    cases l with
    | nil => exact hg o a
    | cons b l => simp [List.getLast?_cons]

/-- A field to which each element adds. -/
theorem field_value_add [AddMonoid M] (hg : ∀ o a, g (f o a) = g (o.getD z) + t a) (l : List α)
    (o : Option V) : g ((value f l o).getD z) = g (o.getD z) + (l.map t).sum := by
  induction l generalizing o with
  | nil => exact (add_zero _).symm
  | cons a l ih =>
    rw [value_cons, ih, Option.getD_some, hg, List.map_cons, List.sum_cons, add_assoc]

end KeyedFold

/-! Sequences of writes to a store. The last write to a key decides its value; a key that is
not written keeps its own. -/

namespace Writes

variable {K V : Type*} [DecidableEq K]

def writes (store : K → V) (entries : List (K × V)) : K → V :=
  entries.foldl (fun store e => Function.update store e.1 e.2) store

@[simp] theorem writes_nil (store : K → V) : writes store [] = store := rfl

@[simp] theorem writes_cons (store : K → V) (e : K × V) (entries : List (K × V)) :
    writes store (e :: entries) = writes (Function.update store e.1 e.2) entries := rfl

variable {store store' : K → V} {entries : List (K × V)} {k : K}

theorem writes_of_notMem (h : k ∉ entries.map Prod.fst) : writes store entries k = store k := by
  induction entries generalizing store with
  | nil => rfl
  | cons e entries ih =>
    rw [List.map_cons, List.mem_cons, not_or] at h
    rw [writes_cons, ih h.2, Function.update_of_ne h.1]

/-- What a written key holds does not depend on the store. -/
theorem writes_of_mem (h : k ∈ entries.map Prod.fst) :
    writes store entries k = writes store' entries k := by
  induction entries generalizing store store' with
  | nil => cases h
  | cons e entries ih =>
    rw [writes_cons, writes_cons]
    by_cases hk : k ∈ entries.map Prod.fst
    · exact ih hk
    · have he : k = e.1 := (List.mem_cons.mp h).resolve_right hk
      rw [writes_of_notMem hk, writes_of_notMem hk, he, Function.update_self, Function.update_self]

theorem writes_writes : writes (writes store entries) entries = writes store entries := by
  funext k
  by_cases hk : k ∈ entries.map Prod.fst
  · exact writes_of_mem hk
  · exact writes_of_notMem hk

end Writes
