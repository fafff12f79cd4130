import Mathlib.Algebra.BigOperators.Group.List.Basic
import Mathlib.Algebra.Order.Group.Multiset
import Mathlib.Data.List.Basic

/-! Sums over a list whose terms may depend on the position. Replacing one entry
changes one term, so a sum is a remainder plus the term of any chosen position. -/

namespace Tally

variable {β M : Type*} [AddCommMonoid M]

/-- The sum of `f i (l i)` over the positions of the list. -/
def indexed (f : ℕ → β → M) (l : List β) : M := (l.mapIdx f).sum

@[simp] theorem indexed_nil (f : ℕ → β → M) : indexed f [] = 0 := rfl

@[simp] theorem indexed_cons (f : ℕ → β → M) (b : β) (l : List β) :
    indexed f (b :: l) = f 0 b + indexed (fun i => f (i + 1)) l := by
  rw [indexed, List.mapIdx_cons, List.sum_cons]
  rfl

/-- The remainder of a sum beside one position, whatever stands there. -/
theorem exists_remainder (f : ℕ → β → M) {l : List β} {i : ℕ} {b : β} (h : l[i]? = some b) :
    ∃ r, indexed f l = r + f i b ∧ ∀ c, indexed f (l.set i c) = r + f i c := by
  induction l generalizing f i with
  | nil => simp at h
  | cons a l ih =>
    cases i with
    | zero =>
      obtain rfl : a = b := by simpa using h
      refine ⟨indexed (fun i => f (i + 1)) l, ?_, fun c => ?_⟩
      · rw [indexed_cons, add_comm]
      · rw [List.set_cons_zero, indexed_cons, add_comm]
    | succ i =>
      obtain ⟨r, hr, hset⟩ := ih (fun i => f (i + 1)) (by simpa using h)
      refine ⟨f 0 a + r, ?_, fun c => ?_⟩
      · rw [indexed_cons, hr, add_assoc]
      · rw [List.set_cons_succ, indexed_cons, hset, add_assoc]

/-- A sum of zeros. -/
theorem indexed_eq_zero {f : ℕ → β → M} {l : List β} (h : ∀ i b, l[i]? = some b → f i b = 0) :
    indexed f l = 0 := by
  induction l generalizing f with
  | nil => rfl
  | cons b l ih =>
    rw [indexed_cons, h 0 b rfl, ih fun i c hc => h (i + 1) c hc, add_zero]

/-- Only the first term counts. -/
theorem indexed_eq_head {f : ℕ → β → M} {l : List β}
    (h : ∀ i b, l[i]? = some b → i ≠ 0 → f i b = 0) : indexed f l = l[0]?.elim 0 (f 0) := by
  cases l with
  | nil => rfl
  | cons b l =>
    rw [indexed_cons, indexed_eq_zero fun i c hc => h (i + 1) c hc (Nat.succ_ne_zero i), add_zero]
    rfl

/-- What a sum of multisets contains. -/
theorem mem_indexed {γ : Type*} {f : ℕ → β → Multiset γ} {l : List β} {x : γ} :
    x ∈ indexed f l ↔ ∃ i b, l[i]? = some b ∧ x ∈ f i b := by
  induction l generalizing f with
  | nil => simp
  | cons b l ih =>
    rw [indexed_cons, Multiset.mem_add, ih]
    constructor
    · rintro (hx | ⟨i, c, hc, hx⟩)
      · exact ⟨0, b, rfl, hx⟩
      · exact ⟨i + 1, c, hc, hx⟩
    · rintro ⟨i, c, hc, hx⟩
      cases i with
      | zero =>
        obtain rfl : b = c := by simpa using hc
        exact .inl hx
      | succ i => exact .inr ⟨i, c, by simpa using hc, hx⟩

end Tally
