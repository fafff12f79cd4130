import Mathlib.Data.List.Basic

/-! Runs of a service that answers calls one after the other. An exchange is one call
with the state before it, the answer and the state after it. -/

namespace Exchanges

variable {S C R : Type*}

structure Exchange (S C R : Type*) where
  before : S
  call : C
  reply : R
  after : S

variable (serve : C → S → R × S)

def exchange (s : S) (c : C) : Exchange S C R := ⟨s, c, (serve c s).1, (serve c s).2⟩

/-- The exchanges of a run, in order. -/
def exchanges : S → List C → List (Exchange S C R)
  | _, [] => []
  | s, c :: cs => exchange serve s c :: exchanges (serve c s).2 cs

variable {serve} {I : S → Prop} {P Q : Exchange S C R → Prop}

/-- A property holds at every exchange of a run exactly if a condition does, when the two
agree for one exchange after an invariant that the property keeps. -/
theorem forall_iff (hPQ : ∀ s c, I s → (P (exchange serve s c) ↔ Q (exchange serve s c)))
    (hI : ∀ s c, I s → P (exchange serve s c) → I (serve c s).2) {s : S} (hs : I s)
    (cs : List C) :
    (∀ e ∈ exchanges serve s cs, P e) ↔ ∀ e ∈ exchanges serve s cs, Q e := by
  induction cs generalizing s with
  | nil => simp [exchanges]
  | cons c cs ih =>
    simp only [exchanges, List.forall_mem_cons]
    constructor
    · rintro ⟨hP, hrest⟩
      exact ⟨(hPQ s c hs).mp hP, (ih (hI s c hs hP)).mp hrest⟩
    · rintro ⟨hQ, hrest⟩
      have hP := (hPQ s c hs).mpr hQ
      exact ⟨hP, (ih (hI s c hs hP)).mpr hrest⟩

/-- What holds of one exchange after an invariant that every call keeps holds throughout a run. -/
theorem forall_of_invariant (hP : ∀ s c, I s → P (exchange serve s c))
    (hI : ∀ s c, I s → I (serve c s).2) {s : S} (hs : I s) (cs : List C) :
    ∀ e ∈ exchanges serve s cs, P e := by
  induction cs generalizing s with
  | nil => simp [exchanges]
  | cons c cs ih =>
    rw [exchanges, List.forall_mem_cons]
    exact ⟨hP s c hs, ih (hI s c hs)⟩

end Exchanges
