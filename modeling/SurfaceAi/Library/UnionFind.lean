import Mathlib.Data.Nat.Basic
import Mathlib.Logic.Function.Iterate
import Mathlib.Logic.Relation
import Mathlib.Order.MinMax
import Mathlib.Tactic.SplitIfs

/-! Union-find on a list of parents that never lie above their children, and the classes that such a
forest gives the vertices of a growing graph. Halving a path keeps every root; hanging one root below
a smaller one merges two classes. -/

namespace UnionFind

/-- The parent of a node; a node behind the end is its own. -/
def up (parent : List ℕ) (i : ℕ) : ℕ := parent.getD i i

/-- Parents never lie above their children. -/
def Falling (parent : List ℕ) : Prop := ∀ i, up parent i ≤ i

/-- The end of the way up, which takes at most as many steps as the node's own number. -/
def root (parent : List ℕ) (i : ℕ) : ℕ := (up parent)^[i] i

variable {parent : List ℕ} {i j n : ℕ}

theorem falling_nil : Falling [] := fun _ => le_rfl

theorem root_of_up (h : up parent i = i) : root parent i = i := Function.iterate_fixed h i

/-- Steps beyond the node's own number stay at the root. -/
theorem iterate_up (hfalling : Falling parent) (hle : i ≤ n) :
    (up parent)^[n] i = root parent i := by
  induction i using Nat.strongRecOn generalizing n with
  | ind i ih =>
    by_cases hfixed : up parent i = i
    · rw [root_of_up hfixed, Function.iterate_fixed hfixed]
    · have hlt : up parent i < i := lt_of_le_of_ne (hfalling i) hfixed
      obtain ⟨m, rfl⟩ : ∃ m, i = m + 1 := ⟨i - 1, by omega⟩
      obtain ⟨n, rfl⟩ : ∃ k, n = k + 1 := ⟨n - 1, by omega⟩
      rw [root, Function.iterate_succ_apply, Function.iterate_succ_apply,
        ih _ hlt (by omega), ih _ hlt (by omega)]

/-- The parent has the same root. -/
theorem root_up (hfalling : Falling parent) (i : ℕ) : root parent (up parent i) = root parent i := by
  rw [← iterate_up hfalling (Nat.le_succ i), Function.iterate_succ_apply,
    iterate_up hfalling (hfalling i)]

theorem up_root (hfalling : Falling parent) (i : ℕ) :
    up parent (root parent i) = root parent i := by
  have hstep := iterate_up hfalling (Nat.le_succ i)
  rwa [Function.iterate_succ_apply'] at hstep

theorem root_le (hfalling : Falling parent) (i : ℕ) : root parent i ≤ i := by
  induction i using Nat.strongRecOn with
  | ind i ih =>
    by_cases hfixed : up parent i = i
    · exact (root_of_up hfixed).le
    · rw [← root_up hfalling]
      exact (ih _ (lt_of_le_of_ne (hfalling i) hfixed)).trans (hfalling i)

/-! ### Changes -/

theorem up_set (h : i < parent.length) (g j : ℕ) :
    up (parent.set i g) j = if j = i then g else up parent j := by
  rw [up, List.getD_eq_getElem?_getD, List.getElem?_set]
  by_cases hij : i = j
  · subst hij
    simp [h]
  · rw [if_neg hij, if_neg (Ne.symm hij), up, List.getD_eq_getElem?_getD]

/-- A new node that is its own parent changes nothing for the way up. -/
theorem up_append (parent : List ℕ) : up (parent ++ [parent.length]) = up parent := by
  funext i
  rw [up, up, List.getD_eq_getElem?_getD, List.getD_eq_getElem?_getD]
  rcases lt_trichotomy i parent.length with hlt | rfl | hlt
  · rw [List.getElem?_append_left hlt]
  · simp
  · rw [List.getElem?_eq_none (by simp; omega), List.getElem?_eq_none (by omega)]

theorem falling_append (hfalling : Falling parent) : Falling (parent ++ [parent.length]) := by
  rw [Falling, up_append]
  exact hfalling

theorem root_append (parent : List ℕ) : root (parent ++ [parent.length]) = root parent := by
  funext i
  rw [root, root, up_append]

theorem falling_set (hfalling : Falling parent) {g : ℕ} (hg : g ≤ i) : Falling (parent.set i g) := by
  by_cases hi : i < parent.length
  · intro j
    rw [up_set hi]
    split_ifs with hji
    · exact hji ▸ hg
    · exact hfalling j
  · rw [List.set_eq_of_length_le (by omega)]
    exact hfalling

/-- Passing to another node on the same way up keeps every root. -/
theorem root_set_of_root_eq (hfalling : Falling parent) {g : ℕ} (hg : g < i)
    (hroot : root parent g = root parent i) (j : ℕ) :
    root (parent.set i g) j = root parent j := by
  by_cases hi : i < parent.length
  · have hfalling' := falling_set hfalling hg.le
    induction j using Nat.strongRecOn with
    | ind j ih =>
      rw [← root_up hfalling' j, up_set hi]
      by_cases hji : j = i
      · subst hji
        rw [if_pos rfl, ih g hg, hroot]
      · rw [if_neg hji]
        by_cases hfixed : up parent j = j
        · have hfixed' : up (parent.set i g) j = j := by rw [up_set hi, if_neg hji, hfixed]
          rw [hfixed, root_of_up hfixed', root_of_up hfixed]
        · rw [ih _ (lt_of_le_of_ne (hfalling j) hfixed), root_up hfalling]
  · rw [List.set_eq_of_length_le (by omega)]

/-- A root hung below a smaller one takes its class along. -/
theorem root_union (hfalling : Falling parent) {a b : ℕ} (ha : up parent a = a)
    (hb : up parent b = b) (hab : a < b) (hlt : b < parent.length) (j : ℕ) :
    root (parent.set b a) j = if root parent j = b then a else root parent j := by
  have hfalling' := falling_set hfalling hab.le
  have ha' : root (parent.set b a) a = a :=
    root_of_up (by rw [up_set hlt, if_neg hab.ne, ha])
  induction j using Nat.strongRecOn with
  | ind j ih =>
    rw [← root_up hfalling' j, up_set hlt]
    by_cases hjb : j = b
    · subst hjb
      rw [if_pos rfl, ha', root_of_up hb, if_pos rfl]
    · rw [if_neg hjb]
      by_cases hfixed : up parent j = j
      · have hfixed' : up (parent.set b a) j = j := by rw [up_set hlt, if_neg hjb, hfixed]
        rw [hfixed, root_of_up hfixed', root_of_up hfixed, if_neg hjb]
      · rw [ih _ (lt_of_le_of_ne (hfalling j) hfixed), root_up hfalling]

/-- The larger of two roots is hung below the smaller. -/
def link (parent : List ℕ) (a b : ℕ) : List ℕ :=
  if a = b then parent else parent.set (max a b) (min a b)

/-- What becomes of a root when two roots are linked. -/
def linked (a b q : ℕ) : ℕ := if q = max a b then min a b else q

theorem length_link (parent : List ℕ) (a b : ℕ) : (link parent a b).length = parent.length := by
  rw [link]
  split_ifs
  · rfl
  · exact List.length_set ..

theorem falling_link (hfalling : Falling parent) (a b : ℕ) : Falling (link parent a b) := by
  rw [link]
  split_ifs
  · exact hfalling
  · exact falling_set hfalling (by omega)

theorem linked_eq_min {a b q : ℕ} : linked a b q = min a b ↔ q = a ∨ q = b := by
  rw [linked]
  split_ifs <;> omega

/-- Only the two roots become one. -/
theorem eq_or_of_linked_eq {a b q q' : ℕ} (h : linked a b q = linked a b q') :
    q = q' ∨ (q = a ∨ q = b) ∧ (q' = a ∨ q' = b) := by
  rw [linked, linked] at h
  split_ifs at h <;> omega

theorem root_link (hfalling : Falling parent) {a b : ℕ} (ha : up parent a = a)
    (hb : up parent b = b) (halt : a < parent.length) (hblt : b < parent.length) (j : ℕ) :
    root (link parent a b) j = linked a b (root parent j) := by
  rw [link, linked]
  rcases lt_trichotomy a b with hab | rfl | hab
  · rw [if_neg hab.ne, max_eq_right hab.le, min_eq_left hab.le]
    exact root_union hfalling ha hb hab hblt j
  · rw [if_pos rfl, max_self, min_self]
    split_ifs with hroot
    · exact hroot
    · rfl
  · rw [if_neg hab.ne', max_eq_left hab.le, min_eq_right hab.le]
    exact root_union hfalling hb ha hab halt j

/-! ### Classes of a growing graph -/

section Classes

open Relation

variable {V C : Type*} {E E' : V → V → Prop} {c c' : V → Option C}

/-- Vertices with a class have the same one exactly when edges join them. -/
structure Classifies (E : V → V → Prop) (c : V → Option C) : Prop where
  sound : ∀ v w, E v w → c v = c w
  complete : ∀ v w r, c v = some r → c w = some r → EqvGen E v w

theorem Classifies.eq_of_eqvGen (h : Classifies E c) {v w : V} (hvw : EqvGen E v w) : c v = c w := by
  induction hvw with
  | rel v w hvw => exact h.sound v w hvw
  | refl v => rfl
  | symm v w _ ih => exact ih.symm
  | trans v w x _ _ hvw hwx => exact hvw.trans hwx

/-- A new vertex with edges from some old ones. It joins their classes, which become one, and no
others. -/
theorem Classifies.grow (h : Classifies E c) {new : V} {near : V → Prop} (f : C → C) (r : C)
    (hedges : ∀ v w, E' v w ↔ E v w ∨ w = new ∧ near v) (hold : ∀ v w, E v w → v ≠ new ∧ w ≠ new)
    (hnone : c new = none) (hnew : c' new = some r) (hmap : ∀ v, v ≠ new → c' v = (c v).map f)
    (hnear : ∀ v, near v → ∃ q, c v = some q ∧ f q = r)
    (hmerge : ∀ q q', f q = f q' →
      q = q' ∨ (∃ v, near v ∧ c v = some q) ∧ ∃ v, near v ∧ c v = some q')
    (honly : ∀ v q, c v = some q → f q = r → ∃ w, near w ∧ c w = some q) : Classifies E' c' := by
  have hne : ∀ v q, c v = some q → v ≠ new := by
    rintro v q hv rfl
    rw [hnone] at hv
    cases hv
  have hmono : ∀ v w, EqvGen E v w → EqvGen E' v w :=
    fun v w hvw => EqvGen.mono (fun v w h => (hedges v w).mpr (.inl h)) v w hvw
  -- a class of a vertex near the new one is joined to it
  have hjoin : ∀ v q, c v = some q → (∃ w, near w ∧ c w = some q) → EqvGen E' v new := by
    rintro v q hv ⟨w, hw, hq⟩
    have hedge : E' w new := (hedges w new).mpr (.inr ⟨rfl, hw⟩)
    exact (hmono _ _ (h.complete v w q hv hq)).trans _ _ _ (.rel _ _ hedge)
  constructor
  · intro v w hvw
    rcases (hedges v w).mp hvw with hvw | ⟨rfl, hv⟩
    · obtain ⟨hv, hw⟩ := hold v w hvw
      rw [hmap v hv, hmap w hw, h.sound v w hvw]
    · obtain ⟨q, hq, rfl⟩ := hnear v hv
      rw [hnew, hmap v (hne v q hq), hq, Option.map_some]
  · intro v w s hv hw
    by_cases hvn : v = new
    · by_cases hwn : w = new
      · rw [hvn, hwn]
        exact .refl _
      · subst hvn
        obtain rfl := Option.some.inj (hnew.symm.trans hv)
        obtain ⟨q, hq, hfq⟩ := Option.map_eq_some_iff.mp ((hmap w hwn).symm.trans hw)
        exact (hjoin w q hq (honly w q hq hfq)).symm
    · obtain ⟨q, hq, hfq⟩ := Option.map_eq_some_iff.mp ((hmap v hvn).symm.trans hv)
      by_cases hwn : w = new
      · subst hwn
        obtain rfl := Option.some.inj (hnew.symm.trans hw)
        exact hjoin v q hq (honly v q hq hfq)
      · obtain ⟨q', hq', hfq'⟩ := Option.map_eq_some_iff.mp ((hmap w hwn).symm.trans hw)
        rcases hmerge q q' (hfq.trans hfq'.symm) with rfl | ⟨hfirst, hsecond⟩
        · exact hmono _ _ (h.complete v w q hq hq')
        · exact (hjoin v q hq hfirst).trans _ _ _ (hjoin w q' hq' hsecond).symm

end Classes

end UnionFind
