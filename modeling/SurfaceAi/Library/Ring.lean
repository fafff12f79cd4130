import Mathlib.Data.Nat.ModEq
import Mathlib.Data.List.Basic

/-! A bounded queue in a ring of slots. One slot more than the queue may hold is kept, so
that the ring is empty exactly when both its ends meet. Slots outside the queue may hold
anything. -/

namespace Ring

variable {α : Type*}

/-- Two places less than a turn apart are different slots. -/
theorem slot_ne {n i j : ℕ} (head : ℕ) (hij : i < j) (hj : j < i + n) :
    (head + i) % n ≠ (head + j) % n := by
  intro h
  have hmod : i ≡ j [MOD n] := Nat.ModEq.add_left_cancel' head h
  have hdvd : n ∣ j - i := (Nat.modEq_iff_dvd' hij.le).mp hmod
  have := Nat.le_of_dvd (by omega) hdvd
  omega

theorem slot_ne_head {n j : ℕ} (head : ℕ) (hpos : 0 < j) (hj : j < n) :
    (head + j) % n ≠ head % n := by
  have := @slot_ne n 0 j head hpos (by omega)
  simpa using this.symm

theorem slot_lt {n : ℕ} (head i : ℕ) (hn : 0 < n) : (head + i) % n < n := Nat.mod_lt _ hn

/-- Every place has the slot of one in the turn from `head` on. -/
theorem exists_slot_eq {n : ℕ} (hn : 0 < n) (head place : ℕ) :
    ∃ i < n, (head + i) % n = place % n := by
  obtain ⟨m, rfl⟩ := Nat.exists_eq_succ_of_ne_zero hn.ne'
  refine ⟨(place + m * head) % (m + 1), Nat.mod_lt _ hn, ?_⟩
  have hsum : head + (place + m * head) = place + (m + 1) * head := by
    rw [Nat.succ_mul]
    omega
  rw [Nat.add_mod_mod, hsum, Nat.add_mul_mod_self_left]

theorem slot_succ (n head i : ℕ) : ((head + 1) % n + i) % n = (head + (i + 1)) % n := by
  rw [Nat.mod_add_mod]
  congr 1
  omega

/-- The slots from `head` on hold the items in order, and there is a slot to spare. -/
structure Holds (slots : List (Option α)) (head : ℕ) (items : List α) : Prop where
  room : items.length < slots.length
  slot : ∀ i x, items[i]? = some x → slots[(head + i) % slots.length]? = some (some x)

/-- What stands in `count` slots from `head` on. -/
def stored (slots : List (Option α)) (head count : ℕ) : List (Option α) :=
  (List.range count).map fun i => slots[(head + i) % slots.length]?.join

namespace Holds

variable {slots : List (Option α)} {head : ℕ} {items : List α} {x : α}

theorem nil (head : ℕ) (h : 0 < slots.length) : Holds slots head [] where
  room := h
  slot := by simp

theorem stored_eq (h : Holds slots head items) :
    stored slots head items.length = items.map some := by
  apply List.ext_getElem
  · simp [stored]
  · intro i hi _
    have hi : i < items.length := by simpa [stored] using hi
    have := h.slot i items[i] (List.getElem?_eq_getElem hi)
    simp [stored, this]

/-- Writing a slot that holds no item changes nothing. -/
theorem write (h : Holds slots head items) {k : ℕ} {v : Option α}
    (hk : ∀ i < items.length, (head + i) % slots.length ≠ k) : Holds (slots.set k v) head items where
  room := by simpa using h.room
  slot := by
    intro i x hx
    have hi : i < items.length := (List.getElem?_eq_some_iff.mp hx).1
    rw [List.length_set, List.getElem?_set_ne (hk i hi).symm]
    exact h.slot i x hx

/-- The slot behind the last item is no item's. -/
theorem back_ne (h : Holds slots head items) :
    ∀ i < items.length, (head + i) % slots.length ≠ (head + items.length) % slots.length := by
  intro i hi
  have := h.room
  exact slot_ne head hi (by omega)

/-- The ring is taken to reach one slot further. -/
theorem append (h : Holds slots head items) (hroom : items.length + 1 < slots.length)
    (hx : slots[(head + items.length) % slots.length]? = some (some x)) :
    Holds slots head (items ++ [x]) where
  room := by simpa using hroom
  slot := by
    intro i y hy
    rcases Nat.lt_or_ge i items.length with hi | hi
    · rw [List.getElem?_append_left hi] at hy
      exact h.slot i y hy
    · rw [List.getElem?_append_right hi] at hy
      obtain ⟨hzero, rfl⟩ := List.getElem?_eq_some_iff.mp hy
      have hi : i = items.length := by simp at hzero; omega
      subst hi
      simpa using hx

theorem push (h : Holds slots head items) (hroom : items.length + 1 < slots.length) (x : α) :
    Holds (slots.set ((head + items.length) % slots.length) (some x)) head (items ++ [x]) := by
  have hlt : (head + items.length) % slots.length < slots.length := slot_lt _ _ (by omega)
  apply append (h.write h.back_ne)
  · simpa using hroom
  · simp [hlt]

theorem first (h : Holds slots head (x :: items)) :
    slots[head % slots.length]? = some (some x) := h.slot 0 x rfl

theorem tail (h : Holds slots head (x :: items)) : Holds slots (head + 1) items where
  room := by have := h.room; simp at this; omega
  slot := by
    intro i y hy
    rw [show head + 1 + i = head + (i + 1) by omega]
    exact h.slot (i + 1) y (by simpa using hy)

/-- The head may be counted on past the end or taken as a slot. -/
theorem mod_head_iff : Holds slots (head % slots.length) items ↔ Holds slots head items := by
  constructor
  · intro h
    exact ⟨h.room, fun i x hx => by simpa using h.slot i x hx⟩
  · intro h
    exact ⟨h.room, fun i x hx => by simpa using h.slot i x hx⟩

/-- The ends meet exactly when nothing is held. -/
theorem back_eq_head_iff (h : Holds slots head items) :
    (head + items.length) % slots.length = head % slots.length ↔ items = [] := by
  constructor
  · intro heq
    by_contra hne
    have hpos : 0 < items.length := List.length_pos_iff.mpr hne
    exact slot_ne_head head hpos h.room heq
  · rintro rfl
    simp

/-- The slot to spare is the last one exactly when the ring is full. -/
theorem next_eq_head_iff (h : Holds slots head items) :
    (head + items.length + 1) % slots.length = head % slots.length ↔
      items.length + 1 = slots.length := by
  have := h.room
  constructor
  · intro heq
    by_contra hne
    exact slot_ne_head head (Nat.succ_pos items.length) (by omega) heq
  · intro heq
    rw [Nat.add_assoc, heq, Nat.add_mod_right]

/-- The number of items from the two ends. -/
theorem length_eq (h : Holds slots head items) (hhead : head < slots.length) :
    items.length =
      if head ≤ (head + items.length) % slots.length then
        (head + items.length) % slots.length - head
      else slots.length - head + (head + items.length) % slots.length := by
  have := h.room
  rcases Nat.lt_or_ge (head + items.length) slots.length with hlt | hge
  · rw [Nat.mod_eq_of_lt hlt]
    split_ifs <;> omega
  · rw [Nat.mod_eq_sub_mod hge, Nat.mod_eq_of_lt (by omega)]
    split_ifs <;> omega

end Holds

/-- The slots from `start` on hold the items in order, and the other slots are empty. -/
structure Filled (slots : List (Option α)) (start : ℕ) (items : List α) : Prop where
  fits : items.length ≤ slots.length
  slot : ∀ i < slots.length, slots[(start + i) % slots.length]? = some items[i]?

namespace Filled

variable {slots : List (Option α)} {start : ℕ} {items : List α} {x : α}

theorem nil (n start : ℕ) : Filled (List.replicate n (none : Option α)) start [] where
  fits := Nat.zero_le _
  slot := by
    intro i hi
    have hlt := slot_lt start i (Nat.zero_lt_of_lt hi)
    rw [List.length_replicate] at hlt ⊢
    rw [List.getElem?_replicate, if_pos hlt, List.getElem?_nil]

/-- The start may be counted on past the end or taken as a slot. -/
theorem mod_start (h : Filled slots start items) :
    Filled slots (start % slots.length) items where
  fits := h.fits
  slot := by
    intro i hi
    rw [Nat.mod_add_mod]
    exact h.slot i hi

theorem first (h : Filled slots start (x :: items)) :
    slots[start % slots.length]? = some (some x) :=
  h.slot 0 (Nat.lt_of_lt_of_le (Nat.succ_pos _) h.fits)

theorem stored_eq (h : Filled slots start items) :
    stored slots start items.length = items.map some := by
  apply List.ext_getElem
  · simp [stored]
  · intro i hi _
    have hi : i < items.length := by simpa [stored] using hi
    have := h.slot i (Nat.lt_of_lt_of_le hi h.fits)
    simp [stored, this, hi]

/-- An item is added behind the last one. -/
theorem push (h : Filled slots start items) (hroom : items.length < slots.length) (x : α) :
    Filled (slots.set ((start + items.length) % slots.length) (some x)) start (items ++ [x]) where
  fits := by
    rw [List.length_append, List.length_set]
    exact hroom
  slot := by
    intro i hi
    rw [List.length_set] at hi ⊢
    rcases Nat.lt_trichotomy i items.length with hlt | rfl | hgt
    · have hne := slot_ne start hlt (by omega : items.length < i + slots.length)
      rw [List.getElem?_set_ne hne.symm, List.getElem?_append_left hlt]
      exact h.slot i hi
    · rw [List.getElem?_set_self (slot_lt _ _ (by omega)), List.getElem?_concat_length]
    · have hne := slot_ne start hgt (by omega : i < items.length + slots.length)
      rw [List.getElem?_set_ne hne, h.slot i hi, List.getElem?_eq_none hgt.le,
        List.getElem?_eq_none (by rw [List.length_append]; exact hgt)]

/-- The first item is taken out. -/
theorem pop (h : Filled slots start (x :: items)) :
    Filled (slots.set (start % slots.length) none) (start + 1) items where
  fits := by
    have := h.fits
    rw [List.length_cons] at this
    rw [List.length_set]
    omega
  slot := by
    intro i hi
    have hfits := h.fits
    rw [List.length_cons] at hfits
    rw [List.length_set] at hi ⊢
    rw [Nat.add_right_comm, Nat.add_assoc]
    rcases Nat.lt_or_ge (i + 1) slots.length with hlt | hge
    · have hne := slot_ne_head start (Nat.succ_pos i) hlt
      rw [List.getElem?_set_ne hne.symm, h.slot (i + 1) hlt, List.getElem?_cons_succ]
    · -- The slot that was emptied is the last one of the turn from the new start on.
      have hlast : i + 1 = slots.length := by omega
      rw [hlast, Nat.add_mod_right, List.getElem?_set_self (Nat.mod_lt _ (by omega)),
        List.getElem?_eq_none (show items.length ≤ i by omega)]

end Filled

end Ring

/-! A buffer that is written in turn, slot `i % n` getting item `i`: it holds the last `n` of the
items. -/

namespace RecentWindow

variable {α : Type*} {n : ℕ} {slots items : List α}

/-- The items that are not yet written over. -/
def recent (n : ℕ) (items : List α) : List α := items.drop (items.length - n)

/-- The buffer has `n` slots, and each recent item is in the slot of its turn. -/
structure Holds (n : ℕ) (slots items : List α) : Prop where
  length_eq : slots.length = n
  slot : ∀ i x, items.length ≤ i + n → items[i]? = some x → slots[i % n]? = some x

theorem holds_nil (h : slots.length = n) : Holds n slots [] where
  length_eq := h
  slot i x _ hx := by
    rw [List.getElem?_nil] at hx
    cases hx

/-- One more item, in the slot of its turn. -/
theorem Holds.push (h : Holds n slots items) (hn : 0 < n) (x : α) :
    Holds n (slots.set (items.length % n) x) (items ++ [x]) where
  length_eq := by rw [List.length_set, h.length_eq]
  slot := by
    intro i y hi hy
    rw [List.length_append, List.length_singleton] at hi
    rcases Nat.lt_or_ge i items.length with hold | hnew
    · rw [List.getElem?_append_left hold] at hy
      -- the slot that is written is that of the item that drops out
      have hslot : i % n ≠ items.length % n := by
        have hne := @Ring.slot_ne n 0 (items.length - i) i (by omega) (by omega)
        have hlast : i + (items.length - i) = items.length := by omega
        rwa [Nat.add_zero, hlast] at hne
      rw [List.getElem?_set_ne (Ne.symm hslot)]
      exact h.slot i y (by omega) hy
    · obtain rfl : i = items.length := by
        have hlt := (List.getElem?_eq_some_iff.mp hy).1
        rw [List.length_append, List.length_singleton] at hlt
        omega
      rw [List.getElem?_append_right (Nat.le_refl _), Nat.sub_self] at hy
      obtain rfl : x = y := Option.some.inj hy
      have hlt : items.length % n < slots.length := by
        rw [h.length_eq]
        exact Nat.mod_lt _ hn
      rw [List.getElem?_set_self hlt]

/-- The slots written so far hold the recent items and no others. -/
theorem Holds.mem_take (h : Holds n slots items) (hn : 0 < n) {x : α} :
    x ∈ slots.take (min items.length n) ↔ x ∈ recent n items := by
  rw [recent, List.mem_iff_getElem?, List.mem_iff_getElem?]
  constructor
  · rintro ⟨k, hk⟩
    rw [List.getElem?_take] at hk
    split_ifs at hk with hlt
    -- item `i` is the recent one whose turn is slot `k`
    obtain ⟨i, hi, hslot⟩ : ∃ i, (items.length ≤ i + n ∧ i < items.length) ∧ i % n = k := by
      rcases Nat.lt_or_ge items.length n with hpart | hfull
      · exact ⟨k, by omega, Nat.mod_eq_of_lt (by omega)⟩
      · obtain ⟨j, hj, heq⟩ := Ring.exists_slot_eq hn (items.length - n) k
        refine ⟨items.length - n + j, by omega, ?_⟩
        rw [heq, Nat.mod_eq_of_lt (by omega)]
    have hitem : items[i]? = some items[i] := List.getElem?_eq_getElem hi.2
    have hread := h.slot i _ hi.1 hitem
    rw [hslot, hk] at hread
    refine ⟨i - (items.length - n), ?_⟩
    rw [List.getElem?_drop, Nat.add_sub_cancel' (by omega), hitem, hread]
  · rintro ⟨k, hk⟩
    rw [List.getElem?_drop] at hk
    have hlt := (List.getElem?_eq_some_iff.mp hk).1
    have hslot := h.slot _ x (by omega) hk
    refine ⟨(items.length - n + k) % n, ?_⟩
    rw [List.getElem?_take, if_pos, hslot]
    rcases Nat.lt_or_ge items.length n with hpart | hfull
    · rw [Nat.mod_eq_of_lt (by omega)]
      omega
    · rw [Nat.min_eq_right hfull]
      exact Nat.mod_lt _ hn

theorem recent_ne_nil (hn : 0 < n) (h : items ≠ []) : recent n items ≠ [] := by
  have hpos := List.length_pos_iff.mpr h
  rw [recent, Ne, List.drop_eq_nil_iff]
  omega

end RecentWindow
