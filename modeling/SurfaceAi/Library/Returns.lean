import Mathlib.Data.List.Basic

/-! Total correctness of partial computations. A computation in `Option` returns a value that
satisfies a postcondition; the rules follow the shape of a program. -/

/-- The computation is defined, and its value satisfies `Q`. -/
def Returns {α : Type*} (x : Option α) (Q : α → Prop) : Prop := ∃ a, x = some a ∧ Q a

namespace Returns

variable {α β : Type*} {x : Option α} {Q Q' : α → Prop} {R : β → Prop}

theorem some {a : α} (h : Q a) : Returns (some a) Q := ⟨a, rfl, h⟩

theorem mono (h : Returns x Q) (hQ : ∀ a, Q a → Q' a) : Returns x Q' := by
  obtain ⟨a, ha, hq⟩ := h
  exact ⟨a, ha, hQ a hq⟩

theorem map (h : Returns x Q) {f : α → β} (hf : ∀ a, Q a → R (f a)) : Returns (x.map f) R := by
  obtain ⟨a, rfl, hq⟩ := h
  exact ⟨f a, rfl, hf a hq⟩

theorem bind {x : Option α} {f : α → Option β} (h : Returns x Q)
    (hf : ∀ a, Q a → Returns (f a) R) : Returns (x.bind f) R := by
  obtain ⟨a, rfl, hq⟩ := h
  exact hf a hq

theorem ite {c : Prop} [Decidable c] {y : Option α} (hx : c → Returns x Q)
    (hy : ¬c → Returns y Q) : Returns (if c then x else y) Q := by
  split
  · next hc => exact hx hc
  · next hc => exact hy hc

/-- The value is the only one a defined computation has. -/
theorem of_eq_some {a : α} (h : Returns x Q) (hx : x = Option.some a) : Q a := by
  obtain ⟨b, hb, hq⟩ := h
  rw [hx] at hb
  cases hb
  exact hq

theorem mapM {l : List α} {f : α → Option β} (h : ∀ a ∈ l, Returns (f a) fun _ => True) :
    Returns (l.mapM f) fun bs => bs.length = l.length := by
  induction l with
  | nil => exact ⟨[], rfl, rfl⟩
  | cons a l ih =>
    obtain ⟨b, hb, -⟩ := h a List.mem_cons_self
    obtain ⟨bs, hbs, hlen⟩ := ih fun a' ha' => h a' (List.mem_cons_of_mem a ha')
    refine ⟨b :: bs, ?_, by simp [hlen]⟩
    rw [List.mapM_cons, hb, hbs]
    rfl

/-- Lists of one length, one behind the other. -/
theorem mapM_flatten {l : List α} {f : α → Option (List β)} {c : ℕ}
    (h : ∀ a ∈ l, Returns (f a) fun b => b.length = c) :
    Returns (l.mapM f) fun bs => bs.flatten.length = l.length * c := by
  induction l with
  | nil => exact ⟨[], rfl, (Nat.zero_mul c).symm⟩
  | cons a l ih =>
    obtain ⟨b, hb, hlen⟩ := h a List.mem_cons_self
    obtain ⟨bs, hbs, hlens⟩ := ih fun a' ha' => h a' (List.mem_cons_of_mem a ha')
    refine ⟨b :: bs, by rw [List.mapM_cons, hb, hbs]; rfl, ?_⟩
    change (b :: bs).flatten.length = (l.length + 1) * c
    rw [List.flatten_cons, List.length_append, hlen, hlens, Nat.succ_mul, Nat.add_comm]

/-- A loop whose turns all have a value. -/
theorem mapM_eq_map {l : List α} {f : α → Option β} {g : α → β}
    (h : ∀ a ∈ l, f a = Option.some (g a)) : l.mapM f = Option.some (l.map g) := by
  induction l with
  | nil => rfl
  | cons a l ih =>
    rw [List.forall_mem_cons] at h
    rw [List.mapM_cons, h.1, ih h.2]
    rfl

theorem isSome_mapM {f : α → Option β} (l : List α) :
    (l.mapM f).isSome ↔ ∀ a ∈ l, (f a).isSome := by
  induction l with
  | nil => simp
  | cons a l ih =>
    rw [List.mapM_cons, List.forall_mem_cons, ← ih]
    cases f a with
    | none => simp
    | some b => cases l.mapM f <;> simp

/-- An invariant of a loop over a list. -/
theorem foldlM {l : List α} {f : β → α → Option β} {b : β} (hb : R b)
    (hstep : ∀ b, ∀ a ∈ l, R b → Returns (f b a) R) : Returns (l.foldlM f b) R := by
  induction l generalizing b with
  | nil => exact .some hb
  | cons a l ih =>
    obtain ⟨b', hb', hR⟩ := hstep b a List.mem_cons_self hb
    rw [List.foldlM_cons, hb']
    exact ih hR fun b a' ha' => hstep b a' (List.mem_cons_of_mem a ha')

/-- What every turn of a loop preserves holds of the value the loop ends with. -/
theorem foldlM_preserves {l : List α} {f : β → α → Option β} {b result : β}
    (hstep : ∀ b a b', f b a = Option.some b' → R b → R b') (hb : R b)
    (h : l.foldlM f b = Option.some result) : R result := by
  induction l generalizing b with
  | nil => exact Option.some.inj h ▸ hb
  | cons a l ih =>
    rw [List.foldlM_cons] at h
    obtain ⟨b', hturn, hrest⟩ := Option.bind_eq_some_iff.mp h
    exact ih (hstep b a b' hturn hb) hrest

/-- A loop is defined when each of its turns is, for turns whose definedness is their own. -/
theorem isSome_foldlM {f : β → α → Option β} (hf : ∀ b a, (f b a).isSome ↔ Q a) (l : List α)
    (b : β) : (l.foldlM f b).isSome ↔ ∀ a ∈ l, Q a := by
  induction l generalizing b with
  | nil => simp
  | cons a l ih =>
    rw [List.foldlM_cons, List.forall_mem_cons, ← hf b a]
    cases f b a with
    | none => simp
    | some b' => simpa using ih b'

/-- A loop whose turns all have a value, whatever the state before. -/
theorem foldlM_eq_foldl {f : β → α → Option β} {g : β → α → β} {l : List α}
    (h : ∀ a ∈ l, ∀ b, f b a = Option.some (g b a)) (b : β) :
    l.foldlM f b = Option.some (l.foldl g b) := by
  induction l generalizing b with
  | nil => rfl
  | cons a l ih =>
    rw [List.forall_mem_cons] at h
    rw [List.foldlM_cons, h.1 b, List.foldl_cons]
    exact ih h.2 (g b a)

end Returns
