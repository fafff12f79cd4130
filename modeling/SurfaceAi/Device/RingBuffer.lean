import SurfaceAi.Library.Checked
import SurfaceAi.Library.Returns
import SurfaceAi.Library.Ring
import SurfaceAi.Library.Transition

/-! The ring buffer between a camera and its readers. A push into a full ring takes the place
of the oldest item. Every call holds the mutex, so a run is a list of calls. -/

namespace SurfaceAi.Device

structure RingBuffer (α : Type) where
  slots : List (Option α)
  capacity : ℕ
  head : ℕ
  tail : ℕ
  count : ℕ
  droppedCount : ℕ
  deriving DecidableEq

namespace RingBuffer

variable {α : Type}

def create (capacity : ℕ) : RingBuffer α where
  slots := List.replicate capacity none
  capacity := capacity
  head := 0
  tail := 0
  count := 0
  droppedCount := 0

section Calls
variable (r : RingBuffer α)

/-- Overwrite the oldest unread element. There is no result if the slot is outside the vector. -/
def dropOldest : Option (RingBuffer α) := do
  let slots ← Checked.store r.slots r.tail none
  some { r with
    slots := slots
    tail := (r.tail + 1) % r.capacity
    droppedCount := r.droppedCount + 1 }

/-- Write at the head. -/
def append (item : α) : Option (RingBuffer α) := do
  let slots ← Checked.store r.slots r.head (some item)
  some { r with
    slots := slots
    head := (r.head + 1) % r.capacity
    count := if r.count < r.capacity then r.count + 1 else r.count }

def push (item : α) : Option (RingBuffer α) :=
  if r.capacity = 0 then some { r with droppedCount := r.droppedCount + 1 }
  else if r.count = r.capacity then r.dropOldest.bind fun r => r.append item
  else r.append item

/-- The slot is dereferenced unchecked: an empty one has no result. -/
def tryPop : Option (Option α × RingBuffer α) :=
  if r.capacity = 0 then some (none, r)
  else if r.count = 0 then some (none, r)
  else do
    let item ← r.slots[r.tail]?.join
    let slots ← Checked.store r.slots r.tail none
    some (some item, { r with
      slots := slots
      tail := (r.tail + 1) % r.capacity
      count := r.count - 1 })

def size : ℕ := r.count

end Calls

/-- The last `n` items. -/
def newest (n : ℕ) (items : List α) : List α := items.drop (items.length - n)

@[simp] theorem length_newest (n : ℕ) (items : List α) :
    (newest n items).length = min n items.length := by
  rw [newest, List.length_drop]
  omega

theorem newest_of_le {n : ℕ} {items : List α} (h : items.length ≤ n) : newest n items = items := by
  rw [newest, Nat.sub_eq_zero_of_le h, List.drop_zero]

/-- What falls out of the last `n` items when one more comes. -/
def overwritten (n : ℕ) (items : List α) (x : α) : List α :=
  (items ++ [x]).take (items.length + 1 - n)

theorem overwritten_append_newest (n : ℕ) (items : List α) (x : α) :
    overwritten n items x ++ newest n (items ++ [x]) = items ++ [x] := by
  rw [overwritten, newest, List.length_append, List.length_singleton]
  exact List.take_append_drop _ _

theorem length_overwritten (n : ℕ) (items : List α) (x : α) :
    (overwritten n items x).length = items.length + 1 - n := by
  rw [overwritten, List.length_take, List.length_append, List.length_singleton]
  omega

/-- Only the last `n` items matter for the last `n` after a push. -/
theorem newest_append (n : ℕ) (items : List α) (x : α) :
    newest n (newest n items ++ [x]) = newest n (items ++ [x]) := by
  have hdrop : newest n items ++ [x] = (items ++ [x]).drop (items.length - n) := by
    rw [List.drop_append_of_le_length (Nat.sub_le _ _)]
    rfl
  rw [newest, hdrop, newest, List.drop_drop, List.length_drop, List.length_append,
    List.length_singleton]
  congr 1
  omega

/-! ### What the ring holds -/

/-- The slots hold the items in order, and `dropped` others have been overwritten. -/
structure Lays (r : RingBuffer α) (capacity : ℕ) (items : List α) (dropped : ℕ) : Prop where
  capacity_eq : r.capacity = capacity
  length_eq : r.slots.length = capacity
  filled : Ring.Filled r.slots r.tail items
  tail_eq : r.tail % capacity = r.tail
  head_eq : r.head = (r.tail + items.length) % capacity
  dropped_eq : r.droppedCount = dropped

/-- Between two calls the items are counted. -/
structure Keeps (r : RingBuffer α) (capacity : ℕ) (items : List α) (dropped : ℕ) : Prop
    extends r.Lays capacity items dropped where
  count_eq : r.count = items.length

theorem keeps_create (capacity : ℕ) : (create capacity : RingBuffer α).Keeps capacity [] 0 where
  capacity_eq := rfl
  length_eq := List.length_replicate
  filled := Ring.Filled.nil capacity 0
  tail_eq := Nat.zero_mod capacity
  head_eq := (Nat.zero_mod capacity).symm
  dropped_eq := rfl
  count_eq := rfl

variable {r : RingBuffer α} {capacity dropped : ℕ} {items : List α} {x : α}

namespace Lays

theorem length_le (h : r.Lays capacity items dropped) : items.length ≤ capacity :=
  h.length_eq ▸ h.filled.fits

/-- There is room: the item goes behind the last one. -/
theorem append (h : r.Lays capacity items dropped) (hroom : items.length < capacity) (item : α) :
    Returns (r.append item) fun r' => r'.Lays capacity (items ++ [item]) dropped ∧
      r'.count = if r.count < capacity then r.count + 1 else r.count := by
  have hhead : r.head < r.slots.length := by
    rw [h.head_eq, h.length_eq]
    exact Nat.mod_lt _ (Nat.zero_lt_of_lt hroom)
  have hfilled := h.filled.push (h.length_eq ▸ hroom) item
  rw [h.length_eq, ← h.head_eq] at hfilled
  have hnext : (r.head + 1) % r.capacity = (r.tail + (items ++ [item]).length) % capacity := by
    rw [h.capacity_eq, h.head_eq, List.length_append, List.length_singleton, Nat.mod_add_mod,
      Nat.add_assoc]
  rw [RingBuffer.append, Checked.store, if_pos hhead, h.capacity_eq]
  rw [h.capacity_eq] at hnext
  exact Returns.some ⟨⟨rfl, (List.length_set ..).trans h.length_eq, hfilled, h.tail_eq, hnext,
    h.dropped_eq⟩, rfl⟩

/-- The slot of the oldest item is emptied and the tail moves past it. -/
theorem emptied (h : r.Lays capacity (x :: items) dropped) :
    r.tail < r.slots.length ∧
      Ring.Filled (r.slots.set r.tail none) ((r.tail + 1) % capacity) items ∧
      (r.tail + 1) % capacity % capacity = (r.tail + 1) % capacity ∧
      r.head = ((r.tail + 1) % capacity + items.length) % capacity := by
  have hpos : 0 < capacity := Nat.lt_of_lt_of_le (Nat.succ_pos _) h.length_le
  have hfilled := h.filled.pop.mod_start
  rw [List.length_set, h.length_eq, h.tail_eq] at hfilled
  refine ⟨?_, hfilled, Nat.mod_mod _ _, ?_⟩
  · rw [h.length_eq, ← h.tail_eq]
    exact Nat.mod_lt _ hpos
  · rw [h.head_eq, List.length_cons, Nat.mod_add_mod]
    congr 1
    omega

theorem dropOldest (h : r.Lays capacity (x :: items) dropped) :
    Returns r.dropOldest fun r' => r'.Lays capacity items (dropped + 1) ∧ r'.count = r.count := by
  obtain ⟨htail, hfilled, hmod, hhead⟩ := h.emptied
  rw [RingBuffer.dropOldest, Checked.store, if_pos htail, h.capacity_eq]
  exact Returns.some ⟨⟨rfl, (List.length_set ..).trans h.length_eq, hfilled, hmod, hhead,
    congrArg (· + 1) h.dropped_eq⟩, rfl⟩

end Lays

namespace Keeps

/-- A push keeps the newest items, and counts the one that fell out. -/
theorem push (h : r.Keeps capacity items dropped) (item : α) :
    Returns (r.push item) fun r' => r'.Keeps capacity (newest capacity (items ++ [item]))
      (dropped + (overwritten capacity items item).length) := by
  have hle := h.length_le
  rw [length_overwritten, RingBuffer.push, h.capacity_eq, h.count_eq]
  rcases Nat.eq_zero_or_pos capacity with rfl | hpos
  · obtain rfl : items = [] := List.length_eq_zero_iff.mp (Nat.le_zero.mp hle)
    rw [if_pos rfl]
    exact Returns.some ⟨⟨rfl, h.length_eq, h.filled, h.tail_eq, h.head_eq,
      congrArg (· + 1) h.dropped_eq⟩, rfl⟩
  · rw [if_neg hpos.ne']
    split_ifs with hfull
    · -- The oldest item makes room, so the count stays.
      obtain ⟨y, rest, rfl⟩ := List.exists_cons_of_length_pos (hfull ▸ hpos)
      have hnewest : newest capacity (y :: rest ++ [item]) = rest ++ [item] := by
        rw [newest, List.length_append, List.length_singleton, hfull, Nat.add_sub_cancel_left]
        rfl
      rw [hnewest, hfull, Nat.add_sub_cancel_left]
      rw [List.length_cons] at hfull
      refine h.dropOldest.bind fun r₁ h₁ => ?_
      refine (h₁.1.append (by omega) item).mono fun r₂ h₂ => ⟨h₂.1, ?_⟩
      rw [h₂.2, h₁.2, h.count_eq, List.length_cons, hfull, if_neg (Nat.lt_irrefl _),
        List.length_append, List.length_singleton, ← hfull]
    · have hroom : items.length < capacity := by omega
      rw [newest_of_le (by rw [List.length_append]; exact hroom), Nat.sub_eq_zero_of_le hroom]
      refine (h.append hroom item).mono fun r' h' => ⟨h'.1, ?_⟩
      rw [h'.2, h.count_eq, if_pos hroom, List.length_append, List.length_singleton]

/-- A pop takes the oldest item; of an empty ring, it does nothing. -/
theorem tryPop (h : r.Keeps capacity items dropped) :
    Returns r.tryPop fun out => out.1 = items.head? ∧ out.2.Keeps capacity items.tail dropped := by
  rw [RingBuffer.tryPop, h.capacity_eq, h.count_eq]
  cases items with
  | nil =>
    simp only [List.length_nil, if_true, ite_self]
    exact Returns.some ⟨rfl, h⟩
  | cons x items =>
    obtain ⟨htail, hfilled, hmod, hhead⟩ := h.emptied
    have hfirst := h.filled.first
    rw [h.length_eq, h.tail_eq] at hfirst
    have hpos : 0 < capacity := Nat.lt_of_lt_of_le (Nat.succ_pos _) h.length_le
    rw [if_neg hpos.ne', if_neg (List.cons_ne_nil x items ∘ List.length_eq_zero_iff.mp), hfirst,
      Checked.store, if_pos htail]
    refine Returns.some ⟨rfl, ⟨⟨rfl, ?_, hfilled, hmod, hhead, h.dropped_eq⟩, rfl⟩⟩
    exact (List.length_set ..).trans h.length_eq

theorem size_eq (h : r.Keeps capacity items dropped) : r.size = items.length := h.count_eq

end Keeps

/-! ### Runs -/

inductive Call (α : Type) where
  | push (item : α)
  | tryPop

/-- One call, with the items popped so far. -/
def serve (s : RingBuffer α × List α) : Call α → Option (RingBuffer α × List α)
  | .push item => (s.1.push item).map fun r => (r, s.2)
  | .tryPop => s.1.tryPop.map fun out => (out.2, s.2 ++ out.1.toList)

def run (capacity : ℕ) (calls : List (Call α)) : Option (RingBuffer α × List α) :=
  Transition.run serve (create capacity, []) calls

def pushed (calls : List (Call α)) : List α :=
  calls.filterMap fun
    | .push item => some item
    | .tryPop => none

/-- The frames as a reader sees them, without a ring: those behind the last one popped, which
a push only adds to; those popped; and those that fell out of the newest. -/
structure Feed (α : Type) where
  unread : List α
  popped : List α
  overwritten : List α

namespace Feed

/-- The last `min(capacity, unread)` items. -/
def held (capacity : ℕ) (f : Feed α) : List α := newest capacity f.unread

def next (capacity : ℕ) (f : Feed α) : Call α → Feed α
  | .push item =>
    { f with
      unread := f.unread ++ [item]
      overwritten := f.overwritten ++ RingBuffer.overwritten capacity (f.held capacity) item }
  | .tryPop =>
    match f.held capacity with
    | [] => f
    | item :: rest => { f with unread := rest, popped := f.popped ++ [item] }

def after (capacity : ℕ) (calls : List (Call α)) : Feed α :=
  calls.foldl (next capacity) ⟨[], [], []⟩

theorem after_append (capacity : ℕ) (calls : List (Call α)) (c : Call α) :
    after capacity (calls ++ [c]) = (after capacity calls).next capacity c := by
  rw [after, List.foldl_append]
  rfl

theorem held_nil (capacity : ℕ) : (after capacity ([] : List (Call α))).held capacity = [] :=
  List.drop_nil

@[simp] theorem held_push (capacity : ℕ) (f : Feed α) (item : α) :
    (f.next capacity (.push item)).held capacity = newest capacity (f.held capacity ++ [item]) :=
  (newest_append capacity f.unread item).symm

theorem held_tryPop (capacity : ℕ) (f : Feed α) :
    (f.next capacity .tryPop).held capacity = (f.held capacity).tail := by
  simp only [next]
  split
  · next hheld => rw [hheld, List.tail_nil]
  · next item rest hheld =>
    have hle : rest.length ≤ capacity := by
      have := congrArg List.length hheld
      rw [held, length_newest, List.length_cons] at this
      omega
    rw [hheld, held, newest_of_le hle, List.tail_cons]

theorem popped_tryPop (capacity : ℕ) (f : Feed α) :
    (f.next capacity .tryPop).popped = f.popped ++ (f.held capacity).head?.toList := by
  simp only [next]
  split
  · next hheld => simp [hheld]
  · next hheld => simp [hheld]

theorem overwritten_tryPop (capacity : ℕ) (f : Feed α) :
    (f.next capacity .tryPop).overwritten = f.overwritten := by
  simp only [next]
  split <;> rfl

theorem unread_next (capacity : ℕ) (f : Feed α) (c : Call α) :
    (f.next capacity c).unread <:+ f.unread ++ pushed [c] := by
  cases c with
  | push item => exact List.suffix_refl _
  | tryPop =>
    rw [show pushed [.tryPop] = ([] : List α) from rfl, List.append_nil]
    simp only [next]
    split
    · exact List.suffix_refl _
    · next item rest hheld =>
      have hdrop : f.held capacity <:+ f.unread := List.drop_suffix _ _
      rw [hheld] at hdrop
      exact (List.suffix_cons item rest).trans hdrop

/-- A call loses no item and doubles none. -/
theorem next_perm (capacity : ℕ) (f : Feed α) (c : Call α) :
    let f' := f.next capacity c
    (f'.overwritten ++ f'.popped ++ f'.held capacity).Perm
      (f.overwritten ++ f.popped ++ f.held capacity ++ pushed [c]) := by
  intro f'
  cases c with
  | push item =>
    have hsplit := overwritten_append_newest capacity (f.held capacity) item
    have hmove : (RingBuffer.overwritten capacity (f.held capacity) item ++ f.popped ++
        newest capacity (f.held capacity ++ [item])).Perm
          (f.popped ++ (f.held capacity ++ [item])) := by
      nth_rewrite 2 [← hsplit]
      rw [← List.append_assoc]
      exact List.perm_append_comm.append_right _
    have hleft : f'.overwritten ++ f'.popped ++ f'.held capacity =
        f.overwritten ++ (RingBuffer.overwritten capacity (f.held capacity) item ++ f.popped ++
          newest capacity (f.held capacity ++ [item])) := by
      rw [held_push]
      simp only [f', next, List.append_assoc]
    have hright : f.overwritten ++ f.popped ++ f.held capacity ++ pushed [.push item] =
        f.overwritten ++ (f.popped ++ (f.held capacity ++ [item])) := by
      simp only [List.append_assoc]
      rfl
    rw [hleft, hright]
    exact hmove.append_left _
  | tryPop =>
    have hsplit : (f.held capacity).head?.toList ++ (f.held capacity).tail = f.held capacity := by
      cases f.held capacity <;> rfl
    have heq : f'.overwritten ++ f'.popped ++ f'.held capacity =
        f.overwritten ++ f.popped ++ f.held capacity ++ pushed [.tryPop] := by
      rw [overwritten_tryPop, popped_tryPop, held_tryPop, ← List.append_assoc,
        List.append_assoc _ _ (f.held capacity).tail, hsplit]
      exact (List.append_nil _).symm
    exact List.Perm.of_eq heq

theorem pushed_append (calls : List (Call α)) (c : Call α) :
    pushed (calls ++ [c]) = pushed calls ++ pushed [c] := List.filterMap_append ..

/-- The unread items are the last ones pushed. -/
theorem unread_suffix (capacity : ℕ) (calls : List (Call α)) :
    (after capacity calls).unread <:+ pushed calls := by
  induction calls using List.reverseRecOn with
  | nil => exact List.suffix_refl _
  | append_singleton calls c ih =>
    rw [after_append, pushed_append]
    exact (unread_next capacity _ c).trans (List.suffix_append_self_iff.mpr ih)

/-- Every item pushed was popped, has fallen out, or is held. -/
theorem perm_pushed (capacity : ℕ) (calls : List (Call α)) :
    let f := after capacity calls
    (f.overwritten ++ f.popped ++ f.held capacity).Perm (pushed calls) := by
  induction calls using List.reverseRecOn with
  | nil => exact List.Perm.of_eq (held_nil capacity)
  | append_singleton calls c ih =>
    rw [after_append, pushed_append]
    exact (next_perm capacity _ c).trans (ih.append_right _)

/-- With no slot, every item falls out. -/
theorem overwritten_of_zero (calls : List (Call α)) :
    (after 0 calls).overwritten = pushed calls := by
  induction calls using List.reverseRecOn with
  | nil => rfl
  | append_singleton calls c ih =>
    have hheld : (after 0 calls).held 0 = [] := List.drop_length
    rw [after_append, pushed_append]
    cases c with
    | push item =>
      change (after 0 calls).overwritten ++ RingBuffer.overwritten 0 _ item = _
      rw [ih, hheld]
      rfl
    | tryPop =>
      rw [overwritten_tryPop, ih]
      exact (List.append_nil _).symm

end Feed

/-- The ring in step with the feed. -/
theorem serve_keeps {f : Feed α} (h : r.Keeps capacity (f.held capacity) f.overwritten.length)
    (c : Call α) :
    Returns (serve (r, f.popped) c) fun s =>
      s.1.Keeps capacity ((f.next capacity c).held capacity)
        (f.next capacity c).overwritten.length ∧
      s.2 = (f.next capacity c).popped := by
  cases c with
  | push item =>
    refine (h.push item).map fun r' h' => ⟨?_, rfl⟩
    rw [Feed.held_push]
    exact (List.length_append ..) ▸ h'
  | tryPop =>
    refine h.tryPop.map fun out hout => ?_
    rw [Feed.held_tryPop, Feed.overwritten_tryPop, Feed.popped_tryPop, hout.1]
    exact ⟨hout.2, rfl⟩

theorem run_keeps (capacity : ℕ) (calls : List (Call α)) :
    ∃ r : RingBuffer α, run capacity calls = some (r, (Feed.after capacity calls).popped) ∧
      r.Keeps capacity ((Feed.after capacity calls).held capacity)
        (Feed.after capacity calls).overwritten.length := by
  induction calls using List.reverseRecOn with
  | nil => exact ⟨create capacity, rfl, (Feed.held_nil capacity).symm ▸ keeps_create capacity⟩
  | append_singleton calls c ih =>
    obtain ⟨r, hrun, hkeeps⟩ := ih
    obtain ⟨⟨r', popped'⟩, hserve, hkeeps', hpopped⟩ := serve_keeps hkeeps c
    rw [run] at hrun ⊢
    refine ⟨r', ?_, Feed.after_append capacity calls c ▸ hkeeps'⟩
    rw [Transition.run_append, hrun, Feed.after_append, ← hpopped]
    change (serve (r, _) c).bind some = _
    rw [hserve]
    rfl

/-- After every sequence of calls the ring holds the last `min(capacity, unread)` of the items
behind the last one popped, in push order and in no other slots; it counts them, and counts
those that were overwritten; every item pushed was popped, was overwritten or is held; and the
next call meets no empty slot where it dereferences one. -/
theorem keeps_newest (capacity : ℕ) (calls : List (Call α)) :
    ∃ r : RingBuffer α, run capacity calls = some (r, (Feed.after capacity calls).popped) ∧
      let f := Feed.after capacity calls
      (f.unread <:+ pushed calls ∧ f.held capacity <:+ f.unread ∧
        Ring.Filled r.slots r.tail (f.held capacity) ∧
        Ring.stored r.slots r.tail r.size = (f.held capacity).map some) ∧
      r.size = min capacity f.unread.length ∧
      (r.droppedCount = f.overwritten.length ∧
        (capacity = 0 → r.droppedCount = (pushed calls).length)) ∧
      ((f.overwritten ++ f.popped ++ f.held capacity).Perm (pushed calls) ∧
        (pushed calls).length = f.popped.length + r.size + r.droppedCount) ∧
      (∃ r', r.tryPop = some ((f.held capacity).head?, r')) ∧
      ∀ item, ∃ r', r.push item = some r' := by
  obtain ⟨r, hrun, h⟩ := run_keeps capacity calls
  have hperm := Feed.perm_pushed capacity calls
  have hlen := hperm.length_eq
  simp only [List.length_append] at hlen
  obtain ⟨⟨popped, r'⟩, htry, rfl, -⟩ := h.tryPop
  refine ⟨r, hrun, ⟨Feed.unread_suffix capacity calls, List.drop_suffix _ _, h.filled, ?_⟩, ?_,
    ⟨h.dropped_eq, ?_⟩, ⟨hperm, ?_⟩, ⟨r', htry⟩, ?_⟩
  · rw [h.size_eq]
    exact h.filled.stored_eq
  · rw [h.size_eq]
    exact length_newest capacity _
  · rintro rfl
    rw [h.dropped_eq, Feed.overwritten_of_zero]
  · rw [h.size_eq, h.dropped_eq]
    omega
  · intro item
    obtain ⟨r'', hpush, -⟩ := h.push item
    exact ⟨r'', hpush⟩

/-- The third push takes the place of the first. -/
example : (run 2 [.push 1, .push 2, .push 3, .tryPop, .tryPop, .tryPop]).map
    (fun s => (s.2, s.1.size, s.1.droppedCount)) = some ([2, 3], 0, 1) := by decide

end RingBuffer

end SurfaceAi.Device
