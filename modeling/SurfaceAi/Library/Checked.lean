import SurfaceAi.Library.Returns
import Mathlib.Algebra.BigOperators.Group.List.Basic
import Mathlib.Algebra.Group.Nat.Defs
import Mathlib.Data.List.GetD

/-! Buffers whose accesses are checked: a subscript outside its buffer has no result, nor has a
division by zero. A loop whose every turn has a result has one, and filling a buffer in raster
order leaves the grid of the values. -/

namespace Checked

variable {α σ : Type*}

/-- `buf[i] = a`. -/
def store (buf : List α) (i : ℕ) (a : α) : Option (List α) :=
  if i < buf.length then some (buf.set i a) else none

/-- `a / b` on unsigned numbers. -/
def divide (a b : ℕ) : Option ℕ := if b = 0 then none else some (a / b)

/-- `a / b` on numbers. -/
def quotient {F : Type*} [Zero F] [Div F] [DecidableEq F] (a b : F) : Option F :=
  if b = 0 then none else some (a / b)

/-- `buf[i] += a`. -/
def addAt [Add α] (buf : List α) (i : ℕ) (a : α) : Option (List α) := do
  store buf i ((← buf[i]?) + a)

/-- The entries from `start` on, `len` of them. -/
def slice (buf : List α) (start len : ℕ) : Option (List α) :=
  if start + len ≤ buf.length then some ((buf.drop start).take len) else none

/-- `std::copy` of the values to the entries from `pos` on. -/
def copy (buf : List α) (pos : ℕ) (values : List α) : Option (List α) :=
  if pos + values.length ≤ buf.length then
    some (buf.take pos ++ (values ++ buf.drop (pos + values.length)))
  else none

/-- `for (i = 0; i < n; ++i)`. -/
def loop (n : ℕ) (body : ℕ → σ → Option σ) (s : σ) : Option σ :=
  (List.range n).foldlM (fun s i => body i s) s

/-- `buf[base + i] = f(i)` for all `i < n`. -/
def fillLine (n base : ℕ) (f : ℕ → Option α) (buf : List α) : Option (List α) :=
  loop n (fun i buf => do store buf (base + i) (← f i)) buf

/-- `buf[y * w + x] = f(y, x)` in raster order, over a buffer of `h * w` equal entries. -/
def fillGrid (h w : ℕ) (a : α) (f : ℕ → ℕ → Option α) : Option (List α) :=
  loop h (fun y buf => fillLine w (y * w) (f y) buf) (List.replicate (h * w) a)

theorem divide_eq {b : ℕ} (a : ℕ) (hb : 0 < b) : divide a b = some (a / b) :=
  if_neg (Nat.ne_of_gt hb)

/-- A read in range. -/
theorem getElem?_eq_getD {buf : List α} {i : ℕ} (hi : i < buf.length) (a : α) :
    buf[i]? = some (buf.getD i a) := by
  rw [List.getElem?_eq_getElem hi, List.getD_eq_getElem _ _ hi]

/-- A read with a result is in range. -/
theorem lt_of_isSome_read {buf : List α} {i : ℕ} (h : (buf[i]?).isSome) : i < buf.length := by
  by_contra hlast
  rw [List.getElem?_eq_none (Nat.le_of_not_lt hlast)] at h
  cases h

theorem getLast?_eq_getLastD {buf : List α} (hne : buf ≠ []) (a : α) :
    buf.getLast? = some (buf.getLastD a) := by
  rw [List.getLastD_eq_getLast?, List.getLast?_eq_some_getLast hne]
  rfl

/-- The flat index of a row and a column. -/
theorem flat_lt {h w y x : ℕ} (hy : y < h) (hx : x < w) : y * w + x < h * w :=
  calc y * w + x < y * w + w := Nat.add_lt_add_left hx _
    _ = (y + 1) * w := (Nat.succ_mul y w).symm
    _ ≤ h * w := Nat.mul_le_mul_right w hy

/-- A block of a buffer that holds `n` blocks. -/
theorem slice_block {buf : List α} {i n d : ℕ} (hi : i < n) (hn : n * d ≤ buf.length) :
    slice buf (i * d) d = some ((buf.drop (i * d)).take d) := by
  have hlast : i * d + d ≤ n * d := by
    rw [← Nat.succ_mul]
    exact Nat.mul_le_mul_right d hi
  exact if_pos (Nat.le_trans hlast hn)

/-- The states that the turns go through. -/
theorem loop_eq {n : ℕ} {body : ℕ → σ → Option σ} (state : ℕ → σ)
    (hturn : ∀ i < n, body i (state i) = some (state (i + 1))) :
    loop n body (state 0) = some (state n) := by
  induction n with
  | zero => rfl
  | succ n ih =>
    have hrest : loop n body (state 0) = some (state n) :=
      ih fun i hi => hturn i (Nat.lt_succ_of_lt hi)
    rw [loop] at hrest ⊢
    rw [List.range_succ, List.foldlM_append, hrest]
    change (body n (state n) >>= pure) = _
    rw [hturn n (Nat.lt_succ_self n)]
    rfl

theorem store_append (front back : List α) (a b : α) :
    store (front ++ a :: back) front.length b = some (front ++ b :: back) := by
  rw [store, if_pos (by simp), List.set_append_right _ _ (Nat.le_refl _), Nat.sub_self]
  rfl

theorem fillLine_eq (front back : List α) (a : α) {n : ℕ} {f : ℕ → Option α} {g : ℕ → α}
    (hf : ∀ i < n, f i = some (g i)) :
    fillLine n front.length f (front ++ (List.replicate n a ++ back)) =
      some (front ++ ((List.range n).map g ++ back)) := by
  let state : ℕ → List α := fun i =>
    front ++ ((List.range i).map g ++ (List.replicate (n - i) a ++ back))
  have hturn : ∀ i < n, (do store (state i) (front.length + i) (← f i)) = some (state (i + 1)) := by
    intro i hi
    have hlast : n - i = n - (i + 1) + 1 := by omega
    have hlength : (front ++ (List.range i).map g).length = front.length + i := by simp
    rw [hf i hi]
    change store (state i) (front.length + i) (g i) = _
    simp only [state]
    rw [hlast, List.replicate_succ, List.cons_append, ← List.append_assoc, ← hlength, store_append,
      List.range_succ]
    simp
  have hloop : fillLine n front.length f (state 0) = some (state n) := loop_eq state hturn
  simpa [state] using hloop

theorem fillGrid_eq {a : α} {h w : ℕ} {f : ℕ → ℕ → Option α} {g : ℕ → ℕ → α}
    (hf : ∀ y < h, ∀ x < w, f y x = some (g y x)) :
    fillGrid h w a f = some ((List.range h).flatMap fun y => (List.range w).map (g y)) := by
  let front : ℕ → List α := fun y => (List.range y).flatMap fun y => (List.range w).map (g y)
  let state : ℕ → List α := fun y => front y ++ List.replicate ((h - y) * w) a
  have hlength : ∀ y, (front y).length = y * w := by
    intro y
    simp only [front, List.length_flatMap, List.length_map, List.length_range]
    rw [List.map_const', List.sum_replicate, List.length_range]
    rfl
  have hturn : ∀ y < h, fillLine w (y * w) (f y) (state y) = some (state (y + 1)) := by
    intro y hy
    have hrest : (h - y) * w = w + (h - (y + 1)) * w := by
      have hrows : h - y = h - (y + 1) + 1 := by omega
      rw [hrows, Nat.succ_mul, Nat.add_comm]
    simp only [state]
    rw [hrest, ← List.replicate_append_replicate, ← hlength, fillLine_eq _ _ a (hf y hy)]
    simp [front, List.range_succ, List.flatMap_append]
  have hloop : loop h (fun y buf => fillLine w (y * w) (f y) buf) (state 0) = some (state h) :=
    loop_eq state hturn
  simpa [state, front, fillGrid] using hloop

/-- Where a loop has a result, every turn has had one. -/
theorem exists_turn_of_foldlM {l : List ℕ} {body : ℕ → σ → Option σ} {s out : σ}
    (h : l.foldlM (fun s i => body i s) s = some out) : ∀ i ∈ l, ∃ s, (body i s).isSome := by
  induction l generalizing s with
  | nil =>
    intro i hi
    cases hi
  | cons i l ih =>
    rw [List.foldlM_cons] at h
    obtain ⟨next, hnext, hrest⟩ := Option.bind_eq_some_iff.mp h
    intro k hk
    rcases List.mem_cons.mp hk with rfl | hk
    · exact ⟨s, by rw [hnext]; rfl⟩
    · exact ih hrest k hk

theorem isSome_of_fillLine {n base : ℕ} {f : ℕ → Option α} {buf : List α}
    (h : (fillLine n base f buf).isSome) : ∀ i < n, (f i).isSome := by
  intro i hi
  obtain ⟨out, hout⟩ := Option.isSome_iff_exists.mp h
  obtain ⟨s, hs⟩ := exists_turn_of_foldlM hout i (List.mem_range.mpr hi)
  cases hf : f i with
  | none =>
    rw [hf] at hs
    cases hs
  | some a => rfl

/-- A grid is filled exactly when each of its entries has a value. -/
theorem isSome_fillGrid {h w : ℕ} {a : α} {f : ℕ → ℕ → Option α} :
    (fillGrid h w a f).isSome ↔ ∀ y < h, ∀ x < w, (f y x).isSome := by
  constructor
  · intro hgrid y hy
    obtain ⟨out, hout⟩ := Option.isSome_iff_exists.mp hgrid
    obtain ⟨buf, hbuf⟩ := exists_turn_of_foldlM hout y (List.mem_range.mpr hy)
    exact isSome_of_fillLine hbuf
  · intro hf
    have hvalue : ∀ y < h, ∀ x < w, f y x = some ((f y x).getD a) := by
      intro y hy x hx
      obtain ⟨b, hb⟩ := Option.isSome_iff_exists.mp (hf y hy x hx)
      rw [hb]
      rfl
    rw [fillGrid_eq hvalue]
    rfl

theorem length_of_store {buf out : List α} {i : ℕ} {a : α} (h : store buf i a = some out) :
    out.length = buf.length := by
  obtain ⟨-, rfl⟩ := Option.ite_none_right_eq_some.mp h |>.imp_right Option.some.inj
  exact List.length_set

theorem length_of_copy {buf out values : List α} {pos : ℕ} (h : copy buf pos values = some out) :
    pos + values.length ≤ buf.length ∧ out.length = buf.length := by
  obtain ⟨hle, rfl⟩ := Option.ite_none_right_eq_some.mp h |>.imp_right Option.some.inj
  refine ⟨hle, ?_⟩
  simp only [List.length_append, List.length_take, List.length_drop]
  omega

theorem copy_append (front back : List α) {old values : List α} (h : old.length = values.length) :
    copy (front ++ (old ++ back)) front.length values = some (front ++ (values ++ back)) := by
  have hdrop : (front ++ (old ++ back)).drop (front.length + values.length) = back := by
    rw [← List.append_assoc, ← h, ← List.length_append, List.drop_left]
  rw [copy, if_pos (by simp [h]), List.take_left, hdrop]

/-- A loop that replaces every entry by a function of its position and what it is. -/
theorem loop_mapIdx {buf : List α} {f : ℕ → α → Option α} {g : ℕ → α → α}
    (h : ∀ i a, buf[i]? = some a → f i a = some (g i a)) :
    loop buf.length (fun i b => do store b i (← f i (← b[i]?))) buf = some (buf.mapIdx g) := by
  let state : ℕ → List α := fun i => (buf.take i).mapIdx g ++ buf.drop i
  have hturn : ∀ i < buf.length,
      (do store (state i) i (← f i (← (state i)[i]?))) = some (state (i + 1)) := by
    intro i hi
    have hlength : ((buf.take i).mapIdx g).length = i := by
      rw [List.length_mapIdx, List.length_take, Nat.min_eq_left (Nat.le_of_lt hi)]
    have hstate : state i = (buf.take i).mapIdx g ++ buf[i] :: buf.drop (i + 1) := by
      simp only [state]
      rw [List.drop_eq_getElem_cons hi]
    have hread : (state i)[i]? = some buf[i] := by
      rw [hstate, List.getElem?_append_right (Nat.le_of_eq hlength), hlength, Nat.sub_self]
      rfl
    rw [hread]
    change (f i buf[i]).bind (store (state i) i) = _
    rw [h i buf[i] (List.getElem?_eq_getElem hi), Option.bind_some, hstate]
    have hstore := store_append ((buf.take i).mapIdx g) (buf.drop (i + 1)) buf[i] (g i buf[i])
    rw [hlength] at hstore
    rw [hstore]
    simp only [state]
    rw [List.take_succ_eq_append_getElem hi, List.mapIdx_append, List.length_take,
      Nat.min_eq_left (Nat.le_of_lt hi), List.append_assoc]
    simp
  have hloop : loop buf.length (fun i b => do store b i (← f i (← b[i]?))) (state 0) =
      some (state buf.length) := loop_eq state hturn
  simpa [state] using hloop

/-! ### What a checked access comes to -/

section Access

variable {buf : List α} {i : ℕ}

theorem returns_read (hi : i < buf.length) : Returns buf[i]? fun _ => True :=
  ⟨buf[i], List.getElem?_eq_getElem hi, trivial⟩

theorem returns_store (hi : i < buf.length) (a : α) :
    Returns (store buf i a) fun out => out.length = buf.length :=
  ⟨buf.set i a, if_pos hi, List.length_set⟩

theorem returns_addAt [Add α] (hi : i < buf.length) (a : α) :
    Returns (addAt buf i a) fun out => out.length = buf.length :=
  (returns_read hi).bind fun b _ => returns_store hi (b + a)

theorem returns_quotient {F : Type*} [Zero F] [Div F] [DecidableEq F] (a : F) {b : F} (hb : b ≠ 0) :
    Returns (quotient a b) fun q => q = a / b :=
  ⟨a / b, if_neg hb, rfl⟩

theorem returns_loop {P : σ → Prop} {n : ℕ} {body : ℕ → σ → Option σ} {s : σ} (hs : P s)
    (hturn : ∀ i < n, ∀ s, P s → Returns (body i s) P) : Returns (loop n body s) P :=
  Returns.foldlM hs fun s i hi h => hturn i (List.mem_range.mp hi) s h

theorem returns_fillLine {n base : ℕ} {f : ℕ → Option α} (hf : ∀ i < n, Returns (f i) fun _ => True)
    (hbuf : base + n ≤ buf.length) :
    Returns (fillLine n base f buf) fun out => out.length = buf.length := by
  refine returns_loop rfl fun i hi out hout => (hf i hi).bind fun a _ => ?_
  have hlt : base + i < out.length := by omega
  exact (returns_store hlt a).mono fun out' h => h.trans hout

end Access

end Checked
