import Mathlib.Data.List.Basic

/-! Rows of a flat list: row `i` of stride `d` is the `i`-th block of `d` entries. A
flat list of length `n * d` and its `n` rows determine each other, and rows are
picked out of appended and of concatenated lists block by block. -/

namespace Rows

variable {α β : Type*}

/-- The `i`-th block of `d` entries. -/
def row (d i : ℕ) (data : List α) : List α := (data.drop (i * d)).take d

/-- The first `n` blocks. -/
def rows (d n : ℕ) (data : List α) : List (List α) := (List.range n).map fun i => row d i data

@[simp] theorem length_rows (d n : ℕ) (data : List α) : (rows d n data).length = n := by
  simp [rows]

theorem length_row {d i : ℕ} {data : List α} (h : (i + 1) * d ≤ data.length) :
    (row d i data).length = d := by
  rw [Nat.succ_mul] at h
  rw [row, List.length_take, List.length_drop]
  omega

theorem length_of_mem_rows {d n : ℕ} {data : List α} (h : n * d ≤ data.length) {r : List α}
    (hr : r ∈ rows d n data) : r.length = d := by
  obtain ⟨i, hi, rfl⟩ := List.mem_map.mp hr
  exact length_row (Nat.le_trans (Nat.mul_le_mul_right d (List.mem_range.mp hi)) h)

theorem rows_succ (d n : ℕ) (data : List α) :
    rows d (n + 1) data = data.take d :: rows d n (data.drop d) := by
  have hrow : ∀ i, row d (i + 1) data = row d i (data.drop d) := by
    intro i
    rw [row, row, List.drop_drop, Nat.succ_mul, Nat.add_comm]
  simp only [rows, List.range_succ_eq_map, List.map_cons, List.map_map]
  congr 1
  · simp [row]
  · exact List.map_congr_left fun i _ => hrow i

/-- The rows, put together again. -/
theorem flatten_rows {d n : ℕ} {data : List α} (h : data.length = n * d) :
    (rows d n data).flatten = data := by
  induction n generalizing data with
  | zero => simpa [rows] using h
  | succ n ih =>
    rw [rows_succ, List.flatten_cons, ih (by rw [List.length_drop, h, Nat.succ_mul]; omega),
      List.take_append_drop]

/-- The rows of a concatenation of blocks of length `d` are the blocks. -/
theorem rows_flatten {d : ℕ} {blocks : List (List α)} (h : ∀ b ∈ blocks, b.length = d) :
    rows d blocks.length blocks.flatten = blocks := by
  induction blocks with
  | nil => rfl
  | cons b bs ih =>
    have hb := h b (by simp)
    rw [List.length_cons, rows_succ, List.flatten_cons, List.take_left' hb, List.drop_left' hb,
      ih fun c hc => h c (List.mem_cons_of_mem b hc)]

/-- Entries behind the last row do not matter. -/
theorem rows_take (d n : ℕ) (data : List α) : rows d n (data.take (n * d)) = rows d n data := by
  refine List.map_congr_left fun i hi => ?_
  have hle : (i + 1) * d ≤ n * d := Nat.mul_le_mul_right d (List.mem_range.mp hi)
  rw [Nat.succ_mul] at hle
  rw [row, row, List.drop_take, List.take_take, Nat.min_eq_left (by omega)]

theorem rows_append {d n m : ℕ} {xs ys : List α} (hx : xs.length = n * d)
    (hy : ys.length = m * d) : rows d (n + m) (xs ++ ys) = rows d n xs ++ rows d m ys := by
  have hblocks : ∀ b ∈ rows d n xs ++ rows d m ys, b.length = d := by
    intro b hb
    rcases List.mem_append.mp hb with hb | hb
    · exact length_of_mem_rows (Nat.le_of_eq hx.symm) hb
    · exact length_of_mem_rows (Nat.le_of_eq hy.symm) hb
  have hcat := rows_flatten hblocks
  rwa [List.flatten_append, flatten_rows hx, flatten_rows hy, List.length_append, length_rows,
    length_rows] at hcat

/-- Entry `j` of block `i` in a concatenation of blocks of length `k`. -/
theorem getElem?_flatMap {k : ℕ} {l : List β} {f : β → List α} (h : ∀ x ∈ l, (f x).length = k)
    {i j : ℕ} (hj : j < k) :
    (l.flatMap f)[i * k + j]? = l[i]?.bind fun x => (f x)[j]? := by
  induction l generalizing i with
  | nil => simp
  | cons x xs ih =>
    have hx := h x (by simp)
    rw [List.flatMap_cons]
    cases i with
    | zero => rw [List.getElem?_append_left (by omega)]; simp
    | succ i =>
      rw [List.getElem?_append_right (by rw [Nat.succ_mul]; omega), hx,
        show (i + 1) * k + j - k = i * k + j by rw [Nat.succ_mul]; omega,
        ih fun y hy => h y (List.mem_cons_of_mem x hy)]
      simp

/-! ### Lists of rows -/

/-- The list consists of rows that all meet a condition. -/
def AllRows (d : ℕ) (P : List α → Prop) (data : List α) : Prop :=
  ∃ blocks : List (List α), data = blocks.flatten ∧ ∀ b ∈ blocks, b.length = d ∧ P b

namespace AllRows

variable {d n : ℕ} {P Q : List α → Prop} {data xs ys : List α}

theorem nil : AllRows d P ([] : List α) := ⟨[], rfl, by simp⟩

theorem append (hx : AllRows d P xs) (hy : AllRows d P ys) : AllRows d P (xs ++ ys) := by
  obtain ⟨bs, rfl, hbs⟩ := hx
  obtain ⟨cs, rfl, hcs⟩ := hy
  refine ⟨bs ++ cs, List.flatten_append.symm, fun b hb => ?_⟩
  rcases List.mem_append.mp hb with hb | hb
  · exact hbs b hb
  · exact hcs b hb

theorem flatten {blocks : List (List α)} (h : ∀ b ∈ blocks, b.length = d ∧ P b) :
    AllRows d P blocks.flatten :=
  ⟨blocks, rfl, h⟩

theorem of_rows (hlength : data.length = n * d) (h : ∀ v ∈ rows d n data, P v) :
    AllRows d P data :=
  ⟨rows d n data, (flatten_rows hlength).symm,
    fun b hb => ⟨length_of_mem_rows (Nat.le_of_eq hlength.symm) hb, h b hb⟩⟩

theorem row (h : AllRows d P data) (hd : 0 < d) {i : ℕ} (hi : (i + 1) * d ≤ data.length) :
    P (Rows.row d i data) := by
  obtain ⟨blocks, rfl, hblocks⟩ := h
  have hrows := rows_flatten fun b hb => (hblocks b hb).1
  have hlength : blocks.flatten.length = blocks.length * d := by
    have hmap : blocks.map List.length = List.replicate blocks.length d :=
      List.map_eq_replicate_iff.mpr fun b hb => (hblocks b hb).1
    rw [List.length_flatten, hmap, List.sum_replicate_nat]
  have hlt : i < blocks.length := by
    rw [hlength] at hi
    exact Nat.le_of_mul_le_mul_right hi hd
  have hmem : Rows.row d i blocks.flatten ∈ rows d blocks.length blocks.flatten :=
    List.mem_map_of_mem (List.mem_range.mpr hlt)
  rw [hrows] at hmem
  exact (hblocks _ hmem).2

/-- Whatever whole rows are cut off, they meet the condition. -/
theorem rows (h : AllRows d P data) (hd : 0 < d) (hn : n * d ≤ data.length) :
    ∀ v ∈ Rows.rows d n data, P v := by
  intro v hv
  obtain ⟨i, hi, rfl⟩ := List.mem_map.mp hv
  exact h.row hd (Nat.le_trans (Nat.mul_le_mul_right d (List.mem_range.mp hi)) hn)

end AllRows

end Rows
