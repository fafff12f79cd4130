import Mathlib.Data.List.Basic

/-! Loops of stores into a buffer, each with a value that may itself be read out of a buffer. A
store behind the end is undefined. The loops over an image go by row, column and channel. -/

namespace Stores

variable {ι α : Type*}

/-- The stores of a loop, in order; nothing when one of them is undefined. -/
def storeAll (index : ι → ℕ) (value : List α → ι → Option α) : List ι → List α → Option (List α)
  | [], buffer => some buffer
  | x :: xs, buffer =>
    match value buffer x with
    | none => none
    | some v =>
      if index x < buffer.length then storeAll index value xs (buffer.set (index x) v) else none

variable {index : ι → ℕ} {value : List α → ι → Option α} {xs : List ι} {buffer out : List α}

theorem length_of_storeAll (h : storeAll index value xs buffer = some out) :
    out.length = buffer.length := by
  induction xs generalizing buffer with
  | nil =>
    obtain rfl := Option.some.inj h
    rfl
  | cons x xs ih =>
    simp only [storeAll] at h
    split at h
    · cases h
    · split_ifs at h
      rw [ih h, List.length_set]

/-- Where a value can be read whatever the buffer holds, the loop is defined if and only if every
value can be read and every store is inside. -/
theorem isSome_storeAll_iff {readable : ι → Prop}
    (hvalue : ∀ b : List α, b.length = buffer.length →
      ∀ x ∈ xs, ((value b x).isSome = true ↔ readable x)) :
    (storeAll index value xs buffer).isSome = true ↔
      ∀ x ∈ xs, readable x ∧ index x < buffer.length := by
  induction xs generalizing buffer with
  | nil => simp [storeAll]
  | cons x xs ih =>
    have hhead := hvalue buffer rfl x List.mem_cons_self
    have hstored : ∀ v, (storeAll index value xs (buffer.set (index x) v)).isSome = true ↔
        ∀ y ∈ xs, readable y ∧ index y < buffer.length := by
      intro v
      rw [ih fun b hb y hy => hvalue b (by rw [hb, List.length_set]) y (List.mem_cons_of_mem _ hy),
        List.length_set]
    rw [List.forall_mem_cons, storeAll]
    cases hv : value buffer x with
    | none =>
      rw [hv] at hhead
      simp [← hhead]
    | some v =>
      rw [hv] at hhead
      split_ifs with hindex
      · rw [hstored v]
        exact (and_iff_right ⟨hhead.mp rfl, hindex⟩).symm
      · simp [hindex]

/-- A position that no store is at keeps its element. -/
theorem getElem?_storeAll_of_ne {i : ℕ} (h : storeAll index value xs buffer = some out)
    (hne : ∀ x ∈ xs, index x ≠ i) : out[i]? = buffer[i]? := by
  induction xs generalizing buffer with
  | nil =>
    obtain rfl := Option.some.inj h
    rfl
  | cons x xs ih =>
    rw [List.forall_mem_cons] at hne
    simp only [storeAll] at h
    split at h
    · cases h
    · split_ifs at h
      rw [ih h hne.2, List.getElem?_set_ne hne.1]

/-- Where the stores at a position have one value, it is there at the end. -/
theorem getElem?_storeAll {values : ι → Option α} {x : ι}
    (h : storeAll index (fun _ => values) xs buffer = some out) (hx : x ∈ xs)
    (hvalues : ∀ y ∈ xs, index y = index x → values y = values x) : out[index x]? = values x := by
  induction xs generalizing buffer x with
  | nil => cases hx
  | cons y ys ih =>
    rw [List.forall_mem_cons] at hvalues
    simp only [storeAll] at h
    split at h
    · cases h
    · rename_i v hv
      split_ifs at h with hinside
      -- the last store at the position is one of the rest, or it is the first
      by_cases hlater : ∃ z ∈ ys, index z = index x
      · obtain ⟨z, hz, hindex⟩ := hlater
        rw [← hindex, ← hvalues.2 z hz hindex]
        apply ih h hz
        intro w hw hsame
        rw [hvalues.2 w hw (hsame.trans hindex), hvalues.2 z hz hindex]
      · obtain rfl : x = y := by
          by_contra hne
          exact hlater ⟨x, (List.mem_cons.mp hx).resolve_left hne, rfl⟩
        have hkept := getElem?_storeAll_of_ne h fun z hz hindex => hlater ⟨z, hz, hindex⟩
        rw [hkept, List.getElem?_set_self hinside, hv]

/-- A loop that replaces each element by a function of it. -/
theorem storeAll_map (f : α → α) (buffer : List α) :
    storeAll id (fun b i => (b[i]?).map f) (List.range buffer.length) buffer =
      some (buffer.map f) := by
  have hrest : ∀ done rest : List α,
      storeAll id (fun b i => (b[i]?).map f) (List.range' done.length rest.length) (done ++ rest) =
        some (done ++ rest.map f) := by
    intro done rest
    induction rest generalizing done with
    | nil => rfl
    | cons v rest ih =>
      have hread : ((done ++ v :: rest)[done.length]?).map f = some (f v) := by simp
      have hinside : done.length < (done ++ v :: rest).length := by simp
      have hset : (done ++ v :: rest).set done.length (f v) = (done ++ [f v]) ++ rest := by simp
      have hnext : done.length + 1 = (done ++ [f v]).length := by simp
      rw [List.length_cons, List.range'_succ, storeAll, hread]
      simp only [id, if_pos hinside]
      rw [hset, hnext, ih, List.append_assoc]
      rfl
  rw [List.range_eq_range']
  exact hrest [] buffer

/-- The rows, columns and channels of an image. -/
def grid (width height channels : ℕ) : List (ℕ × ℕ × ℕ) :=
  (List.range height).flatMap fun y =>
    (List.range width).flatMap fun x => (List.range channels).map fun ch => (y, x, ch)

variable {width height channels x y ch i : ℕ}

theorem mem_grid : (y, x, ch) ∈ grid width height channels ↔
    y < height ∧ x < width ∧ ch < channels := by
  simp [grid]

/-- The position of a sample is inside the image. -/
theorem index_lt (hy : y < height) (hx : x < width) (hch : ch < channels) :
    (y * width + x) * channels + ch < width * height * channels := by
  have hrow : (y + 1) * width ≤ height * width := Nat.mul_le_mul_right width hy
  have hpixel : (y * width + x + 1) * channels ≤ width * height * channels := by
    refine Nat.mul_le_mul_right channels ?_
    rw [Nat.mul_comm width]
    rw [Nat.succ_mul] at hrow
    omega
  rw [Nat.succ_mul] at hpixel
  omega

/-- Every position inside the image is one of a sample. -/
theorem exists_index (h : i < width * height * channels) :
    ∃ y x ch, y < height ∧ x < width ∧ ch < channels ∧ (y * width + x) * channels + ch = i := by
  have hchannels : 0 < channels := Nat.pos_of_ne_zero (by rintro rfl; simp at h)
  have hwidth : 0 < width := Nat.pos_of_ne_zero (by rintro rfl; simp at h)
  have hpixel : i / channels < width * height := (Nat.div_lt_iff_lt_mul hchannels).mpr h
  refine ⟨i / channels / width, i / channels % width, i % channels, ?_, Nat.mod_lt _ hwidth,
    Nat.mod_lt _ hchannels, ?_⟩
  · rw [Nat.div_lt_iff_lt_mul hwidth, Nat.mul_comm]
    exact hpixel
  · rw [Nat.div_add_mod', Nat.div_add_mod']

/-- No two samples have one position. -/
theorem index_inj {x' y' ch' : ℕ} (hx : x < width) (hx' : x' < width) (hch : ch < channels)
    (hch' : ch' < channels)
    (h : (y * width + x) * channels + ch = (y' * width + x') * channels + ch') :
    (y, x, ch) = (y', x', ch') := by
  have hsplit : ∀ {n a b r : ℕ}, b < n → r = a * n + b → r / n = a ∧ r % n = b := by
    rintro n a b r hb rfl
    rw [Nat.mul_comm, Nat.mul_add_mod, Nat.mod_eq_of_lt hb, Nat.mul_add_div (by omega),
      Nat.div_eq_of_lt hb]
    exact ⟨rfl, rfl⟩
  obtain ⟨hpixel, hchannel⟩ := hsplit hch' h
  obtain ⟨hpixel', hchannel'⟩ := hsplit hch rfl
  obtain ⟨hrow, hcolumn⟩ := hsplit hx' (hpixel'.symm.trans hpixel)
  obtain ⟨hrow', hcolumn'⟩ := hsplit hx rfl
  rw [← hchannel, hchannel', ← hrow, hrow', ← hcolumn, hcolumn']

/-- The positions, reduced in machine arithmetic, are inside a buffer of the reduced size if and
only if the size needs no reduction. -/
theorem forall_index_lt_iff {m : ℕ} (hm : 0 < m) :
    (∀ z ∈ grid width height channels, (z.1 * width + z.2.1) * channels % m + z.2.2 <
      width * height * channels % m) ↔ width * height * channels < m := by
  constructor
  · intro h
    by_contra hlarge
    have hbelow : width * height * channels % m < m := Nat.mod_lt _ hm
    obtain ⟨y, x, ch, hy, hx, hch, hindex⟩ :=
      exists_index (Nat.lt_of_lt_of_le hbelow (Nat.not_lt.mp hlarge))
    have hlt : (y * width + x) * channels % m + ch < width * height * channels % m :=
      h (y, x, ch) (mem_grid.mpr ⟨hy, hx, hch⟩)
    rw [Nat.mod_eq_of_lt (by omega)] at hlt
    omega
  · rintro h ⟨y, x, ch⟩ hz
    obtain ⟨hy, hx, hch⟩ := mem_grid.mp hz
    have hlt := index_lt hy hx hch
    show (y * width + x) * channels % m + ch < width * height * channels % m
    rwa [Nat.mod_eq_of_lt (by omega), Nat.mod_eq_of_lt h]

/-- Rows of one length that are copied one after another, from an offset each. -/
theorem exists_copyRows {m n d : ℕ} (offset : ℕ → ℕ) (src : List α) (fill : α) (hsize : d * n < m)
    (hinside : ∀ row < n, offset row + d ≤ src.length) :
    ∃ bytes, storeAll (fun z : ℕ × ℕ × ℕ => z.1 * d % m + z.2.2)
        (fun _ z => src[offset z.1 + z.2.2]?) (grid 1 n d) (List.replicate (d * n % m) fill) =
          some bytes ∧
      bytes.length = d * n ∧ ∀ row < n, ∀ k < d, bytes[row * d + k]? = src[offset row + k]? := by
  have hposition : ∀ {row k : ℕ}, row < n → k < d →
      row * d % m + k = row * d + k ∧ row * d + k < d * n := by
    intro row k hrow hk
    have hrows : (row + 1) * d ≤ d * n := by
      rw [Nat.mul_comm d]
      exact Nat.mul_le_mul_right d hrow
    rw [Nat.succ_mul] at hrows
    exact ⟨by rw [Nat.mod_eq_of_lt (by omega)], by omega⟩
  have hread : ∀ buffer : List α, buffer.length = (List.replicate (d * n % m) fill).length →
      ∀ z ∈ grid 1 n d, ((src[offset z.1 + z.2.2]?).isSome = true ↔ True) := by
    rintro - - ⟨row, col, k⟩ hz
    obtain ⟨hrow, -, hk⟩ := mem_grid.mp hz
    have hle := hinside row hrow
    rw [List.getElem?_eq_getElem (show offset row + k < src.length by omega)]
    exact iff_of_true rfl trivial
  have hstore : ∀ z ∈ grid 1 n d, True ∧
      z.1 * d % m + z.2.2 < (List.replicate (d * n % m) fill).length := by
    rintro ⟨row, col, k⟩ hz
    obtain ⟨hrow, -, hk⟩ := mem_grid.mp hz
    obtain ⟨heq, hlt⟩ := hposition hrow hk
    rw [List.length_replicate, Nat.mod_eq_of_lt hsize]
    exact ⟨trivial, heq ▸ hlt⟩
  obtain ⟨bytes, hbytes⟩ := Option.isSome_iff_exists.mp ((isSome_storeAll_iff hread).mpr hstore)
  refine ⟨bytes, hbytes, ?_, ?_⟩
  · rw [length_of_storeAll hbytes, List.length_replicate, Nat.mod_eq_of_lt hsize]
  · intro row hrow k hk
    rw [← (hposition hrow hk).1]
    have hz : (row, 0, k) ∈ grid 1 n d := mem_grid.mpr ⟨hrow, Nat.one_pos, hk⟩
    apply getElem?_storeAll hbytes hz
    rintro ⟨row', col', k'⟩ hz' hindex
    obtain ⟨hrow', hcol', hk'⟩ := mem_grid.mp hz'
    have hsame : row' * d % m + k' = row * d % m + k := hindex
    rw [(hposition hrow' hk').1, (hposition hrow hk).1] at hsame
    obtain rfl : col' = 0 := by omega
    have hequal := index_inj Nat.one_pos Nat.one_pos hk' hk
      (show (row' * 1 + 0) * d + k' = (row * 1 + 0) * d + k by simpa using hsame)
    rw [hequal]

end Stores
