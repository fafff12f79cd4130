import SurfaceAi.Library.Rows
import Mathlib.Algebra.Group.Nat.Defs
import Mathlib.Data.Nat.Digits.Defs
import Mathlib.Tactic.Ring

/-! Numbers as bytes, the least significant first, and lists of words of a fixed number of bytes.
Bytes that are missing at the end count as zero. -/

namespace ByteWords

/-- The number that bytes spell, the least significant first. -/
def value (bytes : List UInt8) : ℕ := Nat.ofDigits 256 (bytes.map UInt8.toNat)

/-- The lowest `w` bytes of a number. -/
def spell (w n : ℕ) : List UInt8 := (List.range w).map fun i => UInt8.ofNat (n / 256 ^ i)

@[simp] theorem value_nil : value [] = 0 := rfl

@[simp] theorem value_cons (b : UInt8) (bytes : List UInt8) :
    value (b :: bytes) = b.toNat + 256 * value bytes := Nat.ofDigits_cons ..

theorem value_append (xs ys : List UInt8) :
    value (xs ++ ys) = value xs + 256 ^ xs.length * value ys := by
  rw [value, List.map_append, Nat.ofDigits_append, List.length_map, value, value]

@[simp] theorem length_spell (w n : ℕ) : (spell w n).length = w := by simp [spell]

@[simp] theorem spell_zero (n : ℕ) : spell 0 n = [] := rfl

@[simp] theorem spell_succ (w n : ℕ) :
    spell (w + 1) n = UInt8.ofNat n :: spell w (n / 256) := by
  simp only [spell, List.range_succ_eq_map, List.map_cons, List.map_map, pow_zero, Nat.div_one]
  congr 1
  apply List.map_congr_left
  intro i _
  rw [Function.comp_apply, Nat.div_div_eq_div_mul, Nat.succ_eq_add_one, pow_succ, Nat.mul_comm]

theorem value_spell (w n : ℕ) : value (spell w n) = n % 256 ^ w := by
  induction w generalizing n with
  | zero => simp [Nat.mod_one]
  | succ w ih =>
    rw [spell_succ, value_cons, ih, UInt8.toNat_ofNat', pow_succ' 256 w, Nat.mod_mul]

theorem value_spell_of_lt {w n : ℕ} (h : n < 256 ^ w) : value (spell w n) = n := by
  rw [value_spell, Nat.mod_eq_of_lt h]

theorem spell_value (bytes : List UInt8) : spell bytes.length (value bytes) = bytes := by
  induction bytes with
  | nil => rfl
  | cons b bytes ih =>
    have hb : b.toNat < 256 := b.toNat_lt
    have hdiv : (b.toNat + 256 * value bytes) / 256 = value bytes := by omega
    rw [List.length_cons, spell_succ, value_cons, hdiv, ih]
    congr 1
    apply UInt8.toNat_inj.mp
    rw [UInt8.toNat_ofNat', Nat.add_mul_mod_self_left, Nat.mod_eq_of_lt hb]

theorem value_lt (bytes : List UInt8) : value bytes < 256 ^ bytes.length := by
  have h := value_spell bytes.length (value bytes)
  rw [spell_value] at h
  rw [h]
  exact Nat.mod_lt _ (Nat.pow_pos (by decide))

/-! ### Lists of words -/

section Words

variable {α : Type} (w : ℕ) (read : ℕ → α) (write : α → ℕ)

/-- The first `n` words of `w` bytes. -/
def words (n : ℕ) (bytes : List UInt8) : List α :=
  (Rows.rows w n bytes).map fun row => read (value row)

def bytesOf (words : List α) : List UInt8 := words.flatMap fun x => spell w (write x)

@[simp] theorem length_words (n : ℕ) (bytes : List UInt8) : (words w read n bytes).length = n := by
  simp [words]

@[simp] theorem length_bytesOf (xs : List α) : (bytesOf w write xs).length = xs.length * w := by
  simp [bytesOf, List.length_flatMap]

variable {w read write}

/-- Words written one after the other are read again. -/
theorem words_bytesOf (h : ∀ x, read (write x % 256 ^ w) = x) (xs : List α) (rest : List UInt8) :
    words w read xs.length (bytesOf w write xs ++ rest) = xs := by
  have hrows : Rows.rows w xs.length (bytesOf w write xs ++ rest) =
      xs.map fun x => spell w (write x) := by
    rw [← Rows.rows_take, List.take_left' (length_bytesOf w write xs), bytesOf,
      List.flatMap_def]
    have hblocks : ∀ b ∈ xs.map fun x => spell w (write x), b.length = w := by
      intro b hb
      obtain ⟨x, -, rfl⟩ := List.mem_map.mp hb
      exact length_spell ..
    have hflatten := Rows.rows_flatten hblocks
    rwa [List.length_map] at hflatten
  rw [words, hrows, List.map_map]
  conv_rhs => rw [← List.map_id xs]
  apply List.map_congr_left
  intro x _
  rw [Function.comp_apply, value_spell, h, id]

/-- Words that are read are written again as the bytes they are read from. -/
theorem bytesOf_words (h : ∀ n < 256 ^ w, write (read n) = n) {n : ℕ} {bytes : List UInt8}
    (hn : n * w ≤ bytes.length) :
    bytesOf w write (words w read n bytes) = bytes.take (n * w) := by
  have hlength : (bytes.take (n * w)).length = n * w := by rw [List.length_take]; omega
  rw [← Rows.flatten_rows hlength, Rows.rows_take, bytesOf, words, List.flatMap_map,
    List.flatMap_def]
  congr 1
  conv_rhs => rw [← List.map_id (Rows.rows w n bytes)]
  apply List.map_congr_left
  intro row hrow
  have hrowLength : row.length = w := Rows.length_of_mem_rows hn hrow
  have hlt : value row < 256 ^ w := hrowLength ▸ value_lt row
  rw [h _ hlt, id, ← hrowLength, spell_value]

end Words

/-! ### Byte orders -/

/-- Whether a number's least or most significant byte stands first. -/
inductive Endian
  | little
  | big
  deriving DecidableEq

namespace Endian

variable (order : Endian)

def value (bytes : List UInt8) : ℕ :=
  match order with
  | little => ByteWords.value bytes
  | big => ByteWords.value bytes.reverse

def spell (w n : ℕ) : List UInt8 :=
  match order with
  | little => ByteWords.spell w n
  | big => (ByteWords.spell w n).reverse

@[simp] theorem length_spell (w n : ℕ) : (order.spell w n).length = w := by
  cases order <;> simp [spell]

variable {order} in
theorem value_spell_of_lt {w n : ℕ} (h : n < 256 ^ w) : order.value (order.spell w n) = n := by
  cases order with
  | little => exact ByteWords.value_spell_of_lt h
  | big =>
    simp only [value, spell, List.reverse_reverse]
    exact ByteWords.value_spell_of_lt h

theorem value_lt (bytes : List UInt8) : order.value bytes < 256 ^ bytes.length := by
  cases order with
  | little => exact ByteWords.value_lt bytes
  | big => simpa only [value, List.length_reverse] using ByteWords.value_lt bytes.reverse

variable {order} in
/-- Bytes behind or before a number that is not zero do not make it zero. -/
theorem value_pos_of_prefix {xs bytes : List UInt8} (h : xs <+: bytes) (hpos : 0 < order.value xs) :
    0 < order.value bytes := by
  obtain ⟨ys, rfl⟩ := h
  cases order with
  | little =>
    simp only [value] at hpos ⊢
    rw [value_append]
    omega
  | big =>
    simp only [value] at hpos ⊢
    rw [List.reverse_append, value_append]
    exact Nat.add_pos_right _ (Nat.mul_pos (Nat.pow_pos (by decide)) hpos)

/-- The number of `w` bytes at a place; nothing if the bytes end before. -/
def readAt (w : ℕ) (bytes : List UInt8) (off : ℕ) : Option ℕ :=
  if off + w ≤ bytes.length then some (order.value ((bytes.drop off).take w)) else none

theorem exists_readAt {w off : ℕ} {bytes : List UInt8} (h : off + w ≤ bytes.length) :
    ∃ n, order.readAt w bytes off = some n ∧ n < 256 ^ w := by
  refine ⟨_, if_pos h, ?_⟩
  have hlength : ((bytes.drop off).take w).length = w := by
    rw [List.length_take, List.length_drop]
    omega
  exact lt_of_lt_of_eq (order.value_lt _) (by rw [hlength])

variable {order} in
theorem readAt_lt {w off n : ℕ} {bytes : List UInt8} (h : order.readAt w bytes off = some n) :
    n < 256 ^ w := by
  unfold readAt at h
  split_ifs at h with hoff
  obtain ⟨m, hm, hlt⟩ := order.exists_readAt hoff
  rw [readAt, if_pos hoff, h] at hm
  obtain rfl := Option.some.inj hm
  exact hlt

/-- Bytes that stand at a place are what is read there. -/
theorem readAt_of_prefix {off : ℕ} {bytes field : List UInt8} (h : field <+: bytes.drop off)
    (hfield : 0 < field.length) :
    order.readAt field.length bytes off = some (order.value field) := by
  have hle := h.length_le
  rw [List.length_drop] at hle
  rw [readAt, if_pos (by omega), ← List.prefix_iff_eq_take.mp h]

end Endian

end ByteWords
