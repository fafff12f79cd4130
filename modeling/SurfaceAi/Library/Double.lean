import Mathlib.Algebra.Field.Rat
import Mathlib.Algebra.Order.Floor.Ring
import Mathlib.Algebra.Order.Ring.Rat
import Mathlib.Data.Rat.Floor

/-! Double precision numbers: the rationals that a rounding gives, a negative zero, infinities and
NaN. An operation is computed exactly and rounded once; of the rounding only this is assumed, that
it leaves the whole numbers up to `2 ^ 53` as they are. -/

inductive Double where
  | nan
  | inf (negative : Bool)
  | negZero
  | finite (q : ℚ)
  deriving DecidableEq

/-- A rounding, exact on the whole numbers with 53 bits. -/
structure Rounding where
  round : ℚ → Double
  exact : ∀ n : ℕ, n ≤ 2 ^ 53 → round n = .finite n

namespace Double

def value : Double → ℚ
  | .finite q => q
  | _ => 0

/-- The sign bit; a NaN has none. -/
def isNegative : Double → Bool
  | .nan => false
  | .inf negative => negative
  | .negZero => true
  | .finite q => q < 0

def isZero : Double → Bool
  | .negZero => true
  | .finite q => q = 0
  | _ => false

def signedZero (negative : Bool) : Double := if negative then .negZero else .finite 0

def neg : Double → Double
  | .nan => .nan
  | .inf negative => .inf !negative
  | .negZero => .finite 0
  | .finite q => if q = 0 then .negZero else .finite (-q)

def lt : Double → Double → Bool
  | .nan, _ | _, .nan => false
  | .inf true, .inf true => false
  | .inf true, _ => true
  | .inf false, _ => false
  | _, .inf negative => !negative
  | x, y => x.value < y.value

/-- Whatever is compared with a NaN is false. -/
def le (x y : Double) : Bool := x ≠ .nan && y ≠ .nan && !lt y x

/-- `std::min`, which returns its first argument unless the second is less. -/
def min (x y : Double) : Double := if lt y x then y else x

/-- `std::max`, which returns its first argument unless that is less. -/
def max (x y : Double) : Double := if lt x y then y else x

/-- The conversion to an unsigned number of 64 bits, where it is defined. -/
def truncate : Double → Option ℕ
  | .finite q => if -1 < q ∧ q < 2 ^ 64 then some q.floor.toNat else none
  | .negZero => some 0
  | _ => none

variable (r : Rounding)

/-- The conversion of a whole number. -/
def ofNat (n : ℕ) : Double := r.round n

def add : Double → Double → Double
  | .nan, _ | _, .nan => .nan
  | .inf a, .inf b => if a = b then .inf a else .nan
  | .inf a, _ => .inf a
  | _, .inf b => .inf b
  | .negZero, .negZero => .negZero
  | x, y => r.round (x.value + y.value)

def sub (x y : Double) : Double := add r x y.neg

def mul (x y : Double) : Double :=
  let negative := x.isNegative ^^ y.isNegative
  match x, y with
  | .nan, _ | _, .nan => .nan
  | .inf _, y => if y.isZero then .nan else .inf negative
  | x, .inf _ => if x.isZero then .nan else .inf negative
  | x, y => if x.isZero || y.isZero then signedZero negative else r.round (x.value * y.value)

def div (x y : Double) : Double :=
  let negative := x.isNegative ^^ y.isNegative
  match x, y with
  | .nan, _ | _, .nan => .nan
  | .inf _, .inf _ => .nan
  | .inf _, _ => .inf negative
  | _, .inf _ => signedZero negative
  | x, y =>
    if y.isZero then if x.isZero then .nan else .inf negative
    else if x.isZero then signedZero negative
    else r.round (x.value / y.value)

variable {r} {x : Double} {n : ℕ}

theorem ofNat_eq (h : n ≤ 2 ^ 53) : ofNat r n = .finite n := r.exact n h

theorem lt_finite_eq_true {a b : ℚ} : lt (.finite a) (.finite b) = true ↔ a < b := decide_eq_true_iff

theorem lt_finite_eq_false {a b : ℚ} : lt (.finite a) (.finite b) = false ↔ b ≤ a := by
  rw [← Bool.not_eq_true, lt_finite_eq_true, not_lt]

theorem le_finite_eq_true {a b : ℚ} : le (.finite a) (.finite b) = true ↔ a ≤ b := by
  rw [← lt_finite_eq_false, le, Bool.and_eq_true, Bool.not_eq_true']
  exact and_iff_right rfl

theorem truncate_finite {q : ℚ} (hzero : 0 ≤ q) (hlt : q < n) (hbound : n ≤ 2 ^ 64) :
    ∃ k < n, truncate (.finite q) = some k := by
  have hbig : (n : ℚ) ≤ 2 ^ 64 := by exact_mod_cast hbound
  have hfloor : q.floor < n := Rat.floor_lt_iff.mpr (by exact_mod_cast hlt)
  have hnonneg : 0 ≤ q.floor := Rat.le_floor_iff.mpr (by exact_mod_cast hzero)
  refine ⟨q.floor.toNat, by omega, ?_⟩
  rw [truncate, if_pos ⟨by linarith, by linarith⟩]

/-- A number from zero on and below a whole number is truncated below it. -/
theorem truncate_of_lt (hx : x ≠ .nan) (hzero : lt x (.finite 0) = false)
    (hn : le (.finite n) x = false) (hbound : n ≤ 2 ^ 64) : ∃ k < n, x.truncate = some k := by
  cases x with
  | nan => exact absurd rfl hx
  | inf negative => cases negative <;> simp [lt, le] at hzero hn
  | negZero =>
    refine ⟨0, ?_, rfl⟩
    have hpos : (0 : ℚ) < n := by simpa [lt, le, value] using hn
    exact_mod_cast hpos
  | finite q =>
    have hlt : lt (.finite q) (.finite n) = true := by simpa [le] using hn
    exact truncate_finite (lt_finite_eq_false.mp hzero) (lt_finite_eq_true.mp hlt) hbound

theorem min_finite (x : Double) (b : ℚ) :
    min x (.finite b) = .nan ∨ min x (.finite b) = .inf true ∨ min x (.finite b) = .negZero ∨
      ∃ q ≤ b, min x (.finite b) = .finite q := by
  rw [min]
  split_ifs with hlt
  · exact .inr (.inr (.inr ⟨b, le_rfl, rfl⟩))
  · cases x with
    | nan => exact .inl rfl
    | inf negative => cases negative <;> simp_all [lt]
    | negZero => exact .inr (.inr (.inl rfl))
    | finite q =>
      rw [lt_finite_eq_true, not_lt] at hlt
      exact .inr (.inr (.inr ⟨q, hlt, rfl⟩))

/-- What is clamped between zero and a number is between them. -/
theorem clamp_eq {b : ℚ} (hb : 0 ≤ b) (x : Double) :
    ∃ q, 0 ≤ q ∧ q ≤ b ∧ max (.finite 0) (min x (.finite b)) = .finite q := by
  obtain hmin | hmin | hmin | ⟨q, hq, hmin⟩ := min_finite x b <;> rw [hmin, max]
  · exact ⟨0, le_rfl, hb, rfl⟩
  · exact ⟨0, le_rfl, hb, rfl⟩
  · exact ⟨0, le_rfl, hb, by simp [lt, value]⟩
  · by_cases hpos : 0 < q
    · exact ⟨q, hpos.le, hq, if_pos (lt_finite_eq_true.mpr hpos)⟩
    · exact ⟨0, le_rfl, hb, if_neg (by rwa [lt_finite_eq_true])⟩

/-- What is clamped between zero and the last index is an index. -/
theorem truncate_clamp (hpos : 0 < n) (hbound : n ≤ 2 ^ 53) (x : Double) :
    ∃ k < n, (max (.finite 0) (min x (sub r (ofNat r n) (.finite 1)))).truncate = some k := by
  have hlast : sub r (ofNat r n) (.finite 1) = .finite ((n - 1 : ℕ) : ℚ) := by
    have hcast : (n : ℚ) + -1 = ((n - 1 : ℕ) : ℚ) := by
      rw [Nat.cast_sub hpos, Nat.cast_one]
      ring
    rw [ofNat_eq hbound, sub]
    show r.round ((n : ℚ) + -1) = _
    rw [hcast]
    exact r.exact _ (by omega)
  obtain ⟨q, hzero, hq, hclamp⟩ := clamp_eq (Nat.cast_nonneg (n - 1)) x
  rw [hlast, hclamp]
  refine truncate_finite hzero ?_ (by omega)
  have hlt : ((n - 1 : ℕ) : ℚ) < n := by exact_mod_cast Nat.sub_lt hpos one_pos
  linarith

end Double
