import SurfaceAi.Core.Error
import SurfaceAi.Library.Double
import Mathlib.Data.List.Induction

/-! Configuring the two fusions. The parameter is stored before it is checked, so a rejected value
stays. What is given may be any number of YAML, NaN and the infinities among them. -/

namespace SurfaceAi.Retrieval

open Double

/-- A rounding to single precision, which takes nothing from one on below one. -/
structure SingleRounding where
  round : ℚ → Double
  one_le : ∀ q, 1 ≤ q → le (.finite 1) (round q) = true

/-- `alpha_` of the weighted fusion and `k_` of the reciprocal ranks. -/
structure FusionParams where
  alpha : Double := .finite (1 / ((2 : ℕ) : ℚ))
  k : Double := .finite ((60 : ℕ) : ℚ)
  deriving DecidableEq

/-- A call of `Configure` of one of the fusions, with the value of its key if it is there. -/
inductive FusionCall where
  | weighted (alpha : Option Double)
  | rrf (k : Option Double)
  deriving DecidableEq

namespace FusionParams

variable (s : FusionParams)

/-- `WeightedFusion::Configure`. -/
def configureWeighted : Option Double → Result Unit × FusionParams
  | none => (fail .retrievalFusionConfigInvalid "WeightedFusion: missing 'alpha' parameter", s)
  | some alpha =>
    let stored := { s with alpha := alpha }
    if lt stored.alpha (.finite 0) || lt (.finite 1) stored.alpha then
      (fail .retrievalFusionConfigInvalid "WeightedFusion: alpha must be in [0, 1]", stored)
    else (.ok (), stored)

/-- `RRFFusion::Configure`. -/
def configureRrf : Option Double → Result Unit × FusionParams
  | none => (.ok (), s)
  | some k =>
    let stored := { s with k := k }
    if le stored.k (.finite 0) then
      (fail .retrievalFusionConfigInvalid "RRFFusion: k must be positive", stored)
    else (.ok (), stored)

def configure : FusionCall → Result Unit × FusionParams
  | .weighted alpha => s.configureWeighted alpha
  | .rrf k => s.configureRrf k

/-- The parameters that a history of calls leaves. -/
def afterCalls (calls : List FusionCall) : FusionParams :=
  calls.foldl (fun s call => (s.configure call).2) {}

variable (r : SingleRounding)

/-- The sum of two numbers. -/
def plus : Double → Double → Double
  | .nan, _ | _, .nan => .nan
  | .inf a, .inf b => if a = b then .inf a else .nan
  | .inf a, _ => .inf a
  | _, .inf b => .inf b
  | .negZero, .negZero => .negZero
  | x, y => r.round (x.value + y.value)

/-- `k_ + static_cast<float>(rank + 1)` of `RRFFusion::Fuse`. -/
def denominator (rank : ℕ) : Double := plus r s.k (r.round ((rank + 1 : ℕ) : ℚ))

def IsWeight (alpha : Double) : Prop :=
  le (.finite 0) alpha = true ∧ le alpha (.finite 1) = true

def IsPositive (k : Double) : Prop := lt (.finite 0) k = true

/-- The parameters are as a fusion needs them, for lists of any length. -/
structure Valid : Prop where
  alpha : IsWeight s.alpha
  k : IsPositive s.k
  nonzero : ∀ rank, (s.denominator r rank).isZero = false

/-- What is asked of a call: valid parameters behind it, the ones before it when it is
rejected. -/
def Kept (call : FusionCall) : Prop :=
  (s.configure call).2.Valid r ∧
    (hasValue (s.configure call).1 = false → (s.configure call).2 = s)

end FusionParams

/-- The value of the key, if it is there, is one that the check means to let through. -/
def FusionCall.Admissible : FusionCall → Prop
  | .weighted alpha => ∀ a ∈ alpha, FusionParams.IsWeight a
  | .rrf k => ∀ a ∈ k, FusionParams.IsPositive a

namespace FusionParams

variable {s : FusionParams} {r : SingleRounding} {call : FusionCall}

/-- A positive number and one from one on. -/
theorem plus_nonzero {k y : Double} (hk : IsPositive k) (hy : le (.finite 1) y = true) :
    (plus r k y).isZero = false := by
  have hround : ∀ q, 1 ≤ q → (r.round q).isZero = false := by
    intro q hq
    have hle := r.one_le q hq
    cases hvalue : r.round q with
    | nan => rfl
    | inf negative => rfl
    | negZero => simp [hvalue, le, lt, value] at hle
    | finite q' =>
      have hone : 1 ≤ q' := le_finite_eq_true.mp (hvalue ▸ hle)
      exact decide_eq_false (zero_lt_one.trans_le hone).ne'
  cases y with
  | nan => cases k <;> simp [le] at hy
  | negZero => simp [le, lt, value] at hy
  | inf negative =>
    cases k with
    | inf negative' => cases negative <;> cases negative' <;> rfl
    | _ => rfl
  | finite b =>
    have hb : 1 ≤ b := le_finite_eq_true.mp hy
    cases k with
    | nan => rfl
    | inf negative => rfl
    | negZero => simp [IsPositive, lt, value] at hk
    | finite a =>
      have ha : 0 < a := lt_finite_eq_true.mp hk
      exact hround (a + b) (hb.trans (le_add_of_nonneg_left ha.le))

theorem valid_of (halpha : IsWeight s.alpha) (hk : IsPositive s.k) : s.Valid r where
  alpha := halpha
  k := hk
  nonzero rank := by
    refine plus_nonzero hk (r.one_le _ ?_)
    exact_mod_cast Nat.le_add_left 1 rank

theorem valid_default : ({} : FusionParams).Valid r := by
  refine valid_of ⟨le_finite_eq_true.mpr ?_, le_finite_eq_true.mpr ?_⟩ (lt_finite_eq_true.mpr ?_)
  · norm_num
  · norm_num
  · norm_num

theorem configureWeighted_eq {alpha : Double} (h : IsWeight alpha) :
    s.configureWeighted (some alpha) = (.ok (), { s with alpha := alpha }) := by
  obtain ⟨hzero, hone⟩ := h
  rw [le, Bool.and_eq_true, Bool.not_eq_true'] at hzero hone
  rw [configureWeighted, hzero.2, hone.2]
  rfl

theorem configureRrf_eq {k : Double} (h : IsPositive k) :
    s.configureRrf (some k) = (.ok (), { s with k := k }) := by
  have hle : le k (.finite 0) = false := by
    rw [le, h, Bool.not_true, Bool.and_false]
  rw [configureRrf, hle]
  rfl

/-- What is given is stored, accepted or not. -/
theorem configure_stores (s : FusionParams) :
    (∀ alpha, (s.configure (.weighted (some alpha))).2.alpha = alpha) ∧
      ∀ k, (s.configure (.rrf (some k))).2.k = k := by
  constructor
  · intro alpha
    rw [configure, configureWeighted]
    dsimp only
    split_ifs <;> rfl
  · intro k
    rw [configure, configureRrf]
    dsimp only
    split_ifs <;> rfl

theorem Kept.admissible (h : s.Kept r call) : call.Admissible := by
  obtain ⟨⟨halpha, hk, -⟩, -⟩ := h
  cases call with
  | weighted alpha =>
    rintro a rfl
    rwa [(configure_stores s).1 a] at halpha
  | rrf k =>
    rintro a rfl
    rwa [(configure_stores s).2 a] at hk

theorem Valid.kept (hs : s.Valid r) (h : call.Admissible) : s.Kept r call := by
  cases call with
  | weighted alpha =>
    cases alpha with
    | none => exact ⟨hs, fun _ => rfl⟩
    | some a =>
      have ha : IsWeight a := h a rfl
      rw [Kept, configure, configureWeighted_eq ha]
      exact ⟨valid_of ha hs.k, fun hfail => (by cases hfail)⟩
  | rrf k =>
    cases k with
    | none => exact ⟨hs, fun _ => rfl⟩
    | some a =>
      have ha : IsPositive a := h a rfl
      rw [Kept, configure, configureRrf_eq ha]
      exact ⟨valid_of hs.alpha ha, fun hfail => (by cases hfail)⟩

theorem valid_afterCalls {calls : List FusionCall} (h : ∀ call ∈ calls, call.Admissible) :
    (afterCalls calls).Valid r := by
  induction calls using List.reverseRecOn with
  | nil => exact valid_default
  | append_singleton calls call ih =>
    rw [List.forall_mem_append] at h
    have hkept := (ih h.1).kept (h.2 call List.mem_cons_self)
    rw [afterCalls, List.foldl_append]
    exact hkept.1

/-- Single precision that rounds nothing. -/
def exactSingle : SingleRounding where
  round := .finite
  one_le _ h := le_finite_eq_true.mpr h

end FusionParams

end SurfaceAi.Retrieval
