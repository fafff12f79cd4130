import Mathlib.Algebra.Group.Nat.Defs
import SurfaceAi.Core.Error
import SurfaceAi.Detection.NormalityProfile

/-! The search space of the tuning: bounds, grids and linear constraints. Feasibility checks all
three; clamping a point, and sampling one, look at the bounds and the grids only. -/

namespace SurfaceAi.Tuning

open Detection (ratio stdAbs)

inductive ParameterType where
  | continuous | discrete
  deriving DecidableEq, Repr

structure TuningParameter (F : Type*) where
  name : String
  type : ParameterType
  min : F
  max : F
  step : F
  deriving DecidableEq

structure ParameterConstraint (F : Type*) where
  lhsName : String
  coeffLhs : F
  rhsName : String
  coeffRhs : F
  bound : F
  deriving DecidableEq

structure TuningSpace (F : Type*) where
  parameters : List (TuningParameter F)
  constraints : List (ParameterConstraint F)
  deriving DecidableEq

/-- The functions of the standard library that only the tuning uses. `round` takes halves away
from zero. -/
class TuningMath (F : Type*) extends FloatMath F where
  log : F → F
  erf : F → F
  round : F → F
  pi : F
  sqrt2 : F
  negInfinity : F

/-- Rational arithmetic for runs on concrete inputs: rounding is exact, the logarithm and the
error function are the first terms of their series. -/
instance exactTuningMath : TuningMath ℚ where
  log q := q - 1
  erf q := q
  round q := if q < 0 then -((-q + 1 / 2).floor : ℚ) else ((q + 1 / 2).floor : ℚ)
  pi := 355 / 113
  sqrt2 := 99 / 70
  negInfinity := -((10 ^ 308 : ℕ) : ℚ)

/-- `std::clamp`. -/
def stdClamp {F : Type*} [LT F] [DecidableLT F] (v lo hi : F) : F :=
  if v < lo then lo else if hi < v then hi else v

namespace TuningParameter

variable {F : Type*} [Zero F] [Add F] [Sub F] [Neg F] [Mul F] [Div F] [NatCast F]
variable [LT F] [DecidableLT F] [TuningMath F] (p : TuningParameter F)

def hasGrid : Bool := p.type = .discrete && decide (0 < p.step)

/-- The nearest step. -/
def snap (v : F) : F := p.min + TuningMath.round ((v - p.min) / p.step) * p.step

/-- A value of `RandomFeasiblePoint` from the value drawn between the bounds. -/
def sample (v : F) : F := if p.hasGrid then stdClamp (p.snap v) p.min p.max else v

/-- One coordinate of `ClampToBounds`. -/
def clampToBounds (v : F) : F := p.sample (stdClamp v p.min p.max)

def admits (v : F) : Bool :=
  !(decide (v < p.min) || decide (p.max < v)) &&
    !(p.hasGrid && decide (ratio 1 (10 ^ 9) < stdAbs (v - p.snap v)))

/-- What a draw from `uniform_real_distribution(min, max)` satisfies. -/
def InRange (v : F) : Prop := ¬ v < p.min ∧ ¬ p.max < v

omit [Zero F] [Add F] [Sub F] [Neg F] [Mul F] [Div F] [NatCast F] [TuningMath F] in
theorem stdClamp_of_inRange {v : F} (h : p.InRange v) : stdClamp v p.min p.max = v := by
  rw [stdClamp, if_neg h.1, if_neg h.2]

end TuningParameter

namespace TuningSpace

section Space

variable {F : Type*} (space : TuningSpace F)

def dimension : ℕ := space.parameters.length

/-- The dimension when there is no parameter of that name. -/
def findIndex (name : String) : ℕ := space.parameters.findIdx (·.name = name)

variable [Zero F] [Add F] [Sub F] [Mul F] [Div F] [LT F] [DecidableLT F]

section Constraints

variable [NatCast F]

/-- A constraint that names no parameter holds of no point. -/
def holds (c : ParameterConstraint F) (point : List F) : Bool :=
  let li := space.findIndex c.lhsName
  let ri := space.findIndex c.rhsName
  !(decide (space.dimension ≤ li) || decide (space.dimension ≤ ri)) &&
    !decide (c.bound + ratio 1 (10 ^ 9) <
      c.coeffLhs * point.getD li 0 + c.coeffRhs * point.getD ri 0)

variable [Neg F] [TuningMath F]

def isFeasible (point : List F) : Bool :=
  point.length = space.dimension &&
    (List.zipWith TuningParameter.admits space.parameters point).all id &&
    space.constraints.all fun c => space.holds c point

theorem length_of_isFeasible {point : List F} (h : space.isFeasible point = true) :
    point.length = space.dimension := by
  simp only [isFeasible, Bool.and_eq_true, decide_eq_true_eq] at h
  exact h.1.1

end Constraints

variable [TuningMath F]

/-- A point of another length is left as it is. -/
def clampToBounds (point : List F) : List F :=
  if point.length = space.dimension then
    List.zipWith TuningParameter.clampToBounds space.parameters point
  else point

/-- `RandomFeasiblePoint` from its draws, one for each parameter. -/
def randomFeasiblePoint (draw : ℕ → F) : List F :=
  space.parameters.mapIdx fun i p => p.sample (draw i)

/-- Draws between the bounds, one for each parameter. -/
def InRange (draw : ℕ → F) : Prop :=
  ∀ i (p : TuningParameter F), space.parameters[i]? = some p → p.InRange (draw i)

variable {space}

@[simp] theorem length_clampToBounds {point : List F} (h : point.length = space.dimension) :
    (space.clampToBounds point).length = space.dimension := by
  rw [dimension] at h
  simp [clampToBounds, dimension, h]

/-- What is drawn within the bounds is sampled as it would be clamped. -/
theorem randomFeasiblePoint_eq {draw : ℕ → F} (h : space.InRange draw) :
    space.randomFeasiblePoint draw =
      space.clampToBounds ((List.range space.dimension).map draw) := by
  rw [clampToBounds, if_pos (by simp)]
  apply List.ext_getElem
  · simp [randomFeasiblePoint, dimension]
  · intro i hi _
    have hlen : i < space.parameters.length := by simpa [randomFeasiblePoint] using hi
    have hin := h i _ (List.getElem?_eq_getElem hlen)
    simp [randomFeasiblePoint, TuningParameter.clampToBounds,
      TuningParameter.stdClamp_of_inRange _ hin]

end Space

/-! ### Boxes -/

section Box

variable {F : Type*} [Zero F] [Add F] [Sub F] [Neg F] [Mul F] [Div F] [NatCast F]
variable [LinearOrder F] [TuningMath F] {space : TuningSpace F}

omit [Zero F] [Add F] [Sub F] [Neg F] [Mul F] [Div F] [NatCast F] [TuningMath F] in
theorem inRange_stdClamp {p : TuningParameter F} (h : p.min ≤ p.max) (v : F) :
    p.InRange (stdClamp v p.min p.max) := by
  unfold stdClamp
  split
  · exact ⟨lt_irrefl _, not_lt.mpr h⟩
  · next hlo =>
    split
    · exact ⟨not_lt.mpr h, lt_irrefl _⟩
    · next hhi => exact ⟨hlo, hhi⟩

/-- A feasible point lies between the bounds, so the bounds are in order. -/
theorem min_le_max_of_isFeasible {point : List F} (h : space.isFeasible point = true) :
    ∀ p ∈ space.parameters, p.min ≤ p.max := by
  intro p hp
  obtain ⟨i, hi, rfl⟩ := List.mem_iff_getElem.mp hp
  have hlen : point.length = space.parameters.length := space.length_of_isFeasible h
  simp only [isFeasible, Bool.and_eq_true, List.all_eq_true] at h
  have hadmits : space.parameters[i].admits (point[i]) = true := by
    refine h.1.2 (space.parameters[i].admits point[i]) ?_
    rw [List.mem_iff_getElem]
    exact ⟨i, by simp [hlen, hi], by rw [List.getElem_zipWith]⟩
  simp only [TuningParameter.admits, Bool.and_eq_true, Bool.not_eq_true', Bool.or_eq_false_iff,
    decide_eq_false_iff_not, not_lt] at hadmits
  exact hadmits.1.1.trans hadmits.1.2

/-- Without grids and constraints every clamped point is feasible. -/
theorem clampToBounds_feasible_of_box (hconstraints : space.constraints = [])
    (hbox : ∀ p ∈ space.parameters, p.hasGrid = false ∧ p.min ≤ p.max) {point : List F}
    (h : point.length = space.dimension) :
    space.isFeasible (space.clampToBounds point) = true := by
  have hadmits : ∀ (ps : List (TuningParameter F)) (xs : List F),
      (∀ p ∈ ps, p.hasGrid = false ∧ p.min ≤ p.max) →
        (List.zipWith TuningParameter.admits ps
          (List.zipWith TuningParameter.clampToBounds ps xs)).all id = true := by
    intro ps xs hps
    induction ps generalizing xs with
    | nil => rfl
    | cons p ps ih =>
      cases xs with
      | nil => rfl
      | cons x xs =>
        obtain ⟨hgrid, hle⟩ := hps p List.mem_cons_self
        obtain ⟨hlo, hhi⟩ := inRange_stdClamp hle x
        have hrest := ih xs fun q hq => hps q (List.mem_cons_of_mem _ hq)
        simp only [List.zipWith_cons_cons, List.all_cons, hrest, Bool.and_true]
        simp [TuningParameter.admits, TuningParameter.clampToBounds, TuningParameter.sample, hgrid,
          hlo, hhi]
  have hall := hadmits space.parameters point hbox
  have hlen := length_clampToBounds h
  have hclamped : space.clampToBounds point =
      List.zipWith TuningParameter.clampToBounds space.parameters point := if_pos h
  rw [hclamped] at hlen ⊢
  simp only [isFeasible, hlen, hall, hconstraints, List.all_nil, decide_true, Bool.and_true]

end Box

/-! ### Loading -/

section Load

/-- The document of a tuning configuration whose scalars all convert. -/
structure ParameterNode (F : Type*) where
  name : String
  min : F
  max : F
  type : String
  step : Option F

structure ConstraintNode (F : Type*) where
  lhs : String
  rhs : String
  coeffLhs : Option F
  coeffRhs : Option F
  bound : F

/-- The parameters, if they are a list; the constraints, unless they are none. -/
structure TuningNode (F : Type*) where
  parameters : Option (List (ParameterNode F))
  constraints : List (ConstraintNode F)

variable {F : Type*} [Zero F] [One F]

def loadParameter (node : ParameterNode F) : Result (TuningParameter F) :=
  if node.type = "continuous" then .ok ⟨node.name, .continuous, node.min, node.max, 0⟩
  else if node.type = "discrete" then
    match node.step with
    | some step => .ok ⟨node.name, .discrete, node.min, node.max, step⟩
    | none => fail .infraConfigParseError
        ("discrete parameter '" ++ node.name ++ "' is missing 'step' field")
  else fail .infraConfigParseError
    ("unknown parameter type '" ++ node.type ++ "' for parameter '" ++ node.name ++ "'")

def loadParameters : List (ParameterNode F) → Result (List (TuningParameter F))
  | [] => .ok []
  | node :: nodes =>
    match loadParameter node with
    | .error e => .error e
    | .ok p =>
      match loadParameters nodes with
      | .error e => .error e
      | .ok ps => .ok (p :: ps)

def loadConstraint (node : ConstraintNode F) : ParameterConstraint F where
  lhsName := node.lhs
  coeffLhs := node.coeffLhs.getD 1
  rhsName := node.rhs
  coeffRhs := node.coeffRhs.getD 1
  bound := node.bound

/-- `file` is missing, or holds the `tuning` key or not. -/
def loadFromYaml (path : String) (file : Option (Option (TuningNode F))) :
    Result (TuningSpace F) :=
  match file with
  | none => fail .infraConfigFileNotFound ("tuning config file not found: " ++ path)
  | some none => fail .infraConfigParseError ("missing top-level 'tuning' key in: " ++ path)
  | some (some ⟨none, _⟩) => fail .infraConfigParseError
      ("missing or invalid 'tuning.parameters' list in: " ++ path)
  | some (some ⟨some nodes, constraints⟩) =>
    match loadParameters nodes with
    | .error e => .error e
    | .ok [] => fail .tuningSpaceEmpty
        ("tuning space has zero parameters after loading: " ++ path)
    | .ok (p :: ps) => .ok ⟨p :: ps, constraints.map loadConstraint⟩

/-- An accepted space has a parameter. -/
theorem dimension_pos_of_load {path : String} {file : Option (Option (TuningNode F))}
    {space : TuningSpace F} (h : loadFromYaml path file = .ok space) : 0 < space.dimension := by
  unfold loadFromYaml at h
  split at h <;> try cases h
  split at h <;> cases h
  exact Nat.succ_pos _

end Load

end TuningSpace

end SurfaceAi.Tuning
