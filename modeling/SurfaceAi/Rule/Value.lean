import SurfaceAi.Core.Error
import Mathlib.Data.Int.Notation
import Mathlib.Data.Rat.Init

/-! Fact values of the rule engine and their operators. A value is null, a scalar
(double, string or boolean) or a list. The double type is a parameter: `Doubles`
lists the operations the source uses on it and assumes no law, so that NaN and
rounding are not ruled out. -/

namespace SurfaceAi.Rules

/-- The operations on `double` used by the rule engine. `toText` is `std::to_string`. -/
class Doubles (D : Type) where
  add : D → D → D
  sub : D → D → D
  mul : D → D → D
  div : D → D → D
  neg : D → D
  lt : D → D → Bool
  eq : D → D → Bool
  ofInt : ℤ → D
  toText : D → String

/-- `%f`: the number rounded to six decimals. -/
def sixDecimals (q : ℚ) : String :=
  let n := ((if q < 0 then -q else q) * 1000000 + 1 / 2).floor.toNat
  let decimals := toString (n % 1000000)
  (if q < 0 then "-" else "") ++ toString (n / 1000000) ++ "." ++
    "".pushn '0' (6 - decimals.length) ++ decimals

/-- Doubles without rounding, for runs on concrete inputs. -/
instance exactDoubles : Doubles ℚ where
  add := (· + ·)
  sub := (· - ·)
  mul := (· * ·)
  div := (· / ·)
  neg := (- ·)
  lt a b := decide (a < b)
  eq a b := decide (a = b)
  ofInt := Int.cast
  toText := sixDecimals

inductive Scalar (D : Type) where
  | double (d : D)
  | string (s : String)
  | bool (b : Bool)
  deriving DecidableEq

inductive Value (D : Type) where
  | null
  | scalar (s : Scalar D)
  | list (vs : List (Value D))

namespace Value

variable {D : Type}

def ofDouble (d : D) : Value D := .scalar (.double d)
def ofString (s : String) : Value D := .scalar (.string s)
def ofBool (b : Bool) : Value D := .scalar (.bool b)
def ofInt64 [Doubles D] (v : ℤ) : Value D := .scalar (.double (Doubles.ofInt v))

def isNull : Value D → Bool
  | .null => true
  | _ => false

def asDouble : Value D → Option D
  | .scalar (.double d) => some d
  | _ => none

def asString : Value D → Option String
  | .scalar (.string s) => some s
  | _ => none

def asBool : Value D → Option Bool
  | .scalar (.bool b) => some b
  | _ => none

def asList : Value D → Option (List (Value D))
  | .list vs => some vs
  | _ => none

@[simp] theorem asBool_ofBool (b : Bool) : (ofBool b : Value D).asBool = some b := rfl

variable [Doubles D]

/-- A boolean counts as `1.0` or `0.0`; strings, lists and null are not numeric. -/
def asNumeric : Value D → Option D
  | .scalar (.double d) => some d
  | .scalar (.bool b) => some (Doubles.ofInt (if b then 1 else 0))
  | _ => none

/-- An arithmetic operator: null unless both sides are numeric. -/
def arith (op : D → D → D) (a b : Value D) : Value D :=
  match a.asNumeric, b.asNumeric with
  | some x, some y => ofDouble (op x y)
  | _, _ => .null

def add : Value D → Value D → Value D := arith Doubles.add
def sub : Value D → Value D → Value D := arith Doubles.sub
def mul : Value D → Value D → Value D := arith Doubles.mul

/-- Division has one more guard than the other operators: a zero divisor gives null. -/
def div (a b : Value D) : Value D :=
  match a.asNumeric, b.asNumeric with
  | some x, some y => if Doubles.eq y (Doubles.ofInt 0) then .null else ofDouble (Doubles.div x y)
  | _, _ => .null

def scalarEq : Scalar D → Scalar D → Bool
  | .double x, .double y => Doubles.eq x y
  | .string s, .string t => s == t
  | .bool a, .bool b => a == b
  | _, _ => false

mutual

/-- `operator==`: the kinds agree, and so do the scalars or the lists element by element. -/
def eq : Value D → Value D → Bool
  | .null, .null => true
  | .scalar s, .scalar t => scalarEq s t
  | .list vs, .list ws => eqList vs ws
  | _, _ => false

def eqList : List (Value D) → List (Value D) → Bool
  | [], [] => true
  | v :: vs, w :: ws => eq v w && eqList vs ws
  | _, _ => false

end

def lt (a b : Value D) : Bool :=
  match a.asNumeric, b.asNumeric with
  | some x, some y => Doubles.lt x y
  | _, _ => false

/-- `operator>` compares `*a > *b`, which for doubles is `*b < *a`. -/
def gt (a b : Value D) : Bool :=
  match a.asNumeric, b.asNumeric with
  | some x, some y => Doubles.lt y x
  | _, _ => false

end Value

end SurfaceAi.Rules
