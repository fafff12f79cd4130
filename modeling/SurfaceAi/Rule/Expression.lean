import SurfaceAi.Rule.FactBase

/-! The condition syntax tree and its evaluation. Evaluation threads the fact
base, because the memo table lives in it under keys of its own. The wrapper every
node evaluates through is a parameter: `evalWithMemo` is the source's, `direct`
calls the computation at once. A null `unique_ptr` is the node `null`;
dereferencing it is undefined behaviour, which an outcome `none` stands for. -/

namespace SurfaceAi.Rules

inductive BinaryOp where
  | and | or | add | sub | mul | div | eq | neq | lt | le | gt | ge | isIn
  deriving DecidableEq, Repr

inductive UnaryOp where
  | not | neg
  deriving DecidableEq, Repr

/-- The expression nodes the condition builder makes. `source` is `source_text_`. -/
inductive Expr (D : Type) where
  | null
  | literal (value : Value D)
  | fieldRef (key : String)
  | path (path : String)
  | binary (op : BinaryOp) (lhs rhs : Expr D) (source : String)
  | unary (op : UnaryOp) (operand : Expr D) (source : String)

/-- A computation that may also update the fact base. -/
abbrev Eval (D : Type) := FactBase D → Outcome (Value D) × FactBase D

/-- The wrapper around every node's computation, given the node's source text. -/
abbrev Wrapper (D : Type) := String → Eval D → Eval D

def direct {D : Type} : Wrapper D := fun _ compute => compute

section Memo

variable {D : Type} (hash : String → ℕ)

def memoKey (src : String) : String := "__memo__" ++ toString (hash src)

/-- `EvalWithMemo`: an empty text is never cached, an error is not stored. -/
def evalWithMemo : Wrapper D := fun src compute ctx =>
  if src = "" then compute ctx
  else
    match ctx.get (memoKey hash src) with
    | some cached => (some (.ok cached), ctx)
    | none =>
      match compute ctx with
      | (some (.ok v), ctx') =>
        (some (.ok v), ctx'.set (memoKey hash src) v ⟨.computed, "memoized:" ++ src⟩)
      | (r, ctx') => (r, ctx')

end Memo

section Texts

variable {D : Type} [Doubles D]

/-- The text a literal is given at construction. -/
def literalText (v : Value D) : String :=
  match v.asDouble with
  | some d => Doubles.toText d
  | none =>
    match v.asString with
    | some s => s
    | none =>
      match v.asBool with
      | some b => if b then "true" else "false"
      | none => "null"

/-- `SourceText()`. On a null node the call itself is undefined. -/
def Expr.sourceText : Expr D → Option String
  | .null => none
  | .literal v => some (literalText v)
  | .fieldRef key => some key
  | .path p => some p
  | .binary _ _ _ source => some source
  | .unary _ _ source => some source

end Texts

/-- Arrows become dots: `PathExpr`'s constructor scans left to right. -/
def flattenChars : List Char → List Char
  | '-' :: '>' :: rest => '.' :: flattenChars rest
  | c :: rest => c :: flattenChars rest
  | [] => []

def flattenedKey (path : String) : String := String.ofList (flattenChars path.toList)

section Evaluate

variable {D : Type} [Doubles D]

/-- How a junction reads an operand: anything but a boolean counts as false. -/
def truth (v : Value D) : Bool := v.asBool.getD false

/-- The binary operators on two values. `and` and `or` come here only when the left
operand did not decide them. -/
def applyBinary : BinaryOp → Value D → Value D → Value D
  | .and, a, b => .ofBool (truth a && truth b)
  | .or, a, b => .ofBool (truth a || truth b)
  | .add, a, b => a.add b
  | .sub, a, b => a.sub b
  | .mul, a, b => a.mul b
  | .div, a, b => a.div b
  | .eq, a, b => .ofBool (a.eq b)
  | .neq, a, b => .ofBool (!a.eq b)
  | .lt, a, b => .ofBool (a.lt b)
  | .le, a, b => .ofBool (a.lt b || a.eq b)
  | .gt, a, b => .ofBool (a.gt b)
  | .ge, a, b => .ofBool (a.gt b || a.eq b)
  | .isIn, a, b => .ofBool ((b.asList.getD []).any fun elem => a.eq elem)

def applyUnary : UnaryOp → Value D → Value D
  | .not, v => (v.asBool.map fun b => Value.ofBool !b).getD .null
  | .neg, v => (v.asNumeric.map fun d => Value.ofDouble (Doubles.neg d)).getD .null

/-- The value of `and` or `or` when the left operand decides it. -/
def shortCircuit : BinaryOp → Bool → Option Bool
  | .and, false => some false
  | .or, true => some true
  | _, _ => none

/-- The lookup of a `FieldRefExpr`. -/
def readField (key : String) (ctx : FactBase D) : Result (Value D) :=
  match ctx.get key with
  | some v => .ok v
  | none => fail .ruleTypeMismatch ("field not found: " ++ key)

/-- The key a `PathExpr` reads: the registered mapping, else the dotted path. -/
def flatKey (path : String) (ctx : FactBase D) : String :=
  (ctx.resolvePath path).getD (flattenedKey path)

/-- The lookup of a `PathExpr`. -/
def readPath (path : String) (ctx : FactBase D) : Result (Value D) :=
  match ctx.get (flatKey path ctx) with
  | some v => .ok v
  | none => fail .ruleTypeMismatch ("field not found via path: " ++ flatKey path ctx)

/-- A lookup that leaves the fact base alone. -/
def Eval.read (lookup : FactBase D → Result (Value D)) : Eval D :=
  fun ctx => (some (lookup ctx), ctx)

def Eval.pure (v : Value D) : Eval D := fun ctx => (some (.ok v), ctx)

/-- Run `m`; on a value go on with `k`, otherwise return what `m` returned. -/
def Eval.bind (m : Eval D) (k : Value D → Eval D) : Eval D := fun ctx =>
  match m ctx with
  | (some (.ok v), ctx') => k v ctx'
  | r => r

/-- `BinaryExpr::Evaluate` below the wrapper: the left operand first, and the right one
unless the left decides. -/
def evaluateBinary (op : BinaryOp) (lhs rhs : Eval D) : Eval D :=
  lhs.bind fun lv =>
    match shortCircuit op (truth lv) with
    | some b => Eval.pure (.ofBool b)
    | none => rhs.bind fun rv => Eval.pure (applyBinary op lv rv)

/-- `UnaryExpr::Evaluate` below the wrapper. -/
def evaluateUnary (op : UnaryOp) (operand : Eval D) : Eval D :=
  operand.bind fun v => Eval.pure (applyUnary op v)

/-- `Evaluate`, every node but a literal going through the wrapper. -/
def Expr.evaluate (w : Wrapper D) : Expr D → Eval D
  | .null => fun ctx => (none, ctx)
  | .literal v => Eval.pure v
  | .fieldRef key => w key (Eval.read (readField key))
  | .path p => w p (Eval.read (readPath p))
  | .binary op lhs rhs source => w source (evaluateBinary op (lhs.evaluate w) (rhs.evaluate w))
  | .unary op operand source => w source (evaluateUnary op (operand.evaluate w))

end Evaluate

end SurfaceAi.Rules
