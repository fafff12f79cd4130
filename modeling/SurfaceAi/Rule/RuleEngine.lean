import SurfaceAi.Rule.ConditionBuilder

/-! The rule engine's evaluation of one rule set: every rule's condition is
evaluated on the same fact base, so later rules see the memo entries of earlier
ones. Time stamps and the constant fields of a trace step are left out. -/

namespace SurfaceAi.Rules

structure RuleAction (D : Type) where
  label : String
  baseSeverity : D
  recommendation : String

structure Rule (D : Type) where
  name : String
  ruleSet : String
  condition : Option (Expr D)
  action : RuleAction D

structure TraceStep where
  id : String
  description : String
  deriving DecidableEq, Repr

structure ResolvedRule (D : Type) where
  name : String
  matched : Bool
  action : RuleAction D
  evalTrace : List TraceStep

variable {D : Type} [Doubles D] (w : Wrapper D)

/-- The flag a condition's result gives and what is appended to the rule's trace. -/
def verdict : Result (Value D) → Bool × String
  | .ok v => if truth v then (true, " -> MATCH") else (false, " -> NO_MATCH")
  | .error e => (false, " -> ERROR: " ++ e.message)

/-- Evaluate one rule's condition. A rule without a condition always matches. -/
def Rule.check (rule : Rule D) (facts : FactBase D) :
    Option (Bool × String) × FactBase D :=
  match rule.condition with
  | none => (some (true, " -> MATCH (no condition)"), facts)
  | some condition =>
    let (outcome, facts') := condition.evaluate w facts
    (outcome.map verdict, facts')

def Rule.resolved (rule : Rule D) (v : Bool × String) : ResolvedRule D where
  name := rule.name
  matched := v.1
  action := rule.action
  evalTrace := [⟨rule.name ++ ":eval", "Evaluating condition for " ++ rule.name ++ v.2⟩]

/-- `EvaluateRuleSet`, with the wrapper of the evaluation as a parameter. `none` is the
run that dereferences a null condition operand. -/
def evaluateRuleSet : FactBase D → List (Rule D) → Option (List (ResolvedRule D))
  | _, [] => some []
  | facts, rule :: rules =>
    match rule.check w facts with
    | (some v, facts') => (evaluateRuleSet facts' rules).map (rule.resolved v :: ·)
    | (none, _) => none

/-- The matched flags, in rule order. -/
def flags (results : Option (List (ResolvedRule D))) : Option (List Bool) :=
  results.map (List.map ResolvedRule.matched)

/-- The loaded rule sets, in name order. -/
structure RuleEngine (D : Type) where
  ruleSets : List (String × List (Rule D))

/-- `EvaluateAll`: every rule set on a snapshot of its own, the results in set order. -/
def RuleEngine.evaluateAll (engine : RuleEngine D) (facts : FactBase D) :
    Option (List (ResolvedRule D)) :=
  (engine.ruleSets.mapM fun set => evaluateRuleSet w facts set.2).map List.flatten

end SurfaceAi.Rules
