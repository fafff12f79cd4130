import SurfaceAi.Pipeline.StageData
import SurfaceAi.Reasoner.TreeWalker
import SurfaceAi.Rule.OverrideElimination

/-! The default reasoner: the names of the rules, a walk down the decision tree, and a verdict from
the label or the score of the leaf. -/

namespace SurfaceAi.Reasoning

open Pipeline Rules

variable {D : Type} [Doubles D] (exp : D → D) (stod : String → Option D)

structure DefaultReasoner (D : Type) where
  tree : DecisionTree D

/-- The verdict is the leaf's label if that is one, else it follows from the score. -/
def verdictOf (mapping : VerdictMapping D) (result : WalkResult D) : String :=
  if result.label = "NG" ∨ result.label = "WARN" ∨ result.label = "OK" ∨
      result.label = "UNCERTAIN" then result.label
  else if Doubles.lt mapping.ngThreshold result.score then "NG"
  else if Doubles.lt mapping.warnThreshold result.score then "WARN"
  else "OK"

/-- The full result; the score of the leaf is reused as the confidence. -/
def DefaultReasoner.assemble (reasoner : DefaultReasoner D) (rules : List (ResolvedRule D))
    (result : WalkResult D) : ReasoningResult D where
  surfaceId := ""
  positionId := 0
  verdict := verdictOf reasoner.tree.verdictMapping result
  severity := result.score
  recommendation := result.recommendation
  confidence := result.score
  triggeredRules := (rules.filter fun r => r.matched).map ResolvedRule.name
  overriddenRules := (rules.filter fun r => !r.matched).map ResolvedRule.name

/-- `DefaultReasoner::Reason`. Nothing when the scoring reads past the weights of a formula. -/
def DefaultReasoner.reason (reasoner : DefaultReasoner D) (facts : FactBase D)
    (rules : List (ResolvedRule D)) : Outcome (ReasoningResult D) :=
  (walk stod facts exp reasoner.tree.root).map fun result => .ok (reasoner.assemble rules result)

/-! ### Scoring -/

/-- The walk ends at a leaf, its scoring stays within the weights, and the severity is in the unit
interval. -/
def ScoresSafely (reasoner : DefaultReasoner D) (facts : FactBase D) (rules : List (ResolvedRule D)) :
    Prop :=
  ∃ leaf, leafReached stod facts reasoner.tree.root = some leaf ∧
    ∃ result, reasoner.reason exp stod facts rules = some (.ok result) ∧ InUnit result.severity

/-- Scoring is safe exactly when in the leaf the facts lead to every feature with a number has a
weight. -/
theorem scoresSafely_iff {exp : D → D} {stod : String → Option D} (hsigmoid : SigmoidInUnit exp)
    {conv : NodeConversions D} {path : String} {file : Except String Yaml} {tree : DecisionTree D}
    (hload : loadFromYAML conv path file = some (.ok tree)) (facts : FactBase D)
    (rules : List (ResolvedRule D)) : ScoresSafely exp stod ⟨tree⟩ facts rules ↔
      ∀ leaf, leafReached stod facts tree.root = some leaf →
        ∀ formula ∈ leaf.formulas, Weighted facts formula := by
  obtain ⟨leaf, hleaf⟩ : ∃ leaf, leafReached stod facts tree.root = some leaf :=
    leafReached_isSome (loadFromYAML_complete hload)
  have hreason : DefaultReasoner.reason exp stod ⟨tree⟩ facts rules =
      (computeMax exp facts leaf.formulas).map fun score =>
        .ok (DefaultReasoner.assemble ⟨tree⟩ rules ⟨leaf.label, score, leaf.recommendation⟩) := by
    rw [DefaultReasoner.reason, walk, hleaf]
    exact Option.map_map ..
  constructor
  · rintro ⟨-, -, result, hresult, -⟩ leaf' hleaf'
    obtain rfl := Option.some.inj (hleaf.symm.trans hleaf')
    rw [hreason] at hresult
    obtain ⟨score, hscore, -⟩ := Option.map_eq_some_iff.mp hresult
    exact (computeMax_isSome exp leaf.formulas).mp (Option.isSome_iff_exists.mpr ⟨score, hscore⟩)
  · intro hweighted
    obtain ⟨score, hscore⟩ := Option.isSome_iff_exists.mp
      ((computeMax_isSome exp leaf.formulas).mpr (hweighted leaf hleaf))
    exact ⟨leaf, hleaf, _, by rw [hreason, hscore]; rfl, computeMax_inUnit hsigmoid hscore⟩

/-- Conversions to texts and to the one number that occurs. -/
def oneConversions : NodeConversions ℚ where
  asString := Yaml.isScalar
  asDouble node := node.isScalar.bind fun text => if text = "1" then some 1 else none

/-- A document with one leaf, whose score weighs one feature. -/
def leafDocument (weights : List Yaml) : Yaml :=
  .map [("type", .scalar "leaf"), ("formulas", .sequence [.map [("weights", .sequence weights),
    ("features", .sequence [.scalar "defect_score"])]])]

def leafTree (weights : List ℚ) : DecisionTree ℚ :=
  ⟨.leaf ⟨[⟨weights, ["defect_score"], 0⟩], "", ""⟩, ⟨7 / 10, 3 / 10⟩⟩

def scoreFacts : FactBase ℚ := FactBase.empty.set "defect_score" (.ofDouble 0) ⟨.direct, ""⟩

theorem sigmoidInUnit_one : SigmoidInUnit fun _ : ℚ => 1 := by
  intro x
  have hhalf : sigmoid (fun _ : ℚ => 1) x = 1 / 2 := by
    show (1 : ℚ) / (1 + 1) = 1 / 2
    decide +kernel
  rw [hhalf]
  decide +kernel

theorem scoresSafely_one_weight :
    ScoresSafely (fun _ => 1) (fun _ => none) ⟨leafTree [1]⟩ scoreFacts [] := by
  have hload : loadFromYAML oneConversions "tree.yaml" (.ok (leafDocument [.scalar "1"])) =
      some (.ok (leafTree [1])) := by
    rw [loadFromYAML, leafDocument, parseNode]
    rfl
  refine (scoresSafely_iff sigmoidInUnit_one hload scoreFacts []).mpr fun leaf hleaf => ?_
  rw [leafTree, leafReached] at hleaf
  obtain rfl := Option.some.inj hleaf
  simp [Weighted]

/-- The loader accepts a formula with a feature and no weight, whose scoring reads out of range. -/
theorem loads_feature_without_weight :
    loadFromYAML oneConversions "tree.yaml" (.ok (leafDocument [])) = some (.ok (leafTree [])) ∧
      SigmoidInUnit (fun _ : ℚ => 1) ∧
      ¬ScoresSafely (fun _ => 1) (fun _ => none) ⟨leafTree []⟩ scoreFacts [] := by
  refine ⟨?_, sigmoidInUnit_one, ?_⟩
  · rw [loadFromYAML, leafDocument, parseNode]
    rfl
  · rintro ⟨-, -, result, hresult, -⟩
    rw [DefaultReasoner.reason, walk, leafTree, leafReached] at hresult
    cases hresult

/-! ### Rule lists -/

/-- The three stages in their order: what the rules evaluate to, what the resolution of conflicts
leaves, and the result. -/
def report (hash : String → ℕ) (ruleSets : RuleSets D) (reasoner : DefaultReasoner D)
    (facts : FactBase D) :
    Option (List (ResolvedRule D) × List (ResolvedRule D) × Result (ReasoningResult D)) := do
  let evaluated ← ruleSets.engine.evaluateAll (evalWithMemo hash) facts
  let resolved ← resolveConflicts ruleSets.rules evaluated
  let result ← reasoner.reason exp stod facts resolved
  return (evaluated, resolved, result)

/-- Triggered are the rules still matched, overridden those whose match was eliminated; a rule that
did not match is in neither list. -/
def ListsTruthful (evaluated resolved : List (ResolvedRule D)) (result : ReasoningResult D) : Prop :=
  result.triggeredRules = (resolved.filter fun r => r.matched).map ResolvedRule.name ∧
    result.overriddenRules = ((evaluated.zip resolved).filter fun r =>
      r.1.matched && !r.2.matched).map (fun r => r.1.name) ∧
    ∀ e ∈ evaluated, e.matched = false →
      e.name ∉ result.triggeredRules ∧ e.name ∉ result.overriddenRules

variable {evaluated resolved : List (ResolvedRule D)}

/-- One result of the resolution beside what it was before. -/
abbrev Kept (e e' : ResolvedRule D) : Prop := e'.name = e.name ∧ (e'.matched = true → e.matched = true)

omit [Doubles D] in
/-- Those left unmatched are the eliminated ones and the ones that never matched. -/
theorem length_unmatched (h : List.Forall₂ Kept evaluated resolved) :
    (resolved.filter fun r => !r.matched).length =
      ((evaluated.zip resolved).filter fun r => r.1.matched && !r.2.matched).length +
        (evaluated.filter fun r => !r.matched).length := by
  induction h with
  | nil => rfl
  | @cons e e' evaluated resolved hkept _ ih =>
    rw [List.zip_cons_cons, List.filter_cons, List.filter_cons, List.filter_cons]
    cases he : e.matched with
    | false =>
      have he' : e'.matched = false := by
        rw [← Bool.not_eq_true]
        exact fun hmatched => by simp [hkept.2 hmatched] at he
      simp [he', ih]
      omega
    | true =>
      cases e'.matched with
      | false =>
        simp [ih]
        omega
      | true => simp [ih]

omit [Doubles D] in
/-- When all matched before, the names of those left unmatched are those of the eliminated ones. -/
theorem names_unmatched (h : List.Forall₂ Kept evaluated resolved)
    (hmatched : ∀ e ∈ evaluated, e.matched = true) :
    (resolved.filter fun r => !r.matched).map ResolvedRule.name =
      ((evaluated.zip resolved).filter fun r => r.1.matched && !r.2.matched).map
        (fun r => r.1.name) := by
  induction h with
  | nil => rfl
  | @cons e e' evaluated resolved hkept _ ih =>
    rw [List.forall_mem_cons] at hmatched
    rw [List.zip_cons_cons, List.filter_cons, List.filter_cons, hmatched.1, Bool.true_and]
    cases e'.matched with
    | false => simp [ih hmatched.2, hkept.1]
    | true => simpa using ih hmatched.2

omit [Doubles D] in
/-- The lists of a result whose overridden rules are those left unmatched. -/
theorem listsTruthful_iff_matched {result : ReasoningResult D}
    (h : List.Forall₂ Kept evaluated resolved)
    (htriggered : result.triggeredRules = (resolved.filter fun r => r.matched).map ResolvedRule.name)
    (hoverridden : result.overriddenRules =
      (resolved.filter fun r => !r.matched).map ResolvedRule.name) :
    ListsTruthful evaluated resolved result ↔ ∀ e ∈ evaluated, e.matched = true := by
  constructor
  · rintro ⟨-, hlists, -⟩ e he
    have hlength := congrArg List.length (hoverridden.symm.trans hlists)
    rw [List.length_map, List.length_map, length_unmatched h] at hlength
    have hempty : (evaluated.filter fun r => !r.matched) = [] :=
      List.eq_nil_of_length_eq_zero (by omega)
    simpa using List.filter_eq_nil_iff.mp hempty e he
  · intro hmatched
    refine ⟨htriggered, hoverridden.trans (names_unmatched h hmatched), fun e he hfalse => ?_⟩
    rw [hmatched e he] at hfalse
    cases hfalse

variable {exp stod} in
/-- The lists are truthful exactly when every rule matched in the evaluation. -/
theorem listsTruthful_iff {hash : String → ℕ} {ruleSets : RuleSets D} {reasoner : DefaultReasoner D}
    {facts : FactBase D} {result : ReasoningResult D}
    (h : report exp stod hash ruleSets reasoner facts = some (evaluated, resolved, .ok result)) :
    ListsTruthful evaluated resolved result ↔ ∀ e ∈ evaluated, e.matched = true := by
  obtain ⟨evaluated', -, hrest⟩ := Option.bind_eq_some_iff.mp h
  obtain ⟨resolved', hresolved, hrest⟩ := Option.bind_eq_some_iff.mp hrest
  obtain ⟨outcome, hreason, hpacked⟩ := Option.bind_eq_some_iff.mp hrest
  obtain ⟨rfl, rfl, rfl⟩ : evaluated' = evaluated ∧ resolved' = resolved ∧ outcome = .ok result := by
    simpa using hpacked
  obtain ⟨walked, -, hresult⟩ := Option.map_eq_some_iff.mp hreason
  obtain rfl := Except.ok.inj hresult
  exact listsTruthful_iff_matched (resolveConflicts_forall₂ hresolved) rfl rfl

/-- One rule named A, with or without a condition. -/
def oneRule (condition : Option (Expr ℚ)) : RuleSets ℚ :=
  [("a", [⟨⟨"A", "a", condition, ⟨"", 0, ""⟩⟩, [], []⟩])]

def oneEntry (matched : Bool) (text : String) : List (ResolvedRule ℚ) :=
  [⟨"A", matched, ⟨"", 0, ""⟩, [⟨"A:eval", "Evaluating condition for A -> " ++ text⟩]⟩]

def okTree : DecisionTree ℚ := ⟨.leaf ⟨[], "OK", ""⟩, ⟨7 / 10, 3 / 10⟩⟩

/-- The report on the rule, once it is known what the rule evaluates to and that it stays so. -/
theorem report_oneRule {condition : Option (Expr ℚ)} {rules : List (ResolvedRule ℚ)}
    (hevaluate : (oneRule condition).engine.evaluateAll (evalWithMemo String.length) .empty =
      some rules)
    (hresolve : resolveConflicts (oneRule condition).rules rules = some rules) :
    report (fun _ => 1) (fun _ => none) String.length (oneRule condition) ⟨okTree⟩ .empty =
      some (rules, rules, .ok (DefaultReasoner.assemble ⟨okTree⟩ rules ⟨"OK", 0, ""⟩)) := by
  have hreason : DefaultReasoner.reason (fun _ => 1) (fun _ => none) ⟨okTree⟩ .empty rules =
      some (.ok (DefaultReasoner.assemble ⟨okTree⟩ rules ⟨"OK", 0, ""⟩)) := by
    rw [DefaultReasoner.reason, walk, okTree, leafReached]
    rfl
  rw [report, hevaluate]
  show (resolveConflicts (oneRule condition).rules rules).bind _ = _
  rw [hresolve]
  show Option.bind (DefaultReasoner.reason _ _ _ _ _) _ = _
  rw [hreason]
  rfl

theorem listsTruthful_one_match : ∃ result, ListsTruthful (oneEntry true "MATCH (no condition)")
    (oneEntry true "MATCH (no condition)") result := by
  have hresolve : resolveConflicts (oneRule none).rules (oneEntry true "MATCH (no condition)") =
      some (oneEntry true "MATCH (no condition)") := by
    have hnames : matchedNames (oneEntry true "MATCH (no condition)") = ["A"] := by
      decide +kernel
    rw [resolveConflicts, resolveOverrideConflicts, hnames]
    rfl
  exact ⟨_, (listsTruthful_iff (report_oneRule rfl hresolve)).mpr (by simp [oneEntry])⟩

/-- A rule whose condition is false is reported as overridden. -/
theorem false_rule_overridden : ∃ rules result,
    report (fun _ => 1) (fun _ => none) String.length (oneRule (some (.literal (.ofBool false))))
      ⟨okTree⟩ .empty = some (rules, rules, .ok result) ∧ ¬ListsTruthful rules rules result := by
  have hresolve : resolveConflicts (oneRule (some (.literal (.ofBool false)))).rules
      (oneEntry false "NO_MATCH") = some (oneEntry false "NO_MATCH") := by
    have hnames : matchedNames (oneEntry false "NO_MATCH") = [] := by simp [matchedNames, oneEntry]
    rw [resolveConflicts, resolveOverrideConflicts, hnames]
    rfl
  refine ⟨_, _, report_oneRule rfl hresolve, ?_⟩
  rintro ⟨-, hoverridden, -⟩
  cases hoverridden

end SurfaceAi.Reasoning
