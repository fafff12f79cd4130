import SurfaceAi.Rule.Memoization
import SurfaceAi.Rule.RuleEngine

/-! Memoised against plain evaluation of a rule set. All rules share one fact base,
so the tracked table runs on from one condition to the next. A memoised run agrees
with the plain one at every evaluation exactly when it is clean, and the flags then
agree too. Every negation the condition builder makes has the text `not`, so two
negations in one rule set already break this. -/

namespace SurfaceAi.Rules

variable {D : Type} [Doubles D] (hash : String → ℕ)

/-- `Clean` over a rule set, one condition after the other on the same table. A condition
without an outcome ends the run. -/
def CleanRules (facts : FactBase D) : List (Rule D) → Table D → Prop
  | [], _ => True
  | rule :: rules, table =>
    match rule.condition with
    | none => CleanRules facts rules table
    | some e => e.Clean hash facts table ∧
        (plain facts e ≠ none → CleanRules facts rules (e.track facts table))

/-- The non-empty source texts of a rule set. -/
def ruleTexts (rules : List (Rule D)) : Set String :=
  {s | s ≠ "" ∧ ∃ rule ∈ rules, ∃ e, rule.condition = some e ∧ s ∈ e.texts}

/-- The evaluations of a rule set's run. -/
inductive RunCalls : FactBase D → List (Rule D) → Expr D → FactBase D → Prop where
  | head {facts rule rules e e' ctx'} (hrule : rule.condition = some e)
      (h : Calls hash e facts e' ctx') : RunCalls facts (rule :: rules) e' ctx'
  | tail {facts rule rules v facts' e' ctx'}
      (hcheck : rule.check (evalWithMemo hash) facts = (some v, facts'))
      (h : RunCalls facts' rules e' ctx') : RunCalls facts (rule :: rules) e' ctx'

/-! ### Clean runs of a rule set -/

section Run

variable {hash} {texts : Set String} {facts ctx : FactBase D} {table : Table D}
  {rules : List (Rule D)} (hinj : Set.InjOn hash texts) (hempty : "" ∉ texts)
  (htexts : ∀ rule ∈ rules, ∀ e, rule.condition = some e → ∀ s ∈ e.texts, s = "" ∨ s ∈ texts)
include hinj hempty htexts

/-- On a clean run the two engines resolve every rule alike, trace included. -/
theorem CleanRules.evaluateRuleSet_eq (hR : Represents hash texts facts table ctx)
    (hc : CleanRules hash facts rules table) :
    evaluateRuleSet (evalWithMemo hash) ctx rules = evaluateRuleSet direct facts rules := by
  induction rules generalizing table ctx with
  | nil => rfl
  | cons rule rules ih =>
    have htail := fun r hr => htexts r (List.mem_cons_of_mem rule hr)
    cases hcond : rule.condition with
    | none =>
      rw [CleanRules, hcond] at hc
      simp only [evaluateRuleSet, Rule.check, hcond]
      rw [ih htail hR hc]
    | some e =>
      rw [CleanRules, hcond] at hc
      obtain ⟨ctx', he, hR'⟩ :=
        hc.1.evaluate_eq hinj hempty hR (htexts rule (by simp) e hcond)
      simp only [evaluateRuleSet, Rule.check, hcond, he, evaluate_direct]
      cases hplain : plain facts e with
      | none => rfl
      | some r =>
        simp only [Option.map_some]
        rw [ih htail hR' (hc.2 (by simp [hplain]))]

theorem cleanRules_of_runCalls (hR : Represents hash texts facts table ctx)
    (hfree : MemoFree facts)
    (h : ∀ e ctx', RunCalls hash ctx rules e ctx' →
      (e.evaluate (evalWithMemo hash) ctx').1 = plain facts e) :
    CleanRules hash facts rules table := by
  induction rules generalizing table ctx with
  | nil => trivial
  | cons rule rules ih =>
    have htail := fun r hr => htexts r (List.mem_cons_of_mem rule hr)
    cases hcond : rule.condition with
    | none =>
      rw [CleanRules, hcond]
      exact ih htail hR fun e ctx' hcall => h e ctx' (.tail (by rw [Rule.check, hcond]) hcall)
    | some e =>
      rw [CleanRules, hcond]
      have hte := htexts rule (by simp) e hcond
      have hc := Expr.clean_of_calls hinj hempty hR hfree hte
        fun e' ctx' hcall => h e' ctx' (.head hcond hcall)
      refine ⟨hc, fun hne => ?_⟩
      obtain ⟨ctx', he, hR'⟩ := hc.evaluate_eq hinj hempty hR hte
      obtain ⟨r, hr⟩ := Option.ne_none_iff_exists'.mp hne
      have hcheck : rule.check (evalWithMemo hash) ctx = (some (verdict r), ctx') := by
        simp only [Rule.check, hcond, he, hr, Option.map_some]
      exact ih htail hR' fun e' ctx'' hcall => h e' ctx'' (.tail hcheck hcall)

theorem CleanRules.runCalls_eq (hR : Represents hash texts facts table ctx)
    (hc : CleanRules hash facts rules table) {e : Expr D} {ctx' : FactBase D}
    (h : RunCalls hash ctx rules e ctx') :
    (e.evaluate (evalWithMemo hash) ctx').1 = plain facts e := by
  induction h generalizing table with
  | head hcond hcall =>
    rw [CleanRules, hcond] at hc
    exact hc.1.calls_eq hinj hempty hcall hR (htexts _ (by simp) _ hcond)
  | @tail ctx rule rules v ctx₁ e' ctx' hcheck _ ih =>
    have htail := fun r hr => htexts r (List.mem_cons_of_mem rule hr)
    cases hcond : rule.condition with
    | none =>
      rw [CleanRules, hcond] at hc
      rw [Rule.check, hcond] at hcheck
      obtain ⟨-, rfl⟩ := Prod.mk.inj hcheck
      exact ih htail hR hc
    | some c =>
      rw [CleanRules, hcond] at hc
      obtain ⟨ctx₂, he, hR₂⟩ :=
        hc.1.evaluate_eq hinj hempty hR (htexts rule (by simp) c hcond)
      simp only [Rule.check, hcond, he, Prod.mk.injEq] at hcheck
      obtain ⟨hv, rfl⟩ := hcheck
      refine ih htail hR₂ (hc.2 fun hnone => ?_)
      rw [hnone] at hv
      exact absurd hv (by simp)

end Run

/-- A memoised run returns the plain outcome at every evaluation if and only if it is
clean, and a clean run gives every rule the flag plain evaluation gives it. -/
theorem memoised_flags (rules : List (Rule D)) (facts : FactBase D)
    (hinj : Set.InjOn hash (ruleTexts rules)) (hfree : MemoFree facts) :
    (CleanRules hash facts rules (fun _ => none) ↔
      ∀ e ctx, RunCalls hash facts rules e ctx →
        (e.evaluate (evalWithMemo hash) ctx).1 = plain facts e) ∧
    (CleanRules hash facts rules (fun _ => none) →
      flags (evaluateRuleSet (evalWithMemo hash) facts rules) =
        flags (evaluateRuleSet direct facts rules)) := by
  have hempty : "" ∉ ruleTexts rules := fun h => h.1 rfl
  have htexts : ∀ rule ∈ rules, ∀ e, rule.condition = some e →
      ∀ s ∈ e.texts, s = "" ∨ s ∈ ruleTexts rules := by
    intro rule hrule e he s hs
    by_cases hs0 : s = ""
    · exact .inl hs0
    · exact .inr ⟨hs0, rule, hrule, e, he, hs⟩
  have hR : Represents hash (ruleTexts rules) facts (fun _ => none) facts := .init hfree
  refine ⟨⟨fun hc e ctx => hc.runCalls_eq hinj hempty htexts hR,
    cleanRules_of_runCalls hinj hempty htexts hR hfree⟩, fun hc => ?_⟩
  rw [hc.evaluateRuleSet_eq hinj hempty htexts hR]

/-! ### Negations -/

/-- The condition `{not: {field: …}}`. -/
def negationYaml (field : String) : Yaml := .map [("not", .map [("field", .scalar field)])]

def negation (field : String) : Expr D := .unary .not (.fieldRef field) "not"

theorem buildExpressionFromYAML_negation (conv : YamlConversions D) (field : String) :
    buildExpressionFromYAML conv (negationYaml field) = some (.ok (negation field)) := by
  simp [negationYaml, negation, buildExpressionFromYAML, Yaml.entry, Yaml.isDefined,
    buildComparison, buildLhs, Yaml.isScalar, buildNot, bind, Except.bind, pure, Except.pure]

/-- A positional code of a text, as an injective hash. -/
def textCode (s : String) : ℕ := s.toList.foldl (fun code c => 1114112 * code + c.toNat + 1) 0

def negationRule (name field : String) : Rule ℚ :=
  ⟨name, "visual", some (negation field), ⟨name, 1, ""⟩⟩

def negationRules : List (Rule ℚ) := [negationRule "clean" "dent", negationRule "matt" "gloss"]

/-- A dented part without gloss. -/
def negationFacts : FactBase ℚ :=
  (FactBase.empty.set "dent" (.ofBool true) ⟨.direct, ""⟩).set "gloss" (.ofBool false) ⟨.direct, ""⟩

theorem negationFacts_memoFree : MemoFree negationFacts :=
  (MemoFree.empty.set (by decide) _ _).set (by decide) _ _

theorem textCode_injOn_negations : Set.InjOn textCode (ruleTexts negationRules) := by
  have hmem : ∀ s ∈ ruleTexts negationRules, s ∈ ["not", "dent", "gloss"] := by
    rintro s ⟨-, rule, hrule, e, he, hs⟩
    simp only [negationRules, List.mem_cons, List.not_mem_nil, or_false] at hrule
    rcases hrule with rfl | rfl
    all_goals
      obtain rfl := Option.some.inj he
      simp only [negation, Expr.texts, List.mem_cons, List.not_mem_nil, or_false] at hs ⊢
      tauto
  intro s hs t ht heq
  have hcode : ∀ s ∈ ["not", "dent", "gloss"], ∀ t ∈ ["not", "dent", "gloss"],
      textCode s = textCode t → s = t := by decide
  exact hcode s (hmem s hs) t (hmem t ht) heq

/-- A rule set with one negation is clean. -/
theorem memoised_flags_one_negation :
    flags (evaluateRuleSet (evalWithMemo textCode) negationFacts
        [negationRule "clean" "dent"]) =
      flags (evaluateRuleSet direct negationFacts [negationRule "clean" "dent"]) := by
  refine (memoised_flags textCode _ negationFacts (textCode_injOn_negations.mono ?_)
    negationFacts_memoFree).2 ⟨fun s v h => absurd h (by simp), fun _ => trivial⟩
  rintro s ⟨hs, rule, hrule, h⟩
  exact ⟨hs, rule, List.mem_cons.mpr (.inl (List.mem_singleton.mp hrule)), h⟩

/-- Two negations built from YAML: the second is answered with the first one's value. -/
theorem negations_share_one_entry :
    (∀ conv : YamlConversions ℚ, ∀ rule ∈ negationRules, ∃ node e, rule.condition = some e ∧
      buildExpressionFromYAML conv node = some (.ok e)) ∧
    Set.InjOn textCode (ruleTexts negationRules) ∧ MemoFree negationFacts ∧
    flags (evaluateRuleSet (evalWithMemo textCode) negationFacts negationRules) =
      some [false, false] ∧
    flags (evaluateRuleSet direct negationFacts negationRules) = some [false, true] := by
  refine ⟨?_, textCode_injOn_negations, negationFacts_memoFree, by decide, by decide⟩
  intro conv rule hrule
  simp only [negationRules, List.mem_cons, List.not_mem_nil, or_false] at hrule
  rcases hrule with rfl | rfl
  · exact ⟨_, _, rfl, buildExpressionFromYAML_negation conv "dent"⟩
  · exact ⟨_, _, rfl, buildExpressionFromYAML_negation conv "gloss"⟩

end SurfaceAi.Rules
