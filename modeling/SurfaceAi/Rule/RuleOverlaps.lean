import SurfaceAi.Library.OrderStatistics
import SurfaceAi.Rule.Memoization
import SurfaceAi.Rule.RuleLoader
import Mathlib.Data.String.Basic

/-! Overlaps between the rules of a set: pairs that refer to a common name. A condition reads the
facts its names stand for and no others, so rules over fields that are not reported decide
independently of each other. A path stands for a fact under another name, which two rules can share
without a common reference. -/

namespace SurfaceAi.Rules

open SortedIntersection

variable {D : Type}

/-- `CollectFieldRefs`. A null operand is followed. -/
def Expr.collectFieldRefs : Expr D → Option (List String)
  | .null => none
  | .literal _ => some []
  | .fieldRef key => some [key]
  | .path p => some [p]
  | .binary _ lhs rhs _ => do
    let l ← lhs.collectFieldRefs
    let r ← rhs.collectFieldRefs
    return l ++ r
  | .unary _ operand _ => operand.collectFieldRefs

structure OverlapWarning where
  ruleA : String
  ruleB : String
  commonFields : List String
  deriving DecidableEq, Repr

/-- What a rule without a condition refers to is nothing. -/
def LoadedRule.refs (rule : LoadedRule D) : Option (List String) :=
  match rule.condition with
  | some condition => condition.collectFieldRefs
  | none => some []

def commonFields (a b : List String) : List String :=
  intersection (a.mergeSort fun s t => decide (s ≤ t)) (b.mergeSort fun s t => decide (s ≤ t))

/-- The pairs of a list, the earlier element first. -/
def pairs {α : Type} : List α → List (α × α)
  | [] => []
  | x :: xs => (xs.map fun y => (x, y)) ++ pairs xs

/-- The warning of two rules with their references, if these meet. -/
def overlapWarning (p : (LoadedRule D × List String) × (LoadedRule D × List String)) :
    Option OverlapWarning :=
  let common := commonFields p.1.2 p.2.2
  if common = [] then none else some ⟨p.1.1.name, p.2.1.name, common⟩

def setOverlaps (rules : List (LoadedRule D)) : Option (List OverlapWarning) := do
  let refsByRule ← rules.mapM LoadedRule.refs
  return (pairs (rules.zip refsByRule)).filterMap overlapWarning

/-- `RuleEngine::DetectOverlaps`. -/
def RuleSets.detectOverlaps (sets : RuleSets D) : Option (List OverlapWarning) :=
  (sets.mapM fun set => setOverlaps set.2).map List.flatten

/-! ### The facts a condition reads -/

section Reads

/-- The keys that are read on these facts, whether or not an operand is skipped. -/
def Expr.readKeys (facts : FactBase D) : Expr D → List String
  | .null => []
  | .literal _ => []
  | .fieldRef key => [key]
  | .path p => [flatKey p facts]
  | .binary _ lhs rhs _ => lhs.readKeys facts ++ rhs.readKeys facts
  | .unary _ operand _ => operand.readKeys facts

/-- A condition without paths. -/
inductive FieldsOnly : Expr D → Prop
  | literal (v : Value D) : FieldsOnly (.literal v)
  | fieldRef (key : String) : FieldsOnly (.fieldRef key)
  | binary (op : BinaryOp) {lhs rhs : Expr D} (source : String) (hlhs : FieldsOnly lhs)
      (hrhs : FieldsOnly rhs) : FieldsOnly (.binary op lhs rhs source)
  | unary (op : UnaryOp) {operand : Expr D} (source : String) (hoperand : FieldsOnly operand) :
      FieldsOnly (.unary op operand source)

theorem FieldsOnly.collectFieldRefs {e : Expr D} (h : FieldsOnly e) (facts : FactBase D) :
    e.collectFieldRefs = some (e.readKeys facts) := by
  induction h with
  | literal v => rfl
  | fieldRef key => rfl
  | binary op source hlhs hrhs ihlhs ihrhs =>
    rw [Expr.collectFieldRefs, ihlhs, ihrhs]
    rfl
  | unary op source hoperand ih => exact ih

theorem NullFree.collectFieldRefs {e : Expr D} (h : NullFree e) :
    ∃ refs, e.collectFieldRefs = some refs := by
  induction h with
  | literal v => exact ⟨_, rfl⟩
  | fieldRef key => exact ⟨_, rfl⟩
  | path p => exact ⟨_, rfl⟩
  | binary op source hlhs hrhs ihlhs ihrhs =>
    obtain ⟨l, hl⟩ := ihlhs
    obtain ⟨r, hr⟩ := ihrhs
    refine ⟨l ++ r, ?_⟩
    rw [Expr.collectFieldRefs, hl, hr]
    rfl
  | unary op source hoperand ih => exact ih

variable [Doubles D] {facts facts' : FactBase D}

theorem plain_binary (facts : FactBase D) (op : BinaryOp) (lhs rhs : Expr D) (source : String) :
    plain facts (.binary op lhs rhs source) =
      match plain facts lhs with
      | some (.ok lv) =>
        match shortCircuit op (truth lv) with
        | some b => some (.ok (.ofBool b))
        | none =>
          match plain facts rhs with
          | some (.ok rv) => some (.ok (applyBinary op lv rv))
          | r => r
      | r => r := by
  have hrun : (evaluateBinary op (lhs.evaluate direct) (rhs.evaluate direct) facts).1 =
      plain facts (.binary op lhs rhs source) := rfl
  rw [← hrun, evaluateBinary, Eval.bind, evaluate_direct]
  rcases plain facts lhs with _ | _ | lv
  · rfl
  · rfl
  · simp only
    cases shortCircuit op (truth lv) with
    | some b => rfl
    | none =>
      simp only
      rw [Eval.bind, evaluate_direct]
      rcases plain facts rhs with _ | _ | rv <;> rfl

theorem plain_unary (facts : FactBase D) (op : UnaryOp) (operand : Expr D) (source : String) :
    plain facts (.unary op operand source) =
      match plain facts operand with
      | some (.ok v) => some (.ok (applyUnary op v))
      | r => r := by
  have hrun : (evaluateUnary op (operand.evaluate direct) facts).1 =
      plain facts (.unary op operand source) := rfl
  rw [← hrun, evaluateUnary, Eval.bind, evaluate_direct]
  rcases plain facts operand with _ | _ | v <;> rfl

/-- A condition evaluates alike on fact bases that agree on the keys it reads. -/
theorem plain_congr {e : Expr D} (hpath : ∀ p, facts'.resolvePath p = facts.resolvePath p)
    (hkeys : ∀ key ∈ e.readKeys facts, facts'.get key = facts.get key) :
    plain facts' e = plain facts e := by
  induction e with
  | null => rfl
  | literal v => rfl
  | fieldRef key =>
    change some (readField key facts') = some (readField key facts)
    rw [readField, readField, hkeys key (List.mem_singleton_self key)]
  | path p =>
    have hkey : flatKey p facts' = flatKey p facts := by
      rw [flatKey, flatKey, hpath]
    change some (readPath p facts') = some (readPath p facts)
    rw [readPath, readPath, hkey, hkeys _ (List.mem_singleton_self _)]
  | binary op lhs rhs source ihlhs ihrhs =>
    have hl := ihlhs fun key hkey => hkeys key (List.mem_append_left _ hkey)
    have hr := ihrhs fun key hkey => hkeys key (List.mem_append_right _ hkey)
    rw [plain_binary, plain_binary, hl, hr]
  | unary op operand source ih =>
    rw [plain_unary, plain_unary, ih hkeys]

/-- Setting a fact that is not read changes nothing. -/
theorem plain_set {e : Expr D} {key : String} (h : key ∉ e.readKeys facts) (v : Value D)
    (source : FactSource) : plain (facts.set key v source) e = plain facts e := by
  apply plain_congr
  · intro p
    exact FactBase.resolvePath_set facts key p v source
  · intro other hother
    apply FactBase.get_set_ne
    rintro rfl
    exact h hother

end Reads

/-! ### The pairs that are reported -/

section Pairs

theorem mem_pairs {α : Type} {l : List α} {a b : α} : (a, b) ∈ pairs l ↔ [a, b].Sublist l := by
  induction l with
  | nil => simp [pairs]
  | cons x xs ih =>
    rw [pairs, List.mem_append, List.mem_map, ih, List.sublist_cons_iff]
    constructor
    · rintro (⟨y, hy, heq⟩ | h)
      · obtain ⟨rfl, rfl⟩ := Prod.mk.inj heq
        exact .inr ⟨[y], rfl, List.singleton_sublist.mpr hy⟩
      · exact .inl h
    · rintro (h | ⟨r, heq, hr⟩)
      · exact .inr h
      · obtain ⟨rfl, rfl⟩ := List.cons.inj heq
        exact .inl ⟨b, List.singleton_sublist.mp hr, rfl⟩

theorem pairs_map {α β : Type} (f : α → β) (l : List α) :
    pairs (l.map f) = (pairs l).map (Prod.map f f) := by
  induction l with
  | nil => rfl
  | cons x xs ih =>
    rw [List.map_cons, pairs, pairs, ih, List.map_append, List.map_map, List.map_map]
    rfl

end Pairs

section Reports

/-- The names a rule refers to, none where that is undefined. -/
def LoadedRule.references (rule : LoadedRule D) : List String := rule.refs.getD []

theorem LoadedRule.Good.refs_eq {setName : String} {r : LoadedRule D} (h : r.Good setName) :
    r.refs = some r.references := by
  have hsome : ∃ refs, r.refs = some refs := by
    rw [LoadedRule.refs]
    cases hcondition : r.condition with
    | none => exact ⟨[], rfl⟩
    | some e => exact (h.condition e hcondition).collectFieldRefs
  obtain ⟨refs, hrefs⟩ := hsome
  rw [references, hrefs]
  rfl

theorem sorted_mergeSort (l : List String) :
    (l.mergeSort fun s t => decide (s ≤ t)).Pairwise (· ≤ ·) := by
  have hsorted : (l.mergeSort fun s t => decide (s ≤ t)).Pairwise
      fun s t => decide (s ≤ t) = true := by
    apply List.pairwise_mergeSort
    · intro a b c hab hbc
      exact decide_eq_true (le_trans (of_decide_eq_true hab) (of_decide_eq_true hbc))
    · intro a b
      simpa using le_total a b
  exact hsorted.imp fun h => of_decide_eq_true h

/-- The common names are in order, each as often as the rule with fewer references to it has. -/
theorem commonFields_spec (a b : List String) :
    (commonFields a b).Pairwise (· ≤ ·) ∧
      ∀ name, (commonFields a b).count name = min (a.count name) (b.count name) := by
  refine ⟨pairwise_intersection (sorted_mergeSort a), ?_⟩
  intro name
  rw [commonFields, count_intersection (sorted_mergeSort a) (sorted_mergeSort b),
    (List.mergeSort_perm a _).count_eq, (List.mergeSort_perm b _).count_eq]

theorem mem_commonFields {a b : List String} {name : String} :
    name ∈ commonFields a b ↔ name ∈ a ∧ name ∈ b := by
  rw [commonFields, mem_intersection (sorted_mergeSort a) (sorted_mergeSort b), List.mem_mergeSort,
    List.mem_mergeSort]

/-- The warning that two overlapping rules get. -/
def warningOf (a b : LoadedRule D) : OverlapWarning :=
  ⟨a.name, b.name, commonFields a.references b.references⟩

/-- Two rules refer to a common name. -/
def Overlap (a b : LoadedRule D) : Prop := ∃ name, name ∈ a.references ∧ name ∈ b.references

theorem overlapWarning_eq_some {a b : LoadedRule D} {w : OverlapWarning} :
    overlapWarning ((a, a.references), (b, b.references)) = some w ↔
      Overlap a b ∧ w = warningOf a b := by
  have hiff : commonFields a.references b.references = [] ↔ ¬ Overlap a b := by
    rw [List.eq_nil_iff_forall_not_mem, Overlap, not_exists]
    exact forall_congr' fun name => not_congr mem_commonFields
  rw [overlapWarning]
  by_cases h : commonFields a.references b.references = []
  · simp [h, hiff.mp h]
  · simp only [h, if_false, Option.some.injEq]
    rw [eq_comm]
    exact (and_iff_right (not_not.mp (mt hiff.mpr h))).symm

theorem setOverlaps_eq {rules : List (LoadedRule D)}
    (h : ∀ r ∈ rules, r.refs = some r.references) :
    setOverlaps rules = some ((pairs rules).filterMap fun p =>
      overlapWarning ((p.1, p.1.references), (p.2, p.2.references))) := by
  have hzip : rules.zip (rules.map LoadedRule.references) =
      rules.map fun r => (r, r.references) := by
    rw [List.zip_eq_zipWith, List.zipWith_map_right, List.zipWith_self]
  rw [setOverlaps, Returns.mapM_eq_map h]
  change some _ = some _
  rw [hzip, pairs_map, List.filterMap_map]
  rfl

theorem mem_detectOverlaps {sets : RuleSets D} (h : sets.WellFormed) :
    ∃ warnings, sets.detectOverlaps = some warnings ∧ ∀ w, w ∈ warnings ↔
      ∃ set ∈ sets, ∃ a b, [a, b].Sublist set.2 ∧ Overlap a b ∧ w = warningOf a b := by
  have hsets : ∀ set ∈ sets, setOverlaps set.2 = some ((pairs set.2).filterMap fun p =>
      overlapWarning ((p.1, p.1.references), (p.2, p.2.references))) :=
    fun set hset => setOverlaps_eq fun r hr => (h.good set hset r hr).refs_eq
  refine ⟨_, by rw [RuleSets.detectOverlaps, Returns.mapM_eq_map hsets]; rfl, ?_⟩
  intro w
  rw [List.mem_flatten]
  constructor
  · rintro ⟨warnings, hwarnings, hw⟩
    obtain ⟨set, hset, rfl⟩ := List.mem_map.mp hwarnings
    obtain ⟨⟨a, b⟩, hpair, hwarning⟩ := List.mem_filterMap.mp hw
    exact ⟨set, hset, a, b, mem_pairs.mp hpair, overlapWarning_eq_some.mp hwarning⟩
  · rintro ⟨set, hset, a, b, hsublist, hw⟩
    refine ⟨_, List.mem_map.mpr ⟨set, hset, rfl⟩, ?_⟩
    exact List.mem_filterMap.mpr ⟨(a, b), mem_pairs.mpr hsublist, overlapWarning_eq_some.mpr hw⟩

end Reports

/-! ### Rules that are not reported -/

section Independent

variable [Doubles D]

/-- Setting a fact that `a` refers to leaves what the condition of `b` evaluates to. -/
def Independent (a b : LoadedRule D) : Prop :=
  ∀ facts key v source, key ∈ a.references → ∀ e, b.condition = some e →
    plain (FactBase.set facts key v source) e = plain facts e

/-- The conditions of a rule name fields only. -/
def LoadedRule.FieldsOnly (r : LoadedRule D) : Prop :=
  ∀ e, r.condition = some e → Rules.FieldsOnly e

theorem independent_of_not_overlap {a b : LoadedRule D} (hb : b.FieldsOnly)
    (h : ¬ Overlap a b) : Independent a b := by
  intro facts key v source hkey e he
  apply plain_set
  intro hread
  apply h
  refine ⟨key, hkey, ?_⟩
  rw [LoadedRule.references, LoadedRule.refs, he]
  change key ∈ (e.collectFieldRefs).getD []
  rw [(hb e he).collectFieldRefs facts]
  exact hread

/-- A set of two rules over one field each. -/
def finishRules : RuleSets ℚ := [("finish",
  [⟨⟨"matt", "finish", some (.fieldRef "gloss"), ⟨"", 0, ""⟩⟩, [], []⟩,
    ⟨⟨"bright", "finish", some (.fieldRef "gloss"), ⟨"", 0, ""⟩⟩, [], []⟩])]

theorem wellFormed_finishRules : finishRules.WellFormed := by
  refine ⟨List.pairwise_singleton _ _, ?_⟩
  intro set hset r hr
  obtain rfl := List.mem_singleton.mp hset
  rcases List.mem_pair.mp hr with rfl | rfl <;> refine ⟨by decide, rfl, ?_⟩ <;> intro e he <;>
    cases he <;> exact .fieldRef "gloss"

end Independent

end SurfaceAi.Rules
