import SurfaceAi.Reasoner.Reasoner
import Mathlib.Data.List.Infix
import Mathlib.Data.List.Sort
import Mathlib.Data.String.Basic
import Std.Data.String.ToNat

/-! The trace that the reasoner records on its way and the evidence it packs with a result: an
item for every fact, linked to the first step that mentions it, and an item for every rule. Time
stamps are left out, and so is the parent of a step, which nothing sets. -/

namespace SurfaceAi.Reasoning

open Rules Pipeline

inductive TraceLevel where
  | expression | rule | treeBranch | scoring
  deriving DecidableEq, Repr

structure RecordedStep extends TraceStep where
  level : TraceLevel
  sourceLocation : String
  deriving DecidableEq, Repr

structure TraceRecorder where
  steps : List RecordedStep
  nextId : ℕ

def stepId (n : ℕ) : String := "step_" ++ toString n

namespace TraceRecorder

def create : TraceRecorder := ⟨[], 0⟩

def record (level : TraceLevel) (desc source : String) (tracer : TraceRecorder) : TraceRecorder :=
  ⟨tracer.steps ++ [⟨⟨stepId tracer.nextId, desc⟩, level, source⟩], tracer.nextId + 1⟩

def recordExpression : String → String → TraceRecorder → TraceRecorder := record .expression

def recordRule (ruleName : String) (matched : Bool) : TraceRecorder → TraceRecorder :=
  record .rule (ruleName ++ " (matched=" ++ (if matched then "true" else "false") ++ ")") ruleName

def recordTreeBranch (field value branch : String) : TraceRecorder → TraceRecorder :=
  record .treeBranch (field ++ "=" ++ value ++ " -> " ++ branch) field

def recordScoring {D : Type} [Doubles D] (formulaDesc : String) (score : D) :
    TraceRecorder → TraceRecorder :=
  record .scoring (formulaDesc ++ " score=" ++ Doubles.toText score) formulaDesc

end TraceRecorder

variable {D : Type} [Doubles D]

/-- The matched rules with their evaluations. An evaluation's source location is its rule's name. -/
def recordRules (rules : List (ResolvedRule D)) (tracer : TraceRecorder) : TraceRecorder :=
  rules.foldl (fun tracer r =>
    if r.matched then
      r.evalTrace.foldl (fun tracer step => tracer.recordExpression step.description r.name)
        (tracer.recordRule r.name true)
    else tracer) tracer

section Walk

variable (exp : D → D) (stod : String → Option D) (facts : FactBase D)

/-- What is recorded where the walk goes on: the value and the name of the branch, and the child. -/
def branchTaken (field : String) (branches : List (String × DecisionNode D))
    (default : Option (DecisionNode D)) : String × String × Option (DecisionNode D) :=
  match ((facts.get field).bind Value.asString).bind fun s => branches.find? fun b => b.1 = s with
  | some b => (b.1, b.1, some b.2)
  | none =>
    match (numericFact facts field).bind fun d =>
        (branches.find? fun b => matchNumeric stod b.1 d).map fun b => (d, b) with
    | some (d, b) => (Doubles.toText d, b.1, some b.2)
    | none => (if (facts.get field).isSome then "value" else "missing", "default", default)

theorem branchTaken_child (field : String) (branches : List (String × DecisionNode D))
    (default : Option (DecisionNode D)) :
    (branchTaken stod facts field branches default).2.2 =
      dispatch stod facts field branches default := by
  rw [branchTaken, dispatch]
  cases ((facts.get field).bind Value.asString).bind fun s => branches.find? fun b => b.1 = s with
  | some b => rfl
  | none =>
    cases numericFact facts field with
    | none => rfl
    | some d =>
      simp only [Option.bind_some]
      cases branches.find? fun b => matchNumeric stod b.1 d with
      | none => rfl
      | some b => rfl

/-- `TreeWalker::Walk`, with the steps it records. -/
def tracedWalk (tracer : TraceRecorder) : DecisionNode D → Option (WalkResult D × TraceRecorder)
  | .leaf node =>
    (computeMax exp facts node.formulas).map fun score =>
      (⟨node.label, score, node.recommendation⟩,
        tracer.recordScoring ("Leaf: " ++ node.label ++ " score=" ++ Doubles.toText score) score)
  | .branch field branches default =>
    let taken := branchTaken stod facts field branches default
    let tracer := tracer.recordTreeBranch field taken.1 taken.2.1
    match _h : taken.2.2 with
    | some child => tracedWalk tracer child
    | none =>
      some (⟨"UNCERTAIN", Doubles.ofInt 0, "No matching branch and no default"⟩, tracer)
termination_by node => sizeOf node
decreasing_by exact sizeOf_dispatch_lt ((branchTaken_child ..).symm.trans _h)

end Walk

structure EvidenceItem (D : Type) where
  traceId : String
  key : String
  value : Value D
  source : FactSource
  description : String

/-- The description of the step contains the key. -/
def RecordedStep.mentions (step : RecordedStep) (key : String) : Bool :=
  key.toList <:+: step.description.toList

/-- One turn of the search for the steps: a key keeps the first step that mentions it. -/
def linkKey (step : RecordedStep) (links : String → Option String) (key : String) :
    String → Option String :=
  if step.mentions key = true ∧ links key = none then Function.update links key (some step.id)
  else links

/-- `key_to_trace`. -/
def keyToTrace (keys : List String) (trace : List RecordedStep) : String → Option String :=
  trace.foldl (fun links step => keys.foldl (linkKey step) links) fun _ => none

/-- The entries of a fact base in the order of their keys. -/
def allEntries (facts : FactBase D) : List (String × Rules.Entry D) :=
  (facts.entries.entries.map fun e => (e.1, e.2)).insertionSort fun a b => a.1 ≤ b.1

def factItem (links : String → Option String) (sources : List (String × FactSource))
    (entry : String × Rules.Entry D) : EvidenceItem D where
  traceId := (links entry.1).getD ""
  key := entry.1
  value := entry.2.value
  source := (sources.lookup entry.1).getD ⟨.direct, ""⟩
  description := "fact: " ++ entry.1

def ruleItem (rule : ResolvedRule D) : EvidenceItem D where
  traceId := (rule.evalTrace.head?.map TraceStep.id).getD ""
  key := rule.name
  value := .ofDouble rule.action.baseSeverity
  source := ⟨if rule.matched then .computed else .default, "rule evaluation"⟩
  description := "rule: " ++ rule.name ++ (if rule.matched then " (matched)" else " (unmatched)")

/-- `EvidenceCollector::Pack`. -/
def pack (facts : FactBase D) (trace : List RecordedStep) (rules : List (ResolvedRule D)) :
    List (EvidenceItem D) :=
  let entries := allEntries facts
  let sources := entries.map fun e => (e.1, e.2.source)
  entries.map (factItem (keyToTrace (entries.map Prod.fst) trace) sources) ++ rules.map ruleItem

structure TracedResult (D : Type) extends ReasoningResult D where
  trace : List RecordedStep
  evidence : List (EvidenceItem D)

/-- `DefaultReasoner::Reason`, with the trace and the evidence. -/
def DefaultReasoner.tracedReason (exp : D → D) (stod : String → Option D)
    (reasoner : DefaultReasoner D) (facts : FactBase D) (rules : List (ResolvedRule D)) :
    Option (TracedResult D) :=
  (tracedWalk exp stod facts (recordRules rules .create) reasoner.tree.root).map
    fun (walked, tracer) =>
      { reasoner.assemble rules walked with
        trace := tracer.steps
        evidence := pack facts tracer.steps rules }

/-! ### The trace -/

section Trace

variable {exp : D → D} {stod : String → Option D} {facts : FactBase D} {tracer : TraceRecorder}

theorem leafReached_branch {field : String} {branches : List (String × DecisionNode D)}
    {default : Option (DecisionNode D)} :
    leafReached stod facts (.branch field branches default) =
      (dispatch stod facts field branches default).bind (leafReached stod facts) := by
  rw [leafReached]
  split
  · next child hchild => rw [hchild, Option.bind_some]
  · next hnone => rw [hnone, Option.bind_none]

/-- Recording changes nothing of the walk. -/
theorem tracedWalk_fst (tracer : TraceRecorder) (node : DecisionNode D) :
    (tracedWalk exp stod facts tracer node).map Prod.fst = walk stod facts exp node := by
  fun_induction tracedWalk exp stod facts tracer node with
  | case1 tracer node =>
    rw [walk, leafReached, Option.map_map]
    rfl
  | case2 tracer field branches default taken tracer' child htaken ih =>
    have hchild : dispatch stod facts field branches default = some child :=
      (branchTaken_child ..).symm.trans htaken
    rw [ih, walk, walk, leafReached_branch, hchild, Option.bind_some]
  | case3 tracer field branches default taken tracer' htaken =>
    have hnone : dispatch stod facts field branches default = none :=
      (branchTaken_child ..).symm.trans htaken
    rw [walk, leafReached_branch, hnone]
    rfl

/-- The steps are numbered in the order in which they are recorded. -/
def TraceRecorder.Numbered (tracer : TraceRecorder) : Prop :=
  tracer.steps.map (fun step => step.id) = (List.range tracer.nextId).map stepId

theorem TraceRecorder.Numbered.record (h : tracer.Numbered) (level : TraceLevel)
    (desc source : String) : (tracer.record level desc source).Numbered := by
  unfold Numbered
  rw [TraceRecorder.record, List.map_append, h, List.range_succ, List.map_append]
  rfl

omit [Doubles D] in
theorem numbered_recordRules (rules : List (ResolvedRule D)) (h : tracer.Numbered) :
    (recordRules rules tracer).Numbered := by
  unfold recordRules
  induction rules generalizing tracer with
  | nil => exact h
  | cons r rules ih =>
    rw [List.foldl_cons]
    apply ih
    split
    · have hrule := h.record .rule (r.name ++ " (matched=" ++ (if true then "true" else "false") ++
        ")") r.name
      revert hrule
      show (tracer.recordRule r.name true).Numbered → _
      generalize tracer.recordRule r.name true = tracer'
      intro hrule
      generalize r.evalTrace = steps
      induction steps generalizing tracer' with
      | nil => exact hrule
      | cons step steps ihsteps => exact ihsteps _ (hrule.record ..)
    · exact h

theorem numbered_tracedWalk {node : DecisionNode D} {result : WalkResult D × TraceRecorder}
    (h : tracer.Numbered) (hwalk : tracedWalk exp stod facts tracer node = some result) :
    result.2.Numbered := by
  fun_induction tracedWalk exp stod facts tracer node with
  | case1 tracer node =>
    obtain ⟨score, -, rfl⟩ := Option.map_eq_some_iff.mp hwalk
    exact h.record ..
  | case2 tracer field branches default taken tracer' child htaken ih => exact ih (h.record ..) hwalk
  | case3 tracer field branches default taken tracer' htaken =>
    obtain rfl := Option.some.inj hwalk
    exact h.record ..

theorem stepId_injective : Function.Injective stepId := by
  intro m n h
  apply Nat.repr_injective
  apply String.ext
  simpa only [stepId, String.toList_append, List.append_cancel_left_eq, Nat.toString_eq_repr] using
    congrArg String.toList h

/-- The id of a rule's evaluation ends in a letter. -/
theorem stepId_ne_eval (n : ℕ) (name : String) : stepId n ≠ name ++ ":eval" := by
  intro h
  have hlist := congrArg (fun s => s.toList.getLast?) h
  have hdigits : (toString n).toList = Nat.toDigits 10 n := by
    rw [Nat.toString_eq_repr, Nat.toList_repr]
  have hne : Nat.toDigits 10 n ≠ [] := Nat.toDigits_ne_nil
  simp only [stepId, String.toList_append, hdigits] at hlist
  rw [List.getLast?_append_of_ne_nil _ hne, List.getLast?_eq_some_getLast hne,
    List.getLast?_append_of_ne_nil _ (by decide)] at hlist
  have hdigit := Nat.isDigit_of_mem_toDigits (b := 10) (by omega) (by omega)
    (List.getLast_mem hne)
  rw [Option.some.inj hlist] at hdigit
  exact absurd hdigit (by decide)

end Trace

/-! ### The links -/

section Links

variable {keys : List String} {trace : List RecordedStep} {key : String}

theorem foldl_linkKey (step : RecordedStep) (links : String → Option String) :
    keys.foldl (linkKey step) links key =
      if key ∈ keys ∧ step.mentions key = true ∧ links key = none then some step.id
      else links key := by
  induction keys generalizing links with
  | nil => simp
  | cons head rest ih =>
    rw [List.foldl_cons, ih, linkKey]
    by_cases hhead : key = head
    · subst hhead
      by_cases hlink : step.mentions key = true ∧ links key = none
      · simp [hlink]
      · have hskip : ¬(key ∈ rest ∧ step.mentions key = true ∧ links key = none) :=
          fun h => hlink h.2
        simp [hlink]
    · split_ifs <;> simp_all [Function.update_of_ne]

/-- A key is linked to the first step that mentions it. -/
theorem keyToTrace_eq (hkey : key ∈ keys) :
    keyToTrace keys trace key =
      (trace.find? fun step => step.mentions key).map fun step => step.id := by
  have hfold : ∀ links : String → Option String,
      trace.foldl (fun links step => keys.foldl (linkKey step) links) links key =
        (links key).or ((trace.find? fun step => step.mentions key).map fun step => step.id) := by
    induction trace with
    | nil => simp
    | cons step trace ih =>
      intro links
      rw [List.foldl_cons, ih, foldl_linkKey, List.find?_cons]
      cases hlink : links key with
      | some id => simp
      | none =>
        cases hmentions : step.mentions key with
        | true => simp [hkey]
        | false => simp
  exact (hfold _).trans (Option.none_or ..)

/-- The link of an item, when there is one, is that of the first step with its key. -/
def LinkedFirst (trace : List RecordedStep) (item : EvidenceItem D) : Prop :=
  ∃ front step back, trace = front ++ step :: back ∧ item.traceId = step.id ∧
    step.mentions item.key = true ∧ ∀ earlier ∈ front, earlier.mentions item.key = false

omit [Doubles D] in
theorem factItem_linked {sources : List (String × FactSource)} {entry : String × Rules.Entry D}
    (hkey : entry.1 ∈ keys) :
    (factItem (keyToTrace keys trace) sources entry).traceId = "" ∧
        (∀ step ∈ trace, step.mentions entry.1 = false) ∨
      LinkedFirst trace (factItem (keyToTrace keys trace) sources entry) := by
  cases hfind : trace.find? fun step => step.mentions entry.1 with
  | none =>
    left
    refine ⟨?_, fun step hstep => ?_⟩
    · rw [factItem, keyToTrace_eq hkey, hfind]
      rfl
    · simpa using List.find?_eq_none.mp hfind step hstep
  | some step =>
    right
    obtain ⟨hmentions, front, back, htrace, hfront⟩ := List.find?_eq_some_iff_append.mp hfind
    refine ⟨front, step, back, htrace, ?_, hmentions, fun earlier hearlier => ?_⟩
    · rw [factItem, keyToTrace_eq hkey, hfind]
      rfl
    · show earlier.mentions entry.1 = false
      simpa using hfront earlier hearlier

end Links

/-! ### A report -/

section Report

variable {w : Wrapper D} {facts : FactBase D} {rules : List (ResolvedRule D)}

/-- The rules carry the evaluations that the engine records. -/
def CarriesEvaluations (rules : List (ResolvedRule D)) : Prop :=
  ∀ r ∈ rules, ∃ desc, r.evalTrace = [⟨r.name ++ ":eval", desc⟩]

theorem carriesEvaluations_ruleSet {ruleSet : List (Rules.Rule D)}
    (h : evaluateRuleSet w facts ruleSet = some rules) : CarriesEvaluations rules := by
  induction ruleSet generalizing facts rules with
  | nil =>
    obtain rfl := Option.some.inj h
    intro r hr
    cases hr
  | cons rule ruleSet ih =>
    rw [evaluateRuleSet] at h
    split at h
    · obtain ⟨rest, hrest, rfl⟩ := Option.map_eq_some_iff.mp h
      intro r hr
      rcases List.mem_cons.mp hr with rfl | hr
      · exact ⟨_, rfl⟩
      · exact ih hrest r hr
    · cases h

theorem carriesEvaluations_evaluateAll {engine : RuleEngine D}
    (h : engine.evaluateAll w facts = some rules) : CarriesEvaluations rules := by
  obtain ⟨batches, hbatches, rfl⟩ := Option.map_eq_some_iff.mp h
  clear h
  generalize engine.ruleSets = sets at hbatches
  induction sets generalizing batches with
  | nil =>
    obtain rfl := Option.some.inj hbatches
    intro r hr
    cases hr
  | cons set sets ih =>
    rw [List.mapM_cons] at hbatches
    obtain ⟨batch, hbatch, hothers⟩ := Option.bind_eq_some_iff.mp hbatches
    obtain ⟨rest, hrest, hcons⟩ := Option.bind_eq_some_iff.mp hothers
    obtain rfl := Option.some.inj hcons
    intro r hr
    rw [List.flatten_cons] at hr
    rcases List.mem_append.mp hr with hr | hr
    · exact carriesEvaluations_ruleSet hbatch r hr
    · exact ih rest hrest r hr

omit [Doubles D] in
theorem CarriesEvaluations.resolved {loaded : List (LoadedRule D)}
    {resolved : List (ResolvedRule D)} (h : CarriesEvaluations rules)
    (hresolve : resolveConflicts loaded rules = some resolved) : CarriesEvaluations resolved := by
  obtain ⟨result, hresult, hlength, hentries⟩ := resolveConflicts_spec loaded rules
  obtain rfl := Option.some.inj (hresult.symm.trans hresolve)
  intro r hr
  obtain ⟨i, hi⟩ := List.mem_iff_getElem?.mp hr
  have hlt : i < rules.length := hlength ▸ (List.getElem?_eq_some_iff.mp hi).1
  obtain ⟨r', hr', hsame, -⟩ := hentries i rules[i] (List.getElem?_eq_getElem hlt)
  obtain rfl : r' = r := Option.some.inj (hr'.symm.trans hi)
  rw [hsame]
  exact h rules[i] (List.getElem_mem hlt)

/-- What the evidence of a result says of its trace. -/
structure Linked (facts : FactBase D) (rules : List (ResolvedRule D)) (result : TracedResult D) :
    Prop where
  numbered : result.trace.map (fun step => step.id) =
    (List.range result.trace.length).map stepId
  distinct : (result.trace.map fun step => step.id).Nodup
  items : result.evidence.map EvidenceItem.key =
    (allEntries facts).map Prod.fst ++ rules.map ResolvedRule.name
  factLinks : ∀ item ∈ result.evidence.take (allEntries facts).length,
    item.traceId = "" ∧ (∀ step ∈ result.trace, step.mentions item.key = false) ∨
      LinkedFirst result.trace item
  ruleLinks : ∀ item ∈ result.evidence.drop (allEntries facts).length,
    ∀ step ∈ result.trace, step.id ≠ item.traceId

/-- The three stages in their order, with the trace and the evidence. -/
def tracedReport (exp : D → D) (stod : String → Option D) (hash : String → ℕ)
    (ruleSets : RuleSets D) (reasoner : DefaultReasoner D) (facts : FactBase D) :
    Option (List (ResolvedRule D) × TracedResult D) := do
  let evaluated ← ruleSets.engine.evaluateAll (evalWithMemo hash) facts
  let resolved ← resolveConflicts ruleSets.rules evaluated
  let result ← reasoner.tracedReason exp stod facts resolved
  return (resolved, result)

/-- The trace and the evidence come on top of the result. -/
theorem tracedReason_result (exp : D → D) (stod : String → Option D)
    (reasoner : DefaultReasoner D) :
    (reasoner.tracedReason exp stod facts rules).map (fun r => .ok r.toReasoningResult) =
      reasoner.reason exp stod facts rules := by
  rw [DefaultReasoner.reason, ← tracedWalk_fst (recordRules rules .create),
    DefaultReasoner.tracedReason, Option.map_map, Option.map_map]
  rfl

end Report

end SurfaceAi.Reasoning
