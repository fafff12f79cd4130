import SurfaceAi.Library.Returns
import SurfaceAi.Reasoner.DecisionTree
import SurfaceAi.Rule.ConflictResolver

/-! Loading rule sets from a document. Nothing is taken over before the whole file has been read, so
an engine keeps its rules when a load fails. The condition builder follows null pointers where an
operand is a null node; where no operand is, neither loading nor evaluating the rules can. Rule
priorities are read and never used, and are left out. -/

namespace SurfaceAi.Rules

open Reasoning (NodeConversions member elements)

section Load

variable {D : Type} [Doubles D] (conv : NodeConversions D) (literals : YamlConversions D)
  (what : String)

/-- The handler around the whole load. `what` is the text of the library's exception. -/
def thrown {α : Type} : Outcome α := some (fail .ruleParseError ("YAML exception: " ++ what))

/-- What follows a call to the YAML library that may throw. -/
def orThrown {α β : Type} (x : Option α) (f : α → Outcome β) : Outcome β :=
  match x with
  | none => thrown what
  | some a => f a

/-- `as<std::string>(fallback)`. -/
def textOr (node : Yaml) (fallback : String) : String :=
  (NodeConversions.as conv.asString node).getD fallback

/-- The condition of a rule: none when its node is absent or null, and none when what is built is
the null pointer. -/
def loadCondition (name : String) (node : Yaml) : Outcome (Option (Expr D)) :=
  match node with
  | .missing => some (.ok none)
  | .null => some (.ok none)
  | node =>
    match buildExpressionFromYAML literals node with
    | none => none
    | some (.error e) => some (fail .ruleParseError ("condition error for rule '" ++ name ++
        "': " ++ e.message))
    | some (.ok .null) => some (.ok none)
    | some (.ok e) => some (.ok (some e))

def loadAction (node : Yaml) : Outcome (RuleAction D) :=
  if node.isDefined then
    orThrown what (member node "label") fun label =>
      orThrown what (member node "base_severity") fun severity =>
        orThrown what (member node "recommendation") fun recommendation =>
          some (.ok ⟨textOr conv label "", conv.doubleOr severity (Doubles.ofInt 0),
            textOr conv recommendation ""⟩)
  else some (.ok ⟨"", Doubles.ofInt 0, ""⟩)

/-- The names of an `overrides` or `overridden_by` list. -/
def loadNames (node : Yaml) : Outcome (List String) :=
  if node.isDefined then
    orThrown what ((elements node).mapM (NodeConversions.as conv.asString)) fun names =>
      some (.ok names)
  else some (.ok [])

def loadRule (setName : String) (ri : ℕ) (rn : Yaml) : Outcome (LoadedRule D) :=
  orThrown what (member rn "name") fun nameNode =>
    let name := textOr conv nameNode ""
    if name = "" then
      some (fail .ruleParseError ("rule at index " ++ toString ri ++ " in rule_set '" ++ setName ++
        "' has empty or missing 'name'"))
    else
      orThrown what (member rn "condition") fun conditionNode =>
      (loadCondition literals name conditionNode).andThen fun condition =>
      orThrown what (member rn "action") fun actionNode =>
      (loadAction conv what actionNode).andThen fun action =>
      orThrown what (member rn "overrides") fun overridesNode =>
      (loadNames conv what overridesNode).andThen fun overrides =>
      orThrown what (member rn "overridden_by") fun overriddenByNode =>
      (loadNames conv what overriddenByNode).andThen fun overriddenBy =>
      some (.ok ⟨⟨name, setName, condition, action⟩, overrides, overriddenBy⟩)

/-- The rules of a set from index `ri` on, up to the first that fails. -/
def loadRules (setName : String) : ℕ → List Yaml → Outcome (List (LoadedRule D))
  | _, [] => some (.ok [])
  | ri, rn :: rest =>
    (loadRule conv literals what setName ri rn).andThen fun rule =>
      (loadRules setName (ri + 1) rest).andThen fun rules => some (.ok (rule :: rules))

/-- `loaded[name] = rules` on the map of sets, which is in the order of the names. -/
def storeSet (name : String) (rules : List (LoadedRule D)) : RuleSets D → RuleSets D
  | [] => [(name, rules)]
  | (other, old) :: sets =>
    if name < other then (name, rules) :: (other, old) :: sets
    else if name = other then (name, rules) :: sets
    else (other, old) :: storeSet name rules sets

def loadSets (path : String) : RuleSets D → List (String × Yaml) → Outcome (RuleSets D)
  | loaded, [] => some (.ok loaded)
  | loaded, (setName, .sequence nodes) :: rest =>
    (loadRules conv literals what setName 0 nodes).andThen fun rules =>
      loadSets path (storeSet setName rules loaded) rest
  | _, (setName, _) :: _ =>
    some (fail .ruleParseError ("rule_set '" ++ setName ++ "' is not a sequence in " ++ path))

/-- The sets `LoadFromYAML` makes of a file, which may not be readable as a document. Over a
sequence of sets the first name is read from no node. -/
def parseRuleFile (path : String) : Option Yaml → Outcome (RuleSets D)
  | none => thrown what
  | some root =>
    orThrown what (member root "rule_sets") fun sets =>
      match sets with
      | .missing => some (fail .ruleParseError ("missing top-level 'rule_sets' key in " ++ path))
      | .map entries => loadSets conv literals what path [] entries
      | .sequence (_ :: _) => thrown what
      | _ => some (.ok [])

/-- `RuleEngine::LoadFromYAML` on an engine with these sets: what it has afterwards, and what it
returns. -/
def RuleSets.loadFromYAML (sets : RuleSets D) (path : String) (file : Option Yaml) :
    Option (RuleSets D × Result Unit) :=
  match parseRuleFile conv literals what path file with
  | none => none
  | some (.error e) => some (sets, .error e)
  | some (.ok loaded) => some (loaded, .ok ())

/-- One load after the other. -/
def RuleSets.loadAll : RuleSets D → List (String × Option Yaml) → Option (RuleSets D)
  | sets, [] => some sets
  | sets, (path, file) :: rest =>
    match sets.loadFromYAML conv literals what path file with
    | none => none
    | some (next, _) => loadAll next rest

/-- What a file holds, if it can be loaded. -/
def accepted (load : String × Option Yaml) : Option (RuleSets D) :=
  match parseRuleFile conv literals what load.1 load.2 with
  | some (.ok sets) => some sets
  | _ => none

end Load

/-! ### Steps that answer -/

section Yields

variable {α β : Type} {P : α → Prop} {Q : β → Prop} {x : Outcome α} {f : α → Outcome β}

/-- The step is not undefined, and a value it returns has the property. -/
def Yields (P : α → Prop) (x : Outcome α) : Prop := ∃ r, x = some r ∧ ∀ a, r = .ok a → P a

theorem yields_error (e : ErrorInfo) : Yields P (some (.error e)) := by
  refine ⟨.error e, rfl, ?_⟩
  intro a h
  cases h

theorem yields_ok {a : α} (h : P a) : Yields P (some (.ok a)) := by
  refine ⟨.ok a, rfl, ?_⟩
  intro b heq
  cases heq
  exact h

theorem Yields.andThen (hx : Yields P x) (hf : ∀ a, P a → Yields Q (f a)) :
    Yields Q (x.andThen f) := by
  obtain ⟨r, rfl, hr⟩ := hx
  cases r with
  | error e => exact yields_error e
  | ok a => exact hf a (hr a rfl)

theorem yields_orThrown {what : String} {x : Option α} (hf : ∀ a, x = some a → Yields Q (f a)) :
    Yields Q (orThrown what x f) := by
  cases x with
  | none => exact yields_error _
  | some a => exact hf a rfl

end Yields

/-! ### Conditions without null pointers -/

section Pointers

variable {D : Type}

/-- No node of the expression has a null operand, and it is not null itself. -/
inductive NullFree : Expr D → Prop
  | literal (v : Value D) : NullFree (.literal v)
  | fieldRef (key : String) : NullFree (.fieldRef key)
  | path (p : String) : NullFree (.path p)
  | binary (op : BinaryOp) {lhs rhs : Expr D} (source : String) (hlhs : NullFree lhs)
      (hrhs : NullFree rhs) : NullFree (.binary op lhs rhs source)
  | unary (op : UnaryOp) {operand : Expr D} (source : String) (hoperand : NullFree operand) :
      NullFree (.unary op operand source)

/-- A condition node of which no operand is absent or null. -/
inductive Operand : Yaml → Prop
  | scalar (text : String) : Operand (.scalar text)
  | sequence (nodes : List Yaml) : Operand (.sequence nodes)
  | map {entries : List (String × Yaml)}
      (hand : ∀ item ∈ (Yaml.entry entries "and").items, Operand item)
      (hor : ∀ item ∈ (Yaml.entry entries "or").items, Operand item)
      (hnot : (Yaml.entry entries "not").isDefined → Operand (Yaml.entry entries "not")) :
      Operand (.map entries)

variable [Doubles D]

theorem NullFree.sourceText {e : Expr D} (h : NullFree e) : ∃ text, e.sourceText = some text := by
  cases h with
  | literal v => exact ⟨_, rfl⟩
  | fieldRef key => exact ⟨_, rfl⟩
  | path p => exact ⟨_, rfl⟩
  | binary op source hlhs hrhs => exact ⟨_, rfl⟩
  | unary op source hoperand => exact ⟨_, rfl⟩

theorem builds_joinRest {op : BinaryOp} {word : String} {left : Expr D}
    {rest : List (Outcome (Expr D))} (hleft : NullFree left)
    (hrest : ∀ x ∈ rest, Yields NullFree x) :
    Yields NullFree (joinRest op word left rest) := by
  induction rest generalizing left with
  | nil => exact yields_ok hleft
  | cons x rest ih =>
    obtain ⟨r, rfl, hr⟩ := hrest x List.mem_cons_self
    cases r with
    | error e => exact yields_error e
    | ok right =>
      have hright := hr right rfl
      obtain ⟨l, hl⟩ := hleft.sourceText
      obtain ⟨s, hs⟩ := hright.sourceText
      rw [joinRest, joinTexts, hl, hs]
      exact ih (.binary op _ hleft hright) fun y hy => hrest y (List.mem_cons_of_mem _ hy)

theorem builds_buildJunction {op : BinaryOp} {word : String} {members : List (Outcome (Expr D))}
    (h : ∀ x ∈ members, Yields NullFree x) : Yields NullFree (buildJunction op word members) := by
  cases members with
  | nil => exact yields_error _
  | cons x rest =>
    obtain ⟨r, rfl, hr⟩ := h x List.mem_cons_self
    cases r with
    | error e => exact yields_error e
    | ok left =>
      exact builds_joinRest (hr left rfl) fun y hy => h y (List.mem_cons_of_mem _ hy)

omit [Doubles D] in
theorem builds_buildNot {x : Outcome (Expr D)} (h : Yields NullFree x) :
    Yields NullFree (buildNot x) := by
  obtain ⟨r, rfl, hr⟩ := h
  cases r with
  | error e => exact yields_error e
  | ok operand => exact yields_ok (.unary .not "not" (hr operand rfl))

variable (literals : YamlConversions D)

theorem builds_buildLiteral (node : Yaml) :
    Yields NullFree (some (buildLiteral literals node)) := by
  rw [buildLiteral]
  cases node.isScalar with
  | none => exact yields_error _
  | some text => exact yields_ok (.literal _)

omit [Doubles D] in
theorem nullFree_of_buildLhs {entries : List (String × Yaml)} {sourceHint source : String}
    {lhs : Expr D} (h : buildLhs entries sourceHint = .ok (source, lhs)) : NullFree lhs := by
  rw [buildLhs] at h
  cases hfield : (Yaml.entry entries "field").isScalar with
  | some text =>
    rw [hfield] at h
    cases h
    exact .fieldRef _
  | none =>
    rw [hfield] at h
    cases hpath : (Yaml.entry entries "path").isScalar with
    | some text =>
      rw [hpath] at h
      cases h
      exact .path _
    | none =>
      rw [hpath] at h
      cases h

theorem builds_buildOperation (entries : List (String × Yaml)) (sourceHint lhsSource : String)
    {lhs : Expr D} (hlhs : NullFree lhs) :
    Yields NullFree (some (buildOperation literals entries sourceHint lhsSource lhs)) := by
  rw [buildOperation]
  cases (Yaml.entry entries "op").isScalar with
  | none => exact yields_error _
  | some opStr =>
    cases hop : parseBinaryOp opStr with
    | none =>
      simp only [hop]
      exact yields_error _
    | some op =>
      simp only [hop]
      obtain ⟨r, hr, hfree⟩ := builds_buildLiteral literals (Yaml.entry entries "value")
      obtain rfl := Option.some.inj hr
      cases hvalue : buildLiteral literals (Yaml.entry entries "value") with
      | error e => exact yields_error e
      | ok value => exact yields_ok (.binary op _ hlhs (hfree value hvalue))

theorem builds_buildComparison (entries : List (String × Yaml)) (sourceHint : String) :
    Yields NullFree (some (buildComparison literals entries sourceHint)) := by
  rw [buildComparison]
  cases hlhs : buildLhs (D := D) entries sourceHint with
  | error e => exact yields_error e
  | ok pair =>
    obtain ⟨source, lhs⟩ := pair
    have hfree := nullFree_of_buildLhs hlhs
    change Yields NullFree (some (if _ then _ else _))
    split_ifs
    · exact yields_ok hfree
    · exact builds_buildOperation literals entries sourceHint source hfree

/-- Where no operand is absent or null, a condition is built or fails with an error. -/
theorem builds_buildExpression {node : Yaml} (h : Operand node) :
    Yields NullFree (buildExpressionFromYAML literals node) := by
  induction h with
  | scalar text =>
    rw [buildExpressionFromYAML]
    exact builds_buildLiteral literals _
  | sequence nodes =>
    rw [buildExpressionFromYAML]
    exact yields_error _
  | @map entries hand hor hnot ihand ihor ihnot =>
    rw [buildExpressionFromYAML]
    split_ifs with hcomparison handDefined horDefined hnotDefined hvalue
    · exact builds_buildComparison literals entries "condition"
    · apply builds_buildJunction
      intro x hx
      obtain ⟨item, -, rfl⟩ := List.mem_map.mp hx
      exact ihand item.1 item.2
    · apply builds_buildJunction
      intro x hx
      obtain ⟨item, -, rfl⟩ := List.mem_map.mp hx
      exact ihor item.1 item.2
    · exact builds_buildNot (ihnot hnotDefined)
    · exact builds_buildLiteral literals _
    · exact yields_error _

/-! ### Evaluation -/

/-- A wrapper that adds no undefined results. -/
def Total (w : Wrapper D) : Prop :=
  ∀ source compute, (∀ ctx, (compute ctx).1.isSome) → ∀ ctx, (w source compute ctx).1.isSome

omit [Doubles D] in
theorem total_evalWithMemo (hash : String → ℕ) : Total (evalWithMemo hash : Wrapper D) := by
  intro source compute h ctx
  rw [evalWithMemo]
  split_ifs
  · exact h ctx
  · cases ctx.get (memoKey hash source) with
    | some cached => rfl
    | none =>
      have hsome := h ctx
      rcases hrun : compute ctx with ⟨_ | _ | v, ctx'⟩
      · rw [hrun] at hsome
        cases hsome
      · rfl
      · rfl

omit [Doubles D] in
theorem isSome_bind {m : Eval D} {k : Value D → Eval D} (hm : ∀ ctx, (m ctx).1.isSome)
    (hk : ∀ v ctx, (k v ctx).1.isSome) (ctx : FactBase D) : (m.bind k ctx).1.isSome := by
  have hsome := hm ctx
  rw [Eval.bind]
  rcases hrun : m ctx with ⟨_ | _ | v, ctx'⟩
  · rw [hrun] at hsome
    cases hsome
  · rfl
  · exact hk v ctx'

/-- Without null pointers every evaluation has a result, whatever the facts. -/
theorem NullFree.isSome_evaluate {w : Wrapper D} (hw : Total w) {e : Expr D} (h : NullFree e) :
    ∀ ctx, (e.evaluate w ctx).1.isSome := by
  induction h with
  | literal v => exact fun _ => rfl
  | fieldRef key => exact hw key _ fun _ => rfl
  | path p => exact hw p _ fun _ => rfl
  | binary op source hlhs hrhs ihlhs ihrhs =>
    apply hw
    apply isSome_bind ihlhs
    intro lv ctx
    cases shortCircuit op (truth lv) with
    | some b => rfl
    | none => exact isSome_bind ihrhs (fun _ _ => rfl) ctx
  | unary op source hoperand ih =>
    apply hw
    exact isSome_bind ih fun _ _ => rfl

theorem isSome_evaluateRuleSet {w : Wrapper D} (hw : Total w) {rules : List (Rule D)}
    (h : ∀ rule ∈ rules, ∀ e, rule.condition = some e → NullFree e) (facts : FactBase D) :
    (evaluateRuleSet w facts rules).isSome := by
  induction rules generalizing facts with
  | nil => rfl
  | cons rule rules ih =>
    have hrest := ih fun r hr => h r (List.mem_cons_of_mem rule hr)
    rw [evaluateRuleSet, Rule.check]
    cases hcondition : rule.condition with
    | none =>
      simp only
      rw [Option.isSome_map]
      exact hrest facts
    | some e =>
      have hsome := (h rule List.mem_cons_self e hcondition).isSome_evaluate hw facts
      rcases hrun : e.evaluate w facts with ⟨_ | r, facts'⟩
      · rw [hrun] at hsome
        cases hsome
      · simp only [hrun, Option.map_some]
        rw [Option.isSome_map]
        exact hrest facts'

/-! ### What is loaded -/

/-- The condition of a rule's node, if there is one, has no operand that is absent or null. -/
def SolidRule (rn : Yaml) : Prop :=
  ∀ node, member rn "condition" = some node → node = .missing ∨ node = .null ∨ Operand node

/-- So have the conditions of all rules of a file. -/
def SolidFile (file : Option Yaml) : Prop :=
  ∀ root entries, file = some root → member root "rule_sets" = some (.map entries) →
    ∀ set ∈ entries, ∀ rn ∈ set.2.items, SolidRule rn

/-- A rule of the set that can be evaluated. -/
structure LoadedRule.Good (setName : String) (r : LoadedRule D) : Prop where
  name_ne : r.name ≠ ""
  ruleSet_eq : r.ruleSet = setName
  condition : ∀ e, r.condition = some e → NullFree e

structure RuleSets.WellFormed (sets : RuleSets D) : Prop where
  sorted : sets.Pairwise fun a b => a.1 < b.1
  good : ∀ set ∈ sets, ∀ r ∈ set.2, LoadedRule.Good set.1 r

omit [Doubles D] in
theorem RuleSets.wellFormed_nil : RuleSets.WellFormed ([] : RuleSets D) := by
  refine ⟨.nil, ?_⟩
  intro set hset
  cases hset

omit [Doubles D] in
theorem mem_storeSet {name : String} {rules : List (LoadedRule D)} {sets : RuleSets D}
    {set : String × List (LoadedRule D)} (h : set ∈ storeSet name rules sets) :
    set = (name, rules) ∨ set ∈ sets := by
  induction sets with
  | nil => exact .inl (List.mem_singleton.mp h)
  | cons head sets ih =>
    rw [storeSet] at h
    split_ifs at h with hlt heq
    · exact List.mem_cons.mp h
    · rcases List.mem_cons.mp h with rfl | h
      · exact .inl rfl
      · exact .inr (List.mem_cons_of_mem _ h)
    · rcases List.mem_cons.mp h with rfl | h
      · exact .inr List.mem_cons_self
      · exact (ih h).imp id (List.mem_cons_of_mem _)

omit [Doubles D] in
theorem storeSet_sorted {name : String} {rules : List (LoadedRule D)} {sets : RuleSets D}
    (h : sets.Pairwise fun a b => a.1 < b.1) :
    (storeSet name rules sets).Pairwise fun a b => a.1 < b.1 := by
  induction sets with
  | nil => exact List.pairwise_singleton _ _
  | cons head sets ih =>
    obtain ⟨hhead, hsets⟩ := List.pairwise_cons.mp h
    rw [storeSet]
    split_ifs with hlt heq
    · refine List.pairwise_cons.mpr ⟨?_, h⟩
      intro set hset
      rcases List.mem_cons.mp hset with rfl | hset
      · exact hlt
      · exact String.lt_trans hlt (hhead set hset)
    · subst heq
      exact List.pairwise_cons.mpr ⟨hhead, hsets⟩
    · refine List.pairwise_cons.mpr ⟨?_, ih hsets⟩
      intro set hset
      rcases mem_storeSet hset with rfl | hset
      · exact Std.lt_of_le_of_ne (String.not_lt.mp hlt) (Ne.symm heq)
      · exact hhead set hset

omit [Doubles D] in
theorem RuleSets.WellFormed.storeSet {name : String} {rules : List (LoadedRule D)}
    {sets : RuleSets D} (h : sets.WellFormed) (hrules : ∀ r ∈ rules, LoadedRule.Good name r) :
    RuleSets.WellFormed (Rules.storeSet name rules sets) where
  sorted := storeSet_sorted h.sorted
  good := by
    intro set hset
    rcases mem_storeSet hset with rfl | hset
    · exact hrules
    · exact h.good set hset

variable (conv : NodeConversions D) (what : String)

theorem yields_loadCondition {name : String} {node : Yaml}
    (h : node = .missing ∨ node = .null ∨ Operand node) :
    Yields (fun condition => ∀ e, condition = some e → NullFree e)
      (loadCondition literals name node) := by
  have hnone : ∀ e, (none : Option (Expr D)) = some e → NullFree e := by
    intro e he
    cases he
  rcases h with rfl | rfl | h
  · exact yields_ok hnone
  · exact yields_ok hnone
  · obtain ⟨r, hr, hfree⟩ := builds_buildExpression literals h
    have hnode : loadCondition literals name node =
        match buildExpressionFromYAML literals node with
        | none => none
        | some (.error e) => some (fail .ruleParseError ("condition error for rule '" ++ name ++
            "': " ++ e.message))
        | some (.ok .null) => some (.ok none)
        | some (.ok e) => some (.ok (some e)) := by
      cases h <;> rfl
    rw [hnode, hr]
    cases r with
    | error e => exact yields_error _
    | ok e =>
      have he := hfree e rfl
      cases he <;> refine yields_ok fun e' heq => ?_ <;> cases heq <;> exact hfree _ rfl

theorem yields_loadAction (node : Yaml) : Yields (fun _ => True) (loadAction conv what node) := by
  rw [loadAction]
  split_ifs
  · refine yields_orThrown fun label _ => yields_orThrown fun severity _ => ?_
    exact yields_orThrown fun recommendation _ => yields_ok trivial
  · exact yields_ok trivial

omit [Doubles D] in
theorem yields_loadNames (node : Yaml) : Yields (fun _ => True) (loadNames conv what node) := by
  rw [loadNames]
  split_ifs
  · exact yields_orThrown fun names _ => yields_ok trivial
  · exact yields_ok trivial

theorem yields_loadRule (setName : String) (ri : ℕ) {rn : Yaml} (h : SolidRule rn) :
    Yields (LoadedRule.Good setName) (loadRule conv literals what setName ri rn) := by
  refine yields_orThrown fun nameNode _ => ?_
  simp only
  split_ifs with hname
  · exact yields_error _
  · refine yields_orThrown fun node hnode => ?_
    apply (yields_loadCondition literals (h node hnode)).andThen
    intro condition hcondition
    refine yields_orThrown fun actionNode _ => (yields_loadAction conv what actionNode).andThen ?_
    intro action _
    refine yields_orThrown fun node _ => (yields_loadNames conv what node).andThen ?_
    intro overrides _
    refine yields_orThrown fun node _ => (yields_loadNames conv what node).andThen ?_
    intro overriddenBy _
    exact yields_ok ⟨hname, rfl, hcondition⟩

theorem yields_loadRules (setName : String) (ri : ℕ) {nodes : List Yaml}
    (h : ∀ rn ∈ nodes, SolidRule rn) :
    Yields (fun rules => ∀ r ∈ rules, LoadedRule.Good setName r)
      (loadRules conv literals what setName ri nodes) := by
  induction nodes generalizing ri with
  | nil => exact yields_ok (List.forall_mem_nil _)
  | cons rn nodes ih =>
    apply (yields_loadRule literals conv what setName ri (h rn List.mem_cons_self)).andThen
    intro rule hrule
    apply (ih (ri + 1) fun r hr => h r (List.mem_cons_of_mem rn hr)).andThen
    intro rules hrules
    apply yields_ok
    intro r hr
    rcases List.mem_cons.mp hr with rfl | hr
    · exact hrule
    · exact hrules r hr

theorem yields_loadSets (path : String) {loaded : RuleSets D} {entries : List (String × Yaml)}
    (hloaded : loaded.WellFormed) (h : ∀ set ∈ entries, ∀ rn ∈ set.2.items, SolidRule rn) :
    Yields RuleSets.WellFormed (loadSets conv literals what path loaded entries) := by
  induction entries generalizing loaded with
  | nil => exact yields_ok hloaded
  | cons set entries ih =>
    obtain ⟨setName, node⟩ := set
    cases node with
    | sequence nodes =>
      apply (yields_loadRules literals conv what setName 0 (h _ List.mem_cons_self)).andThen
      intro rules hrules
      exact ih (hloaded.storeSet hrules) fun set hset => h set (List.mem_cons_of_mem _ hset)
    | missing => exact yields_error _
    | null => exact yields_error _
    | scalar text => exact yields_error _
    | map entries => exact yields_error _

theorem yields_parseRuleFile (path : String) {file : Option Yaml} (h : SolidFile file) :
    Yields RuleSets.WellFormed (parseRuleFile conv literals what path file) := by
  cases file with
  | none => exact yields_error _
  | some root =>
    refine yields_orThrown fun sets hsets => ?_
    cases sets with
    | missing => exact yields_error _
    | map entries =>
      exact yields_loadSets literals conv what path RuleSets.wellFormed_nil
        (h root entries rfl hsets)
    | sequence nodes =>
      cases nodes with
      | nil => exact yields_ok RuleSets.wellFormed_nil
      | cons node nodes => exact yields_error _
    | null => exact yields_ok RuleSets.wellFormed_nil
    | scalar text => exact yields_ok RuleSets.wellFormed_nil

/-! ### Runs of loads -/

/-- What the engine has after the loads: the sets of the last file that could be loaded. -/
def lastAccepted (sets : RuleSets D) (loads : List (String × Option Yaml)) : RuleSets D :=
  ((loads.filterMap (accepted conv literals what)).getLast?).getD sets

theorem loadAll_eq {sets : RuleSets D} {loads : List (String × Option Yaml)}
    (h : ∀ load ∈ loads, SolidFile load.2) :
    sets.loadAll conv literals what loads = some (lastAccepted literals conv what sets loads) := by
  induction loads generalizing sets with
  | nil => rfl
  | cons load loads ih =>
    obtain ⟨path, file⟩ := load
    have hrest := fun load hload => h load (List.mem_cons_of_mem (path, file) hload)
    obtain ⟨r, hr, -⟩ := yields_parseRuleFile literals conv what path (h _ List.mem_cons_self)
    rw [RuleSets.loadAll, RuleSets.loadFromYAML, hr]
    cases r with
    | error e =>
      have hskip : accepted conv literals what (path, file) = none := by rw [accepted, hr]
      rw [lastAccepted, List.filterMap_cons_none hskip]
      exact ih hrest
    | ok loaded =>
      have htake : accepted conv literals what (path, file) = some loaded := by rw [accepted, hr]
      rw [lastAccepted, List.filterMap_cons_some htake, List.getLast?_cons]
      exact ih hrest

theorem wellFormed_lastAccepted {sets : RuleSets D} {loads : List (String × Option Yaml)}
    (hsets : sets.WellFormed) (h : ∀ load ∈ loads, SolidFile load.2) :
    (lastAccepted literals conv what sets loads).WellFormed := by
  rw [lastAccepted]
  cases hlast : (loads.filterMap (accepted conv literals what)).getLast? with
  | none => exact hsets
  | some loaded =>
    obtain ⟨load, hload, haccepted⟩ := List.mem_filterMap.mp (List.mem_of_getLast? hlast)
    obtain ⟨r, hr, hgood⟩ := yields_parseRuleFile literals conv what load.1 (h load hload)
    rw [accepted, hr] at haccepted
    cases r with
    | error e => cases haccepted
    | ok other =>
      cases haccepted
      exact hgood loaded rfl

/-- Over any run of loads from an engine without rules, in which no condition has an absent or null
operand: no load follows a null pointer, a load that fails keeps the rules there are, the engine has
the rules of the last file that could be loaded, its sets in the order of their names and every rule
named and in its set, and whatever the facts and however it is memoised, their evaluation follows no
null pointer either. -/
theorem loads_evaluate (loads : List (String × Option Yaml))
    (h : ∀ load ∈ loads, SolidFile load.2) :
    ∃ sets : RuleSets D, RuleSets.loadAll conv literals what [] loads = some sets ∧
      sets = lastAccepted literals conv what [] loads ∧ sets.WellFormed ∧
      ∀ (hash : String → ℕ) (facts : FactBase D),
        (sets.engine.evaluateAll (evalWithMemo hash) facts).isSome := by
  have hgood := wellFormed_lastAccepted literals conv what RuleSets.wellFormed_nil h
  refine ⟨_, loadAll_eq literals conv what h, rfl, hgood, ?_⟩
  intro hash facts
  rw [RuleEngine.evaluateAll, Option.isSome_map]
  apply (Returns.isSome_mapM _).mpr
  intro set hset
  obtain ⟨loaded, hloaded, rfl⟩ := List.mem_map.mp hset
  apply isSome_evaluateRuleSet (total_evalWithMemo hash)
  intro rule hrule
  obtain ⟨r, hr, rfl⟩ := List.mem_map.mp hrule
  exact (hgood.good loaded hloaded r hr).condition

end Pointers

/-! ### A load, and one that fails -/

/-- A set with one rule, whose condition is the negation of a field. -/
def mattFile : Option Yaml := some (.map [("rule_sets", .map [("finish", .sequence
  [.map [("name", .scalar "matt"),
    ("condition", .map [("not", .map [("field", .scalar "glossy")])])]])])])

def textConversions : NodeConversions ℚ := ⟨Yaml.isScalar, fun _ => none⟩

def noNumbers : YamlConversions ℚ := ⟨fun _ => none, fun _ => none⟩

theorem solidFile_mattFile : SolidFile mattFile := by
  intro root entries hfile hentries set hset rn hrn node hnode
  cases hfile
  simp only [member, Yaml.entry, if_true, Option.some.injEq, Yaml.map.injEq] at hentries
  subst hentries
  obtain rfl := List.mem_singleton.mp hset
  obtain rfl := List.mem_singleton.mp hrn
  simp only [member, Yaml.entry, String.reduceEq, if_true, if_false, Option.some.injEq] at hnode
  subst hnode
  refine .inr (.inr (.map ?_ ?_ fun _ => .map ?_ ?_ ?_)) <;>
    simp [Yaml.entry, Yaml.items, Yaml.isDefined]

theorem loads_evaluate_matt : ∃ sets : RuleSets ℚ,
    RuleSets.loadAll textConversions noNumbers "" []
      [("rules.yaml", mattFile), ("rules.yaml", none)] = some sets ∧
      sets = lastAccepted noNumbers textConversions "" []
        [("rules.yaml", mattFile), ("rules.yaml", none)] ∧ sets.WellFormed ∧
      ∀ (hash : String → ℕ) (facts : FactBase ℚ),
        (sets.engine.evaluateAll (evalWithMemo hash) facts).isSome := by
  apply loads_evaluate
  intro load hload
  rcases List.mem_pair.mp hload with rfl | rfl
  · exact solidFile_mattFile
  · intro root entries hfile
    cases hfile

end SurfaceAi.Rules
