import SurfaceAi.Library.DepthFirst
import SurfaceAi.Rule.RuleEngine

/-! The resolution of override conflicts. Entries, rules and the nodes of the override graph are
linked by their names, through maps that keep one entry for a name: the last one. -/

namespace SurfaceAi.Rules

open DepthFirst Relation

/-- A rule as it is loaded, with what it declares about others. -/
structure LoadedRule (D : Type) extends Rule D where
  overrides : List String
  overriddenBy : List String

variable {D : Type}

/-- The loaded sets in the order of their names. -/
abbrev RuleSets (D : Type) := List (String × List (LoadedRule D))

def RuleSets.rules (ruleSets : RuleSets D) : List (LoadedRule D) := ruleSets.flatMap Prod.snd

/-- The engine that evaluates the sets. -/
def RuleSets.engine (ruleSets : RuleSets D) : RuleEngine D :=
  ⟨ruleSets.map fun set => (set.1, set.2.map LoadedRule.toRule)⟩

section Resolver

variable (rules : List (LoadedRule D)) (evaluated : List (ResolvedRule D))

/-- The lookup by name: a later rule replaces an earlier one. -/
def original (name : String) : Option (LoadedRule D) := rules.reverse.find? fun r => r.name = name

/-- The names with a matched entry, in order. -/
def matchedNames : List String :=
  (((evaluated.filter (·.matched)).map (·.name)).eraseDups).mergeSort fun a b => decide (a ≤ b)

/-- The index a matched name is looked up with, that of its last matched entry. -/
def matchedIdx (name : String) : Option ℕ :=
  (evaluated.zipIdx.reverse.find? fun e => e.1.matched && e.1.name == name).map Prod.snd

/-- The edges that the rule of one matched name adds, each from a name to one it overrides. -/
def declaredEdges (names : List String) (name : String) : List (String × String) :=
  match original rules name with
  | none => []
  | some rule =>
    ((rule.overrides.filter (· ∈ names)).map fun target => (name, target)) ++
      (rule.overriddenBy.filter (· ∈ names)).map fun target => (target, name)

def overrideGraph (names : List String) (name : String) : List String :=
  ((names.flatMap (declaredEdges rules names)).filter (·.1 = name)).map Prod.snd

def isOverridden (names : List String) (name : String) : Bool :=
  names.any fun other => other ≠ name && name ∈ overrideGraph rules names other

/-- One name's turn of the elimination. -/
def eliminate (names : List String) (result : List (ResolvedRule D)) (name : String) :
    List (ResolvedRule D) :=
  match matchedIdx evaluated name with
  | some idx =>
    if isOverridden rules names name then result.modify idx fun r => { r with matched := false }
    else result
  | none => result

/-- `ResolveOverrideConflicts`, with the vector as it is left. Nothing when the search for a cycle
goes deeper than there are names. -/
def resolveOverrideConflicts : Option (Result Unit × List (ResolvedRule D)) :=
  let names := matchedNames evaluated
  match search (overrideGraph rules names) names.length names (fun _ => .white) with
  | none => none
  | some (true, color) => some (fail .ruleCyclicOverride ("override cycle detected among: " ++
      " → ".intercalate (names.filter fun n => color n = .gray)), evaluated)
  | some (false, _) => some (.ok (), names.foldl (eliminate rules evaluated names) evaluated)

/-- `ResolveConflicts`: on a cycle the vector is returned as it was. -/
def resolveConflicts : Option (List (ResolvedRule D)) :=
  (resolveOverrideConflicts rules evaluated).map fun
    | (.ok (), result) => result
    | (.error _, _) => evaluated

end Resolver

/-! ### The override relation -/

/-- A rule among the given ones declares that `a` overrides `b`, on either side. -/
def Overrides (declares : LoadedRule D → Prop) (a b : String) : Prop :=
  ∃ r, declares r ∧ (r.name = a ∧ b ∈ r.overrides ∨ r.name = b ∧ a ∈ r.overriddenBy)

/-- A cycle of overrides among some names. -/
def OverrideCycle (declares : LoadedRule D → Prop) (names : List String) : Prop :=
  ∃ n, TransGen (fun a b => a ∈ names ∧ b ∈ names ∧ Overrides declares a b) n n

/-- The last rule with its name. -/
def InForce (rules : List (LoadedRule D)) (r : LoadedRule D) : Prop :=
  original rules r.name = some r

variable {rules : List (LoadedRule D)} {evaluated : List (ResolvedRule D)} {names : List String}
  {a b name : String}

theorem mem_matchedNames :
    name ∈ matchedNames evaluated ↔ ∃ e ∈ evaluated, e.matched = true ∧ e.name = name := by
  rw [matchedNames, List.mem_mergeSort, List.mem_eraseDups, List.mem_map]
  simp only [List.mem_filter, and_assoc]

theorem name_of_original {r : LoadedRule D} (h : original rules name = some r) : r.name = name := by
  simpa using List.find?_some h

theorem mem_of_original {r : LoadedRule D} (h : original rules name = some r) : r ∈ rules :=
  List.mem_reverse.mp (List.mem_of_find?_eq_some h)

theorem mem_declaredEdges : (a, b) ∈ declaredEdges rules names name ↔
    ∃ r, original rules name = some r ∧
      (name = a ∧ b ∈ r.overrides ∧ b ∈ names ∨ name = b ∧ a ∈ r.overriddenBy ∧ a ∈ names) := by
  rw [declaredEdges]
  cases original rules name with
  | none => simp
  | some r => simp [and_comm]

/-- The graph holds the declarations of the rules in force, between the given names. -/
theorem mem_overrideGraph : b ∈ overrideGraph rules names a ↔
    a ∈ names ∧ b ∈ names ∧ Overrides (InForce rules) a b := by
  have hedge : b ∈ overrideGraph rules names a ↔
      ∃ n ∈ names, (a, b) ∈ declaredEdges rules names n := by
    simp [overrideGraph]
  rw [hedge]
  constructor
  · rintro ⟨n, hn, hdeclared⟩
    obtain ⟨r, hr, ⟨rfl, hb, hnames⟩ | ⟨rfl, ha, hnames⟩⟩ := mem_declaredEdges.mp hdeclared
    · have hname := name_of_original hr
      exact ⟨hn, hnames, r, by rwa [InForce, hname], .inl ⟨hname, hb⟩⟩
    · have hname := name_of_original hr
      exact ⟨hnames, hn, r, by rwa [InForce, hname], .inr ⟨hname, ha⟩⟩
  · rintro ⟨ha, hb, r, hr, ⟨rfl, hover⟩ | ⟨rfl, hover⟩⟩
    · exact ⟨r.name, ha, mem_declaredEdges.mpr ⟨r, hr, .inl ⟨rfl, hover, hb⟩⟩⟩
    · exact ⟨r.name, hb, mem_declaredEdges.mpr ⟨r, hr, .inr ⟨rfl, hover, ha⟩⟩⟩

/-- A cycle is found exactly when the rules in force declare one among the matched names, and then
the vector is left as it was; the search always ends. -/
theorem resolveOverrideConflicts_spec (rules : List (LoadedRule D))
    (evaluated : List (ResolvedRule D)) :
    (∃ e, resolveOverrideConflicts rules evaluated = some (.error e, evaluated) ∧
        e.code = .ruleCyclicOverride ∧
        OverrideCycle (InForce rules) (matchedNames evaluated)) ∨
      resolveOverrideConflicts rules evaluated = some (.ok (), (matchedNames evaluated).foldl
          (eliminate rules evaluated (matchedNames evaluated)) evaluated) ∧
        ¬OverrideCycle (InForce rules) (matchedNames evaluated) := by
  have hedges : Edge (overrideGraph rules (matchedNames evaluated)) = fun a b =>
      a ∈ matchedNames evaluated ∧ b ∈ matchedNames evaluated ∧ Overrides (InForce rules) a b := by
    funext a b
    exact propext mem_overrideGraph
  have hends : (search (overrideGraph rules (matchedNames evaluated))
      (matchedNames evaluated).length (matchedNames evaluated) fun _ => .white).isSome :=
    isSome_search (fun v _ w hw => (mem_overrideGraph.mp hw).2.1) (fun _ hn => hn) le_rfl
  obtain ⟨⟨found, color⟩, hsearch⟩ := Option.isSome_iff_exists.mp hends
  have hfound := search_found_iff (fun v w hvw => (mem_overrideGraph.mp hvw).1) hsearch
  rw [hedges] at hfound
  rw [resolveOverrideConflicts]
  cases found with
  | true => exact .inl ⟨_, by simp only [hsearch]; rfl, rfl, hfound.mp rfl⟩
  | false => exact .inr ⟨by simp only [hsearch], fun hcycle => absurd (hfound.mpr hcycle) (by simp)⟩

/-! ### Detection of cycles -/

/-- The cycles that any of the rules declare among the matched names are found exactly, and an
error leaves the vector as it was. -/
def FindsCycles (rules : List (LoadedRule D)) (evaluated : List (ResolvedRule D)) : Prop :=
  ∃ outcome evaluated', resolveOverrideConflicts rules evaluated = some (outcome, evaluated') ∧
    ((∃ e, outcome = .error e ∧ e.code = .ruleCyclicOverride) ↔
      OverrideCycle (· ∈ rules) (matchedNames evaluated)) ∧
    ((∃ e, outcome = .error e) → evaluated' = evaluated)

theorem OverrideCycle.mono {declares declares' : LoadedRule D → Prop}
    (h : ∀ r, declares r → declares' r) (hcycle : OverrideCycle declares names) :
    OverrideCycle declares' names := by
  obtain ⟨n, hcycle⟩ := hcycle
  refine ⟨n, TransGen.mono (fun a b => ?_) n n hcycle⟩
  rintro ⟨ha, hb, r, hr, hover⟩
  exact ⟨ha, hb, r, h r hr, hover⟩

theorem InForce.mem {r : LoadedRule D} (h : InForce rules r) : r ∈ rules := mem_of_original h

/-- Cycles are found exactly unless all of them need a rule that a later one with the same name
replaces. -/
theorem findsCycles_iff (ruleSets : RuleSets D) (evaluated : List (ResolvedRule D)) :
    FindsCycles ruleSets.rules evaluated ↔
      (OverrideCycle (· ∈ ruleSets.rules) (matchedNames evaluated) →
        OverrideCycle (InForce ruleSets.rules) (matchedNames evaluated)) := by
  rcases resolveOverrideConflicts_spec ruleSets.rules evaluated with
    ⟨e, hresolve, hcode, hcycle⟩ | ⟨hresolve, hacyclic⟩
  · have hdeclared := hcycle.mono fun _ hr => hr.mem
    exact iff_of_true ⟨_, _, hresolve, iff_of_true ⟨e, rfl, hcode⟩ hdeclared, fun _ => rfl⟩
      fun _ => hcycle
  · constructor
    · rintro ⟨outcome, evaluated', hresult, hfound, -⟩ hdeclared
      obtain ⟨e, rfl, -⟩ := hfound.mpr hdeclared
      rw [hresolve] at hresult
      cases hresult
    · intro hkept
      refine ⟨_, _, hresolve, iff_of_false ?_ (mt hkept hacyclic), ?_⟩
      · rintro ⟨e, he, -⟩
        cases he
      · rintro ⟨e, he⟩
        cases he

/-- Two rules of one name, the first of which overrides itself. -/
def replacedRules : RuleSets ℚ :=
  [("a", [⟨⟨"A", "a", none, ⟨"", 0, ""⟩⟩, ["A"], []⟩]),
    ("b", [⟨⟨"A", "b", none, ⟨"", 0, ""⟩⟩, [], []⟩])]

def bothMatched : List (ResolvedRule ℚ) :=
  [⟨"A", true, ⟨"", 0, ""⟩, []⟩, ⟨"A", true, ⟨"", 0, ""⟩, []⟩]

/-- The cycle of the replaced rule is not found. -/
theorem replaced_cycle_not_found : ¬FindsCycles replacedRules.rules bothMatched := by
  rintro ⟨outcome, evaluated', hresult, hfound, -⟩
  have hok : (resolveOverrideConflicts replacedRules.rules bothMatched).map (·.1.isOk) =
      some true := by
    decide +kernel
  have hname : "A" ∈ matchedNames bothMatched :=
    mem_matchedNames.mpr ⟨_, List.mem_cons_self, rfl, rfl⟩
  have hdeclared : OverrideCycle (· ∈ replacedRules.rules) (matchedNames bothMatched) :=
    ⟨"A", .single ⟨hname, hname, _, List.mem_cons_self, .inl ⟨rfl, List.mem_cons_self⟩⟩⟩
  obtain ⟨e, rfl, -⟩ := hfound.mpr hdeclared
  rw [hresult] at hok
  cases hok

end SurfaceAi.Rules
