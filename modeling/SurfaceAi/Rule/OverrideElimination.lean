import Mathlib.Data.List.Forall2
import SurfaceAi.Rule.ConflictResolver

/-! Which matches the resolution of override conflicts eliminates. What should count are the rules
whose entries matched; what counts are the rules in force for the matched names, and of the entries
with an overridden name the last. -/

namespace SurfaceAi.Rules

variable {D : Type} {rules : List (LoadedRule D)} {evaluated result : List (ResolvedRule D)}
  {names : List String} {name : String}

/-! ### Entries and their rules -/

/-- The rule of a matched entry; entries are in the order of the rules. -/
def MatchedRule (rules : List (LoadedRule D)) (evaluated : List (ResolvedRule D))
    (r : LoadedRule D) : Prop :=
  ∃ e, (r, e) ∈ rules.zip evaluated ∧ e.matched = true

theorem MatchedRule.mem {r : LoadedRule D} (h : MatchedRule rules evaluated r) : r ∈ rules := by
  obtain ⟨e, he, -⟩ := h
  exact (List.of_mem_zip he).1

theorem names_evaluateRuleSet [Doubles D] {w : Wrapper D} {facts : FactBase D}
    {rules : List (Rule D)} (h : evaluateRuleSet w facts rules = some evaluated) :
    evaluated.map ResolvedRule.name = rules.map Rule.name := by
  induction rules generalizing facts evaluated with
  | nil =>
    obtain rfl := Option.some.inj h
    rfl
  | cons rule rules ih =>
    rw [evaluateRuleSet] at h
    split at h
    · obtain ⟨rest, hrest, rfl⟩ := Option.map_eq_some_iff.mp h
      rw [List.map_cons, List.map_cons, ih hrest]
      rfl
    · cases h

/-- The entry at an index is the one of the rule there. -/
theorem names_evaluateAll [Doubles D] {w : Wrapper D} {facts : FactBase D} {ruleSets : RuleSets D}
    (h : ruleSets.engine.evaluateAll w facts = some evaluated) :
    evaluated.map ResolvedRule.name = ruleSets.rules.map fun r => r.name := by
  obtain ⟨batches, hbatches, rfl⟩ := Option.map_eq_some_iff.mp h
  rw [RuleSets.engine, List.mapM_map] at hbatches
  clear h
  induction ruleSets generalizing batches with
  | nil =>
    obtain rfl := Option.some.inj hbatches
    rfl
  | cons set ruleSets ih =>
    rw [List.mapM_cons] at hbatches
    obtain ⟨batch, hbatch, hothers⟩ := Option.bind_eq_some_iff.mp hbatches
    obtain ⟨rest, hrest, hcons⟩ := Option.bind_eq_some_iff.mp hothers
    obtain rfl := Option.some.inj hcons
    have hset := names_evaluateRuleSet hbatch
    have hsets := ih rest hrest
    rw [List.map_map] at hset
    rw [List.flatten_cons, List.map_append, hset, hsets, RuleSets.rules, RuleSets.rules,
      List.flatMap_cons, List.map_append]
    rfl

/-! ### The elimination -/

/-- Another one of the names overrides this one. -/
def Overridden (declares : LoadedRule D → Prop) (names : List String) (name : String) : Prop :=
  ∃ other ∈ names, other ≠ name ∧ Overrides declares other name

/-- One matched entry has the name. -/
def MatchedOnce (evaluated : List (ResolvedRule D)) (name : String) : Prop :=
  ∀ (i j : ℕ) (e e' : ResolvedRule D), evaluated[i]? = some e → evaluated[j]? = some e' →
    e.matched = true → e'.matched = true → e.name = name → e'.name = name → i = j

theorem isOverridden_iff (hname : name ∈ names) :
    isOverridden rules names name = true ↔ Overridden (InForce rules) names name := by
  simp only [isOverridden, List.any_eq_true, Bool.and_eq_true, decide_eq_true_eq, Overridden,
    mem_overrideGraph]
  constructor
  · rintro ⟨other, hother, hne, -, -, hover⟩
    exact ⟨other, hother, hne, hover⟩
  · rintro ⟨other, hother, hne, hover⟩
    exact ⟨other, hother, hne, hother, hname, hover⟩

theorem matchedIdx_eq_some {i : ℕ} (h : matchedIdx evaluated name = some i) :
    ∃ e, evaluated[i]? = some e ∧ e.matched = true ∧ e.name = name := by
  obtain ⟨⟨e, j⟩, hfind, rfl⟩ := Option.map_eq_some_iff.mp h
  have hmem := List.mem_reverse.mp (List.mem_of_find?_eq_some hfind)
  have hmatches := List.find?_some hfind
  simp only [Bool.and_eq_true, beq_iff_eq] at hmatches
  exact ⟨e, List.mem_zipIdx_iff_getElem?.mp hmem, hmatches⟩

theorem matchedIdx_isSome (h : name ∈ matchedNames evaluated) :
    ∃ i, matchedIdx evaluated name = some i := by
  obtain ⟨e, he, hmatched, hname⟩ := mem_matchedNames.mp h
  obtain ⟨i, hi⟩ := List.mem_iff_getElem?.mp he
  refine Option.isSome_iff_exists.mp ?_
  rw [matchedIdx, Option.isSome_map, List.find?_isSome]
  have hmem : (e, i) ∈ evaluated.zipIdx.reverse :=
    List.mem_reverse.mpr (List.mem_zipIdx_iff_getElem?.mpr hi)
  exact ⟨(e, i), hmem, by simp [hmatched, hname]⟩

theorem length_eliminated (ns : List String) :
    (ns.foldl (eliminate rules evaluated names) result).length = result.length := by
  induction ns generalizing result with
  | nil => rfl
  | cons n ns ih =>
    rw [List.foldl_cons, ih, eliminate]
    split
    · split
      · exact List.length_modify _ _ _
      · rfl
    · rfl

/-- What the elimination leaves at an index. -/
theorem getElem?_eliminated (ns : List String) (i : ℕ) :
    (ns.foldl (eliminate rules evaluated names) result)[i]? = result[i]?.map fun e =>
      { e with matched := e.matched &&
        !ns.any fun n => matchedIdx evaluated n == some i && isOverridden rules names n } := by
  induction ns generalizing result with
  | nil => simp
  | cons n ns ih =>
    have hstep : (eliminate rules evaluated names result n)[i]? = result[i]?.map fun e =>
        { e with matched := e.matched &&
          !(matchedIdx evaluated n == some i && isOverridden rules names n) } := by
      rw [eliminate]
      cases hidx : matchedIdx evaluated n with
      | none => simp
      | some idx =>
        by_cases hover : isOverridden rules names n = true
        · simp only [if_pos hover, List.getElem?_modify]
          by_cases hi : idx = i
          · simp [hi, hover]
          · have hne : (idx == i) = false := by simpa using hi
            simp [hi, hne]
        · simp [hover]
    rw [List.foldl_cons, ih, hstep, Option.map_map]
    congr 1
    funext e
    simp [Bool.and_assoc]

/-- The entry at an index loses its match: the rules in force declare its name overridden and no
cycle, and the name is looked up there. -/
def Eliminated (rules : List (LoadedRule D)) (evaluated : List (ResolvedRule D)) (i : ℕ)
    (name : String) : Prop :=
  ¬OverrideCycle (InForce rules) (matchedNames evaluated) ∧ matchedIdx evaluated name = some i ∧
    Overridden (InForce rules) (matchedNames evaluated) name

/-- Some vector is left, where the entries for which `lost` holds are no longer matched and all
else is as before. -/
def LeavesBut (rules : List (LoadedRule D)) (evaluated : List (ResolvedRule D))
    (lost : ℕ → String → Prop) : Prop :=
  ∃ result, resolveConflicts rules evaluated = some result ∧ result.length = evaluated.length ∧
    ∀ (i : ℕ) (e : ResolvedRule D), evaluated[i]? = some e → ∃ e', result[i]? = some e' ∧
      e' = { e with matched := e'.matched } ∧
      (e'.matched = true ↔ e.matched = true ∧ ¬lost i e.name)

theorem any_isOverridden_iff {i : ℕ} {e : ResolvedRule D} (he : evaluated[i]? = some e)
    (hmatched : e.matched = true) :
    ((matchedNames evaluated).any fun n => matchedIdx evaluated n == some i &&
        isOverridden rules (matchedNames evaluated) n) = true ↔
      matchedIdx evaluated e.name = some i ∧
        Overridden (InForce rules) (matchedNames evaluated) e.name := by
  have hname : e.name ∈ matchedNames evaluated :=
    mem_matchedNames.mpr ⟨e, List.mem_of_getElem? he, hmatched, rfl⟩
  simp only [List.any_eq_true, Bool.and_eq_true, beq_iff_eq]
  constructor
  · rintro ⟨n, hn, hidx, hover⟩
    obtain ⟨e', he', -, rfl⟩ := matchedIdx_eq_some hidx
    rw [he] at he'
    obtain rfl := Option.some.inj he'
    exact ⟨hidx, (isOverridden_iff hn).mp hover⟩
  · rintro ⟨hidx, hover⟩
    exact ⟨e.name, hname, hidx, (isOverridden_iff hname).mpr hover⟩

theorem resolveConflicts_spec (rules : List (LoadedRule D)) (evaluated : List (ResolvedRule D)) :
    LeavesBut rules evaluated (Eliminated rules evaluated) := by
  rcases resolveOverrideConflicts_spec rules evaluated with
    ⟨error, hresolve, -, hcycle⟩ | ⟨hresolve, hacyclic⟩
  · refine ⟨evaluated, by rw [resolveConflicts, hresolve]; rfl, rfl, fun i e he => ?_⟩
    have hkept : ¬Eliminated rules evaluated i e.name := fun hlost => hlost.1 hcycle
    exact ⟨e, he, rfl, by simp [hkept]⟩
  · refine ⟨_, by rw [resolveConflicts, hresolve]; rfl, ?_, fun i e he => ?_⟩
    · exact length_eliminated (matchedNames evaluated)
    · refine ⟨_, by rw [getElem?_eliminated, he]; rfl, rfl, ?_⟩
      rw [Bool.and_eq_true, Bool.not_eq_true', ← Bool.not_eq_true]
      refine and_congr_right fun hmatched => not_congr ?_
      rw [any_isOverridden_iff he hmatched, Eliminated, and_iff_right hacyclic]

/-- Entry by entry the names stay and no match is won. -/
theorem resolveConflicts_forall₂ {resolved : List (ResolvedRule D)}
    (h : resolveConflicts rules evaluated = some resolved) :
    List.Forall₂ (fun e e' => e'.name = e.name ∧ (e'.matched = true → e.matched = true))
      evaluated resolved := by
  obtain ⟨result, hresult, hlength, hentries⟩ := resolveConflicts_spec rules evaluated
  obtain rfl := Option.some.inj (hresult.symm.trans h)
  refine List.forall₂_iff_get.mpr ⟨hlength.symm, fun i hi hi' => ?_⟩
  obtain ⟨e', he', hsame, hlost⟩ := hentries i _ (List.getElem?_eq_getElem hi)
  rw [List.getElem?_eq_getElem hi', Option.some.injEq] at he'
  have hname := congrArg ResolvedRule.name hsame
  rw [List.get_eq_getElem, List.get_eq_getElem, he']
  exact ⟨hname, fun hmatched => (hlost.mp hmatched).1⟩

/-! ### The matches to eliminate -/

/-- Exactly the matches with a name that another matched entry overrides are eliminated. -/
def EliminatesOverridden (rules : List (LoadedRule D)) (evaluated : List (ResolvedRule D)) : Prop :=
  LeavesBut rules evaluated fun _ name =>
    Overridden (MatchedRule rules evaluated) (matchedNames evaluated) name

/-- The rules in force say the same about the matched names as the matched rules, and what they
say to eliminate matched once. -/
def InForceSuffice (rules : List (LoadedRule D)) (evaluated : List (ResolvedRule D)) : Prop :=
  ∀ name ∈ matchedNames evaluated,
    (Overridden (MatchedRule rules evaluated) (matchedNames evaluated) name ↔
      ¬OverrideCycle (InForce rules) (matchedNames evaluated) ∧
        Overridden (InForce rules) (matchedNames evaluated) name) ∧
    (Overridden (MatchedRule rules evaluated) (matchedNames evaluated) name →
      MatchedOnce evaluated name)

/-- What is lost is what should be, entry by entry. -/
theorem eliminatesOverridden_iff_eliminated : EliminatesOverridden rules evaluated ↔
    ∀ (i : ℕ) (e : ResolvedRule D), evaluated[i]? = some e → e.matched = true →
      (Overridden (MatchedRule rules evaluated) (matchedNames evaluated) e.name ↔
        Eliminated rules evaluated i e.name) := by
  obtain ⟨result, hresult, hlength, hentries⟩ := resolveConflicts_spec rules evaluated
  constructor
  · rintro ⟨result', hresult', -, hentries'⟩ i e he hmatched
    obtain rfl := Option.some.inj (hresult.symm.trans hresult')
    obtain ⟨e', he', -, hlost⟩ := hentries i e he
    obtain ⟨e'', he'', -, hover⟩ := hentries' i e he
    obtain rfl := Option.some.inj (he'.symm.trans he'')
    rw [hlost, and_iff_right hmatched, and_iff_right hmatched] at hover
    exact (not_iff_not.mp hover).symm
  · intro hagree
    refine ⟨result, hresult, hlength, fun i e he => ?_⟩
    obtain ⟨e', he', hsame, hlost⟩ := hentries i e he
    refine ⟨e', he', hsame, hlost.trans ?_⟩
    exact and_congr_right fun hmatched => not_congr (hagree i e he hmatched).symm

/-- With no cycle among the matched rules, the right matches go exactly when the rules in force
suffice to find them. -/
theorem eliminatesOverridden_iff (ruleSets : RuleSets D) (evaluated : List (ResolvedRule D)) :
    (¬OverrideCycle (MatchedRule ruleSets.rules evaluated) (matchedNames evaluated) →
        EliminatesOverridden ruleSets.rules evaluated) ↔
      (¬OverrideCycle (MatchedRule ruleSets.rules evaluated) (matchedNames evaluated) →
        InForceSuffice ruleSets.rules evaluated) := by
  refine imp_congr_right fun _ => ?_
  rw [eliminatesOverridden_iff_eliminated]
  constructor
  · intro hagree name hname
    obtain ⟨j, hj⟩ := matchedIdx_isSome hname
    obtain ⟨e, he, hmatched, rfl⟩ := matchedIdx_eq_some hj
    constructor
    · rw [hagree j e he hmatched, Eliminated, and_iff_right hj]
    · -- every matched entry of the name is the one the name is looked up with
      have hlast :
          Overridden (MatchedRule ruleSets.rules evaluated) (matchedNames evaluated) e.name →
            ∀ (i : ℕ) (e' : ResolvedRule D), evaluated[i]? = some e' → e'.matched = true →
              e'.name = e.name → i = j := by
        intro hover i e' he' hmatched' hsame
        obtain ⟨-, hidx, -⟩ := (hagree i e' he' hmatched').mp (hsame ▸ hover)
        rw [hsame, hj] at hidx
        exact (Option.some.inj hidx).symm
      intro hover i i' e₁ e₂ h₁ h₂ hm₁ hm₂ hn₁ hn₂
      rw [hlast hover i e₁ h₁ hm₁ hn₁, hlast hover i' e₂ h₂ hm₂ hn₂]
  · intro hsuffice i e he hmatched
    have hname : e.name ∈ matchedNames evaluated :=
      mem_matchedNames.mpr ⟨e, List.mem_of_getElem? he, hmatched, rfl⟩
    obtain ⟨hiff, honce⟩ := hsuffice e.name hname
    constructor
    · intro hover
      obtain ⟨j, hj⟩ := matchedIdx_isSome hname
      obtain ⟨e', he', hmatched', hsame⟩ := matchedIdx_eq_some hj
      obtain rfl := honce hover i j e e' he he' hmatched hmatched' rfl hsame
      exact ⟨(hiff.mp hover).1, hj, (hiff.mp hover).2⟩
    · rintro ⟨hacyclic, -, hover⟩
      exact hiff.mpr ⟨hacyclic, hover⟩

/-- Two rules named B and one that overrides the name. -/
def repeatedRules : RuleSets ℚ :=
  [("a", [⟨⟨"B", "a", none, ⟨"", 0, ""⟩⟩, [], []⟩, ⟨⟨"B", "a", none, ⟨"", 0, ""⟩⟩, [], []⟩,
    ⟨⟨"A", "a", none, ⟨"", 0, ""⟩⟩, ["B"], []⟩])]

def repeatedMatches : List (ResolvedRule ℚ) :=
  repeatedRules.rules.map fun r => r.resolved (true, " -> MATCH (no condition)")

theorem repeatedRules_overrides {a b : String}
    (h : Overrides (MatchedRule repeatedRules.rules repeatedMatches) a b) : a = "A" ∧ b = "B" := by
  obtain ⟨r, hr, hover⟩ := h
  have hmem := hr.mem
  simp only [repeatedRules, RuleSets.rules, List.flatMap_cons, List.flatMap_nil, List.append_nil,
    List.mem_cons, List.not_mem_nil, or_false] at hmem
  rcases hmem with rfl | rfl | rfl <;> simp_all

/-- The first of two matches with an overridden name stays matched. -/
theorem first_match_stays : ∃ evaluated,
    repeatedRules.engine.evaluateAll (evalWithMemo String.length) .empty = some evaluated ∧
      ¬OverrideCycle (MatchedRule repeatedRules.rules evaluated) (matchedNames evaluated) ∧
      ¬EliminatesOverridden repeatedRules.rules evaluated := by
  refine ⟨repeatedMatches, rfl, ?_, fun heliminates => ?_⟩
  · rintro ⟨n, hcycle⟩
    obtain ⟨_, ⟨-, -, hfirst⟩, -⟩ := Relation.TransGen.head'_iff.mp hcycle
    obtain ⟨_, -, -, -, hlast⟩ := Relation.TransGen.tail'_iff.mp hcycle
    have hsame := (repeatedRules_overrides hfirst).1.symm.trans (repeatedRules_overrides hlast).2
    exact absurd hsame (by decide)
  · have hmem : "A" ∈ matchedNames repeatedMatches :=
      mem_matchedNames.mpr ⟨_, .tail _ (.tail _ (.head _)), rfl, rfl⟩
    have hover : Overridden (MatchedRule repeatedRules.rules repeatedMatches)
        (matchedNames repeatedMatches) "B" :=
      ⟨"A", hmem, by decide, _, ⟨_, .tail _ (.tail _ (.head _)), rfl⟩, .inl ⟨rfl, .head _⟩⟩
    obtain ⟨-, hidx, -⟩ := (eliminatesOverridden_iff_eliminated.mp heliminates 0 _ rfl rfl).mp hover
    exact absurd hidx (by decide +kernel)

end SurfaceAi.Rules
