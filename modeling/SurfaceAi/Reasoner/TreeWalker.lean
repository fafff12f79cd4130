import SurfaceAi.Library.Returns
import SurfaceAi.Reasoner.DecisionTree
import SurfaceAi.Rule.FactBase

/-! The walk down a decision tree and the scoring of the leaf it ends at. The exponential and the
conversion of a text to a number belong to the standard library and are parameters. An access past
the weights of a formula is undefined and yields nothing. -/

namespace SurfaceAi.Reasoning

open Rules

section Score

variable {D : Type} [Doubles D] (exp : D → D) (facts : FactBase D)

def sigmoid (x : D) : D :=
  Doubles.div (Doubles.ofInt 1) (Doubles.add (Doubles.ofInt 1) (exp (Doubles.neg x)))

/-- The number a feature contributes; a feature that is missing or no number contributes none. -/
def numericFact (feature : String) : Option D := (facts.get feature).bind Value.asDouble

/-- One turn of the sum over the features: `sum += formula.weights[i] * (*d)`. -/
def addFeature (weights : List D) (sum : D) (feature : String × ℕ) : Option D :=
  match numericFact facts feature.1 with
  | some d => weights[feature.2]?.map fun weight => Doubles.add sum (Doubles.mul weight d)
  | none => some sum

/-- `ScoreCalculator::Compute`. -/
def compute (formula : ScoreFormula D) : Option D :=
  (formula.features.zipIdx.foldlM (addFeature facts formula.weights) (Doubles.ofInt 0)).map fun sum =>
    sigmoid exp (Doubles.sub sum formula.threshold)

/-- `ScoreCalculator::ComputeMax`. -/
def computeMax (formulas : List (ScoreFormula D)) : Option D :=
  formulas.foldlM (fun best formula => (compute exp facts formula).map fun s =>
    if Doubles.lt best s then s else best) (Doubles.ofInt 0)

end Score

section Walk

variable {D : Type} [Doubles D] (stod : String → Option D) (facts : FactBase D)

/-- The comparison a key such as `>10` or `<=8` stands for, after its operator. -/
def comparison (op : Char) (orEqual : Bool) (value threshold : D) : Bool :=
  match op with
  | '>' => Doubles.lt threshold value || orEqual && Doubles.eq value threshold
  | '<' => Doubles.lt value threshold || orEqual && Doubles.eq value threshold
  | _ => false

/-- `MatchNumeric`. -/
def matchNumeric (key : String) (value : D) : Bool :=
  match key.toList with
  | [] => false
  | op :: rest =>
    let orEqual := rest.head? = some '='
    let digits := if orEqual then rest.tail else rest
    if digits = [] then false
    else
      match stod (String.ofList digits) with
      | none => false
      | some threshold => comparison op orEqual value threshold

/-- The child that a branch passes the walk to: the one under the text of the field, else the first
whose comparison its number meets, else the default. -/
def dispatch (field : String) (branches : List (String × DecisionNode D))
    (default : Option (DecisionNode D)) : Option (DecisionNode D) :=
  match ((facts.get field).bind Value.asString).bind fun s => branches.find? fun b => b.1 = s with
  | some b => some b.2
  | none =>
    match (numericFact facts field).bind fun d => branches.find? fun b => matchNumeric stod b.1 d with
    | some b => some b.2
    | none => default

variable {stod facts} in
theorem dispatch_mem {field : String} {branches : List (String × DecisionNode D)}
    {default : Option (DecisionNode D)} {child : DecisionNode D}
    (h : dispatch stod facts field branches default = some child) :
    (∃ b ∈ branches, b.2 = child) ∨ default = some child := by
  rw [dispatch] at h
  split at h
  · next b hfound =>
    obtain ⟨s, -, hfind⟩ := Option.bind_eq_some_iff.mp hfound
    exact .inl ⟨b, List.mem_of_find?_eq_some hfind, Option.some.inj h⟩
  · split at h
    · next b hfound =>
      obtain ⟨d, -, hfind⟩ := Option.bind_eq_some_iff.mp hfound
      exact .inl ⟨b, List.mem_of_find?_eq_some hfind, Option.some.inj h⟩
    · exact .inr h

variable {stod facts} in
theorem sizeOf_dispatch_lt {field : String} {branches : List (String × DecisionNode D)}
    {default : Option (DecisionNode D)} {child : DecisionNode D}
    (h : dispatch stod facts field branches default = some child) :
    sizeOf child < sizeOf (DecisionNode.branch field branches default) := by
  rw [DecisionNode.branch.sizeOf_spec]
  rcases dispatch_mem h with ⟨⟨key, node⟩, hmem, rfl⟩ | rfl
  · have hchild := List.sizeOf_lt_of_mem hmem
    rw [Prod.mk.sizeOf_spec] at hchild
    show sizeOf node < _
    omega
  · rw [Option.some.sizeOf_spec]
    omega

/-- The leaf the walk ends at; none at a branch with no child to pass it to. -/
def leafReached : DecisionNode D → Option (LeafNode D)
  | .leaf node => some node
  | .branch field branches default =>
    match _h : dispatch stod facts field branches default with
    | some child => leafReached child
    | none => none
termination_by node => sizeOf node
decreasing_by exact sizeOf_dispatch_lt (by assumption)

structure WalkResult (D : Type) where
  label : String
  score : D
  recommendation : String

/-- `TreeWalker::Walk`. -/
def walk (exp : D → D) (node : DecisionNode D) : Option (WalkResult D) :=
  match leafReached stod facts node with
  | some leaf => (computeMax exp facts leaf.formulas).map fun score =>
      ⟨leaf.label, score, leaf.recommendation⟩
  | none => some ⟨"UNCERTAIN", Doubles.ofInt 0, "No matching branch and no default"⟩

end Walk

variable {D : Type} [Doubles D] {exp : D → D} {stod : String → Option D} {facts : FactBase D}
  {formula : ScoreFormula D} {formulas : List (ScoreFormula D)}

theorem dispatch_default {field : String} {branches : List (String × DecisionNode D)}
    (default : DecisionNode D) : dispatch stod facts field branches (some default) ≠ none := by
  rw [dispatch]
  split
  · exact Option.some_ne_none _
  · split <;> exact Option.some_ne_none _

/-- A walk through a tree whose branches all have a default ends at a leaf. -/
theorem leafReached_isSome {node : DecisionNode D} (h : Complete node) :
    ∃ leaf, leafReached stod facts node = some leaf := by
  induction h with
  | leaf node => exact ⟨node, by rw [leafReached]⟩
  | branch hbranches hdefault ihbranches ihdefault =>
    rw [leafReached]
    split
    · next child hchild =>
      rcases dispatch_mem hchild with ⟨b, hb, rfl⟩ | hsome
      · exact ihbranches b hb
      · obtain rfl := Option.some.inj hsome
        exact ihdefault
    · next hnone => exact absurd hnone (dispatch_default _)

/-! ### Weights -/

/-- Every feature with a number has a weight. -/
def Weighted (facts : FactBase D) (formula : ScoreFormula D) : Prop :=
  ∀ feature ∈ formula.features.drop formula.weights.length, numericFact facts feature = none

theorem addFeature_isSome (weights : List D) (sum : D) (feature : String × ℕ) :
    (addFeature facts weights sum feature).isSome ↔
      (feature.2 < weights.length ∨ numericFact facts feature.1 = none) := by
  rw [addFeature]
  cases numericFact facts feature.1 with
  | none => simp
  | some d => simp

theorem compute_isSome (exp : D → D) (formula : ScoreFormula D) :
    (compute exp facts formula).isSome ↔ Weighted facts formula := by
  rw [compute, Option.isSome_map, Returns.isSome_foldlM (addFeature_isSome formula.weights), Weighted]
  constructor
  · intro haccess feature hfeature
    obtain ⟨i, hi⟩ := List.mem_iff_getElem?.mp hfeature
    rw [List.getElem?_drop] at hi
    refine (haccess (feature, _) (List.mem_zipIdx_iff_getElem?.mpr hi)).resolve_left ?_
    show ¬formula.weights.length + i < formula.weights.length
    omega
  · rintro hweighted ⟨feature, i⟩ hfeature
    have hi := List.mem_zipIdx_iff_getElem?.mp hfeature
    by_cases hlt : i < formula.weights.length
    · exact .inl hlt
    · refine .inr (hweighted feature (List.mem_iff_getElem?.mpr ⟨i - formula.weights.length, ?_⟩))
      rw [List.getElem?_drop, show formula.weights.length + (i - formula.weights.length) = i by omega]
      exact hi

theorem computeMax_isSome (exp : D → D) (formulas : List (ScoreFormula D)) :
    (computeMax exp facts formulas).isSome ↔ ∀ formula ∈ formulas, Weighted facts formula := by
  rw [computeMax]
  refine Returns.isSome_foldlM (fun best formula => ?_) formulas _
  rw [Option.isSome_map, compute_isSome]

/-! ### Scores -/

/-- In the closed unit interval, where comparisons may be those of doubles. -/
def InUnit (x : D) : Prop :=
  x = Doubles.ofInt 0 ∨ x = Doubles.ofInt 1 ∨
    Doubles.lt (Doubles.ofInt 0) x = true ∧ Doubles.lt x (Doubles.ofInt 1) = true

/-- The sigmoid as a function into the open unit interval. -/
def SigmoidInUnit (exp : D → D) : Prop :=
  ∀ x, Doubles.lt (Doubles.ofInt 0) (sigmoid exp x) = true ∧
    Doubles.lt (sigmoid exp x) (Doubles.ofInt 1) = true

/-- The best score is that of a formula, or the zero it starts from. -/
theorem computeMax_inUnit (hsigmoid : SigmoidInUnit exp) {score : D}
    (h : computeMax exp facts formulas = some score) : InUnit score := by
  refine Returns.foldlM_preserves (fun best formula best' hturn hbest => ?_) (.inl rfl) h
  obtain ⟨s, hs, rfl⟩ := Option.map_eq_some_iff.mp hturn
  obtain ⟨sum, -, rfl⟩ := Option.map_eq_some_iff.mp hs
  split
  · exact .inr (.inr (hsigmoid _))
  · exact hbest

end SurfaceAi.Reasoning
