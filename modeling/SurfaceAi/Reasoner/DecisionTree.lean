import SurfaceAi.Rule.ConditionBuilder

/-! The decision tree and its construction from a YAML document. The conversions of the YAML library
are parameters; where one throws outside the loader's own `try`, the construction yields nothing. -/

namespace SurfaceAi.Reasoning

open Rules

structure ScoreFormula (D : Type) where
  weights : List D
  features : List String
  threshold : D

structure VerdictMapping (D : Type) where
  ngThreshold : D
  warnThreshold : D

structure LeafNode (D : Type) where
  formulas : List (ScoreFormula D)
  label : String
  recommendation : String

/-- `IDecisionNode`. The branches are in the order of their keys; the default is a pointer that may
be null. -/
inductive DecisionNode (D : Type) where
  | leaf (node : LeafNode D)
  | branch (field : String) (branches : List (String × DecisionNode D))
      (default : Option (DecisionNode D))

structure DecisionTree (D : Type) where
  root : DecisionNode D
  verdictMapping : VerdictMapping D

/-- The conversions of a node that exists; nothing where one throws. -/
structure NodeConversions (D : Type) where
  asString : Yaml → Option String
  asDouble : Yaml → Option D

/-! ### Nodes of a document -/

/-- `node[key]`: a scalar has no members to ask for. -/
def member : Yaml → String → Option Yaml
  | .map entries, key => some (Yaml.entry entries key)
  | .null, _ | .sequence _, _ => some .missing
  | .scalar _, _ | .missing, _ => none

/-- What an iteration passes over. The element of a map is a pair and no node of its own. -/
def elements : Yaml → List Yaml
  | .sequence nodes => nodes
  | .map entries => entries.map fun _ => .missing
  | _ => []

/-- The named children of a map; any other node has none. -/
def fields : Yaml → List (String × Yaml)
  | .map entries => entries
  | _ => []

theorem sizeOf_field_lt {node : Yaml} {child : String × Yaml} (h : child ∈ fields node) :
    sizeOf child.2 < sizeOf node := by
  cases node with
  | map entries =>
    have hchild : sizeOf child < sizeOf entries := List.sizeOf_lt_of_mem h
    obtain ⟨key, value⟩ := child
    rw [Prod.mk.sizeOf_spec] at hchild
    rw [Yaml.map.sizeOf_spec]
    show sizeOf value < 1 + sizeOf entries
    omega
  | _ => simp [fields] at h

section Parse

variable {D : Type} [Doubles D] (conv : NodeConversions D)

namespace NodeConversions

/-- A conversion of a node that may be missing. -/
def as {α : Type} (convert : Yaml → Option α) : Yaml → Option α
  | .missing => none
  | node => convert node

/-- A text that may be left out. -/
def optionalText (node : Yaml) : Option String :=
  if node.isDefined then conv.asString node else some ""

/-- `as<double>(fallback)`. -/
def doubleOr (node : Yaml) (fallback : D) : D := (as conv.asDouble node).getD fallback

end NodeConversions

def parseFormula (node : Yaml) : Option (ScoreFormula D) := do
  let weights ← (elements (← member node "weights")).mapM (NodeConversions.as conv.asDouble)
  let features ← (elements (← member node "features")).mapM (NodeConversions.as conv.asString)
  let threshold ← member node "threshold"
  return ⟨weights, features, conv.doubleOr threshold (Doubles.ofInt 0)⟩

def parseLeaf (entries : List (String × Yaml)) : Option (LeafNode D) := do
  let label ← conv.optionalText (Yaml.entry entries "label")
  let recommendation ← conv.optionalText (Yaml.entry entries "recommendation")
  let formulas ← (Yaml.entry entries "formulas").items.mapM (parseFormula conv)
  return ⟨formulas, label, recommendation⟩

/-- `AddBranch` on the map of branches: a key that is there keeps its child. -/
def addBranch (matchValue : String) (node : DecisionNode D) :
    List (String × DecisionNode D) → List (String × DecisionNode D)
  | [] => [(matchValue, node)]
  | (key, child) :: branches =>
    if matchValue < key then (matchValue, node) :: (key, child) :: branches
    else if matchValue = key then (key, child) :: branches
    else (key, child) :: addBranch matchValue node branches

/-- The named children in the order of the document, up to the first that fails. -/
def addBranches : List (String × DecisionNode D) → List (String × Outcome (DecisionNode D)) →
    Outcome (List (String × DecisionNode D))
  | branches, [] => some (.ok branches)
  | branches, (key, some (.ok child)) :: rest => addBranches (addBranch key child branches) rest
  | _, (_, some (.error e)) :: _ => some (.error e)
  | _, (_, none) :: _ => none

/-- The branch once its named children are built, with the default child if there is one. -/
def finishBranch (field : String) :
    Outcome (List (String × DecisionNode D)) → Option (Outcome (DecisionNode D)) →
      Outcome (DecisionNode D)
  | some (.ok branches), some (some (.ok child)) => some (.ok (.branch field branches (some child)))
  | some (.ok _), some failure => failure
  | some (.ok _), none =>
    some (fail .reasonerInvalidTree "branch node missing required 'default' child")
  | some (.error e), _ => some (.error e)
  | none, _ => none

/-- `ParseNode`. -/
def parseNode : Yaml → Outcome (DecisionNode D)
  | .missing => none
  | .scalar _ => none
  | .null => some (fail .reasonerInvalidTree "node missing required 'type' field")
  | .sequence _ => some (fail .reasonerInvalidTree "node missing required 'type' field")
  | .map entries =>
    if !(Yaml.entry entries "type").isDefined then
      some (fail .reasonerInvalidTree "node missing required 'type' field")
    else
      match conv.asString (Yaml.entry entries "type") with
      | none => none
      | some type =>
        if type = "branch" then
          if !(Yaml.entry entries "field").isDefined then
            some (fail .reasonerInvalidTree "branch node missing required 'field'")
          else
            match conv.asString (Yaml.entry entries "field") with
            | none => none
            | some field => finishBranch field
                (addBranches [] ((fields (Yaml.entry entries "branches")).attach.map fun child =>
                  (child.1.1, parseNode child.1.2)))
                (if (Yaml.entry entries "default").isDefined then
                  some (parseNode (Yaml.entry entries "default")) else none)
        else if type = "leaf" then (parseLeaf conv entries).map fun node => .ok (.leaf node)
        else some (fail .reasonerInvalidTree ("unknown node type '" ++ type ++
          "' (expected 'branch' or 'leaf')"))
termination_by node => sizeOf node
decreasing_by
  · have hentry := Yaml.sizeOf_entry_lt entries "branches"
    have hchild := sizeOf_field_lt child.2
    rw [Yaml.map.sizeOf_spec]
    omega
  · have hentry := Yaml.sizeOf_entry_lt entries "default"
    rw [Yaml.map.sizeOf_spec]
    omega

/-- The optional thresholds of a loaded document. -/
def parseVerdictMapping (root : Yaml) : Option (VerdictMapping D) := do
  let mapping ← member root "verdict_mapping"
  let ng := Doubles.div (Doubles.ofInt 7) (Doubles.ofInt 10)
  let warn := Doubles.div (Doubles.ofInt 3) (Doubles.ofInt 10)
  if mapping.isDefined then
    return ⟨conv.doubleOr (← member mapping "ng_threshold") ng,
      conv.doubleOr (← member mapping "warn_threshold") warn⟩
  else return ⟨ng, warn⟩

/-- `LoadFromYAML`, with what the YAML library makes of the file: a document, or the text of its
exception. -/
def loadFromYAML (path : String) : Except String Yaml → Outcome (DecisionTree D)
  | .error what => some (fail .reasonerTreeLoadFailed
      ("failed to load decision tree from " ++ path ++ ": " ++ what))
  | .ok root =>
    match parseNode conv root with
    | some (.ok node) => (parseVerdictMapping conv root).map fun mapping => .ok ⟨node, mapping⟩
    | some (.error e) => some (.error e)
    | none => none

end Parse

/-! ### Parsed trees -/

variable {D : Type} {conv : NodeConversions D} {node child : DecisionNode D}
  {branches : List (String × DecisionNode D)} {key : String}

/-- Every branch has a default child. -/
inductive Complete : DecisionNode D → Prop
  | leaf (node : LeafNode D) : Complete (.leaf node)
  | branch {field : String} {branches : List (String × DecisionNode D)} {default : DecisionNode D}
      (hbranches : ∀ b ∈ branches, Complete b.2) (hdefault : Complete default) :
      Complete (.branch field branches (some default))

theorem mem_addBranch {b : String × DecisionNode D} (h : b ∈ addBranch key child branches) :
    b = (key, child) ∨ b ∈ branches := by
  induction branches with
  | nil => exact .inl (List.mem_singleton.mp h)
  | cons head branches ih =>
    rw [addBranch] at h
    split_ifs at h with hlt heq
    · exact (List.mem_cons.mp h).imp id id
    · exact .inr h
    · rcases List.mem_cons.mp h with rfl | h
      · exact .inr List.mem_cons_self
      · exact (ih h).imp id (List.mem_cons_of_mem _)

/-- What is in the map of branches was there or is one of the children. -/
theorem addBranches_forall {P : DecisionNode D → Prop}
    {children : List (String × Outcome (DecisionNode D))} {result : List (String × DecisionNode D)}
    (hbranches : ∀ b ∈ branches, P b.2)
    (hchildren : ∀ c ∈ children, ∀ node, c.2 = some (.ok node) → P node)
    (h : addBranches branches children = some (.ok result)) : ∀ b ∈ result, P b.2 := by
  induction children generalizing branches with
  | nil =>
    obtain rfl : branches = result := by simpa [addBranches] using h
    exact hbranches
  | cons c children ih =>
    obtain ⟨key, outcome⟩ := c
    match outcome, h with
    | some (.ok child), h =>
      refine ih ?_ (fun c hc => hchildren c (List.mem_cons_of_mem _ hc)) h
      intro b hb
      rcases mem_addBranch hb with rfl | hb
      · exact hchildren _ List.mem_cons_self child rfl
      · exact hbranches b hb
    | some (.error e), h => simp [addBranches] at h
    | none, h => simp [addBranches] at h

theorem finishBranch_eq_ok {field : String} {outcome : Outcome (List (String × DecisionNode D))}
    {default : Option (Outcome (DecisionNode D))}
    (h : finishBranch field outcome default = some (.ok node)) :
    ∃ branches child, outcome = some (.ok branches) ∧ default = some (some (.ok child)) ∧
      node = .branch field branches (some child) := by
  match outcome, default, h with
  | some (.ok branches), some (some (.ok child)), h =>
    exact ⟨branches, child, rfl, rfl, by simpa [finishBranch] using h.symm⟩
  | some (.ok _), some (some (.error e)), h => simp [finishBranch] at h
  | some (.ok _), some none, h => simp [finishBranch] at h
  | some (.ok _), none, h => simp [finishBranch, fail] at h
  | some (.error e), _, h => simp [finishBranch] at h
  | none, _, h => simp [finishBranch] at h

variable [Doubles D]

/-- What is accepted has a default child at every branch. -/
theorem parseNode_complete {yaml : Yaml} (h : parseNode conv yaml = some (.ok node)) :
    Complete node := by
  fun_induction parseNode conv yaml generalizing node with
  | case9 entries _ _ field _ _ ihchild ihdefault =>
    obtain ⟨branches, child, hbranches, hdefault, rfl⟩ := finishBranch_eq_ok h
    split_ifs at hdefault with hdefined
    refine .branch (addBranches_forall (by simp) ?_ hbranches) (ihdefault (Option.some.inj hdefault))
    intro c hc node hnode
    obtain ⟨child', -, rfl⟩ := List.mem_map.mp hc
    exact ihchild child' hnode
  | case10 =>
    obtain ⟨leaf, -, hleaf⟩ := Option.map_eq_some_iff.mp h
    obtain rfl := Except.ok.inj hleaf
    exact .leaf leaf
  | _ => cases h

theorem loadFromYAML_complete {path : String} {file : Except String Yaml} {tree : DecisionTree D}
    (h : loadFromYAML conv path file = some (.ok tree)) : Complete tree.root := by
  match file, h with
  | .error _, h => cases h
  | .ok root, h =>
    rw [loadFromYAML] at h
    split at h
    · next node hnode =>
      obtain ⟨mapping, -, htree⟩ := Option.map_eq_some_iff.mp h
      obtain rfl := Except.ok.inj htree
      exact parseNode_complete hnode
    · cases h
    · cases h

end SurfaceAi.Reasoning
