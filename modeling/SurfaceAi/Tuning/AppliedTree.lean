import Mathlib.Data.List.Nodup
import SurfaceAi.Tuning.ParameterApplier

/-! What the applier makes of the tree. A write at the path of a leaf changes what is read from that
leaf and leaves the paths to the others as they were, so the writes of one call follow one another
as changes of the tree. -/

namespace SurfaceAi.Tuning

open Rules Reasoning

/-! ### Trees and documents -/

/-- A step from a node of the tree to a child. -/
inductive TreeStep where
  | branch (key : String)
  | default

def treePath : List DocStep → Yaml → List TreeStep
  | .branch i :: path, .map entries =>
    match (fields (Yaml.entry entries "branches"))[i]? with
    | some (key, node) => .branch key :: treePath path node
    | none => []
  | .default :: path, .map entries => .default :: treePath path (Yaml.entry entries "default")
  | _, _ => []

/-- No node on a path has two branches with the same key. -/
def DistinctAlong : List DocStep → Yaml → Prop
  | .branch i :: path, .map entries =>
    ((fields (Yaml.entry entries "branches")).map Prod.fst).Nodup ∧
      ∀ child, (fields (Yaml.entry entries "branches"))[i]? = some child →
        DistinctAlong path child.2
  | .default :: path, .map entries => DistinctAlong path (Yaml.entry entries "default")
  | _, _ => True

section Tree

variable {D : Type}

/-- A change at the branch with a key. -/
def modifyBranch {α : Type} (key : String) (change : α → α) (branches : List (String × α)) :
    List (String × α) :=
  branches.map fun b => if b.1 = key then (b.1, change b.2) else b

def modifyLeaf (change : LeafNode D → LeafNode D) :
    List TreeStep → DecisionNode D → DecisionNode D
  | [], .leaf node => .leaf (change node)
  | .branch key :: path, .branch field branches default =>
    .branch field (modifyBranch key (modifyLeaf change path) branches) default
  | .default :: path, .branch field branches default =>
    .branch field branches (default.map (modifyLeaf change path))
  | _, node => node

def leafAt : List TreeStep → DecisionNode D → Option (LeafNode D)
  | [], .leaf node => some node
  | .branch key :: path, .branch _ branches _ => (branches.lookup key).bind (leafAt path)
  | .default :: path, .branch _ _ default => default.bind (leafAt path)
  | _, _ => none

end Tree

section Parse

variable {D : Type} {conv : NodeConversions D} {entries entries' : List (String × Yaml)}
  {node : DecisionNode D}

theorem collectLeafNodes_map : collectLeafNodes conv (.map entries) =
    match isLeaf conv (Yaml.entry entries "type") with
    | none => none
    | some true => some [[]]
    | some false => do
      let leaves ← branchLeaves 0 ((fields (Yaml.entry entries "branches")).map fun child =>
        collectLeafNodes conv child.2)
      let others ← (if (Yaml.entry entries "default").isDefined then
        collectLeafNodes conv (Yaml.entry entries "default") else some [])
      return leaves ++ others.map (.default :: ·) := by
  have hplain : ((fields (Yaml.entry entries "branches")).attach.map fun child =>
      collectLeafNodes conv child.1.2) =
      (fields (Yaml.entry entries "branches")).map fun child =>
        collectLeafNodes conv child.2 :=
    List.attach_map_val (f := fun child : String × Yaml => collectLeafNodes conv child.2)
  rw [collectLeafNodes]
  exact hplain ▸ rfl

variable [Doubles D]

/-- `ParseNode` of a map, the children parsed in place. -/
theorem parseNode_map : parseNode conv (.map entries) =
    if !(Yaml.entry entries "type").isDefined then
      some (fail .reasonerInvalidTree "node missing required 'type' field")
    else
      match conv.asString (Yaml.entry entries "type") with
      | none => none
      | some type =>
        if type = "branch" then
          if !(Yaml.entry entries "field").isDefined then
            some (fail .reasonerInvalidTree "branch node missing required 'field'")
          else
            match conv.asString (Yaml.entry entries "field") with
            | none => none
            | some field => finishBranch field
                (addBranches [] ((fields (Yaml.entry entries "branches")).map fun child =>
                  (child.1, parseNode conv child.2)))
                (if (Yaml.entry entries "default").isDefined then
                  some (parseNode conv (Yaml.entry entries "default")) else none)
        else if type = "leaf" then (parseLeaf conv entries).map fun node => .ok (.leaf node)
        else some (fail .reasonerInvalidTree ("unknown node type '" ++ type ++
          "' (expected 'branch' or 'leaf')")) := by
  have hplain : ((fields (Yaml.entry entries "branches")).attach.map fun child =>
      (child.1.1, parseNode conv child.1.2)) =
      (fields (Yaml.entry entries "branches")).map fun child =>
        (child.1, parseNode conv child.2) :=
    List.attach_map_val (f := fun child : String × Yaml => (child.1, parseNode conv child.2))
  rw [parseNode]
  exact hplain ▸ rfl

/-- The node is a branch that inspects the field. -/
def IsBranch (conv : NodeConversions D) (entries : List (String × Yaml)) (field : String) : Prop :=
  ((Yaml.entry entries "type").isDefined = true ∧
    conv.asString (Yaml.entry entries "type") = some "branch") ∧
  ((Yaml.entry entries "field").isDefined = true ∧
    conv.asString (Yaml.entry entries "field") = some field)

theorem parseNode_of_isBranch {field : String} (h : IsBranch conv entries field) :
    parseNode conv (.map entries) = finishBranch field
      (addBranches [] ((fields (Yaml.entry entries "branches")).map fun child =>
        (child.1, parseNode conv child.2)))
      (if (Yaml.entry entries "default").isDefined then
        some (parseNode conv (Yaml.entry entries "default")) else none) := by
  obtain ⟨⟨htype, hbranch⟩, hfield, hname⟩ := h
  simp [parseNode_map, htype, hbranch, hfield, hname]

theorem exists_isBranch (hleaf : isLeaf conv (Yaml.entry entries "type") = some false)
    (h : parseNode conv (.map entries) = some (.ok node)) :
    ∃ field, IsBranch conv entries field := by
  rw [parseNode_map] at h
  have htype : (Yaml.entry entries "type").isDefined = true := by
    by_contra hmissing
    rw [Bool.not_eq_true] at hmissing
    simp [hmissing, fail] at h
  rw [isLeaf, if_pos htype] at hleaf
  obtain ⟨type, hstring, hother⟩ := Option.map_eq_some_iff.mp hleaf
  have hbranch : type = "branch" := by
    by_contra hne
    simp [htype, hstring, hne, of_decide_eq_false hother, fail] at h
  subst hbranch
  have hfield : (Yaml.entry entries "field").isDefined = true := by
    by_contra hmissing
    rw [Bool.not_eq_true] at hmissing
    simp [htype, hstring, hmissing, fail] at h
  cases hname : conv.asString (Yaml.entry entries "field") with
  | none => simp [htype, hstring, hfield, hname] at h
  | some field => exact ⟨field, ⟨htype, hstring⟩, hfield, hname⟩

theorem parseNode_of_isLeaf (hleaf : isLeaf conv (Yaml.entry entries "type") = some true) :
    parseNode conv (.map entries) = (parseLeaf conv entries).map fun node => .ok (.leaf node) := by
  rw [isLeaf] at hleaf
  split_ifs at hleaf with htype
  · obtain ⟨type, hstring, hmatch⟩ := Option.map_eq_some_iff.mp hleaf
    obtain rfl := of_decide_eq_true hmatch
    simp [parseNode_map, htype, hstring]
  · cases hleaf

end Parse

/-! ### The map of branches -/

section Branches

variable {D : Type} {key k : String} {child : DecisionNode D}
  {branches result : List (String × DecisionNode D)} {change : DecisionNode D → DecisionNode D}
  {children : List (String × Outcome (DecisionNode D))}

theorem modifyBranch_cons (b : String × DecisionNode D) :
    modifyBranch key change (b :: branches) =
      (b.1, if b.1 = key then change b.2 else b.2) :: modifyBranch key change branches := by
  rw [modifyBranch, List.map_cons]
  split_ifs <;> rfl

theorem modifyBranch_of_notMem (h : key ∉ branches.map Prod.fst) :
    modifyBranch key change branches = branches := by
  induction branches with
  | nil => rfl
  | cons head rest ih =>
    rw [List.map_cons, List.mem_cons, not_or] at h
    rw [modifyBranch_cons, if_neg (Ne.symm h.1), ih h.2]

theorem modifyBranch_addBranch (h : k ≠ key) :
    modifyBranch key change (addBranch k child branches) =
      addBranch k child (modifyBranch key change branches) := by
  induction branches with
  | nil => simp [addBranch, modifyBranch, h]
  | cons head rest ih =>
    rw [modifyBranch_cons, addBranch, addBranch]
    split_ifs
    · rw [modifyBranch_cons, modifyBranch_cons, if_neg h, if_pos ‹_›]
    · rw [modifyBranch_cons, modifyBranch_cons, if_neg h, if_neg ‹_›]
    · rw [modifyBranch_cons, if_pos ‹_›]
    · rw [modifyBranch_cons, if_neg ‹_›]
    · rw [modifyBranch_cons, if_pos ‹_›, ih]
    · rw [modifyBranch_cons, if_neg ‹_›, ih]

theorem addBranch_change (h : key ∉ branches.map Prod.fst) :
    addBranch key (change child) branches =
      modifyBranch key change (addBranch key child branches) := by
  induction branches with
  | nil => simp [addBranch, modifyBranch]
  | cons head rest ih =>
    rw [List.map_cons, List.mem_cons, not_or] at h
    rw [addBranch, addBranch]
    split_ifs with hlt heq
    · rw [modifyBranch_cons, if_pos rfl, modifyBranch_cons, if_neg (Ne.symm h.1),
        modifyBranch_of_notMem h.2]
    · exact absurd heq h.1
    · rw [modifyBranch_cons, if_neg (Ne.symm h.1), ih h.2]

theorem lookup_addBranch (h : k ≠ key) :
    (addBranch k child branches).lookup key = branches.lookup key := by
  have hne : (key == k) = false := beq_false_of_ne (Ne.symm h)
  induction branches with
  | nil => simp [addBranch, List.lookup_cons, hne]
  | cons head rest ih =>
    rw [addBranch]
    split_ifs
    · rw [List.lookup_cons, hne]
    · rfl
    · obtain ⟨key', child'⟩ := head
      simp only [List.lookup_cons, ih]

theorem lookup_addBranch_self (h : key ∉ branches.map Prod.fst) :
    (addBranch key child branches).lookup key = some child := by
  induction branches with
  | nil => simp [addBranch]
  | cons head rest ih =>
    rw [List.map_cons, List.mem_cons, not_or] at h
    rw [addBranch]
    split_ifs with hlt heq
    · simp
    · exact absurd heq h.1
    · rw [List.lookup_cons, beq_false_of_ne h.1]
      exact ih h.2

theorem mem_keys_addBranch : k ∈ (addBranch key child branches).map Prod.fst ↔
    k = key ∨ k ∈ branches.map Prod.fst := by
  induction branches with
  | nil => simp [addBranch]
  | cons head rest ih =>
    rw [addBranch]
    split_ifs with hlt heq
    · simp
    · simp only [List.map_cons, List.mem_cons]
      rw [heq]
      tauto
    · simp only [List.map_cons, List.mem_cons] at ih ⊢
      rw [ih]
      tauto

/-- Children are only added when the first of them is built. -/
theorem ok_of_addBranches_cons {outcome : Outcome (DecisionNode D)}
    (h : addBranches branches ((k, outcome) :: children) = some (.ok result)) :
    ∃ child, outcome = some (.ok child) ∧
      addBranches (addBranch k child branches) children = some (.ok result) := by
  cases outcome with
  | none => simp [addBranches] at h
  | some built =>
    cases built with
    | error e => simp [addBranches] at h
    | ok child => exact ⟨child, rfl, h⟩

/-- Children under other keys do not touch a key. -/
theorem addBranches_modifyBranch (hkey : key ∉ children.map Prod.fst)
    (h : addBranches branches children = some (.ok result)) :
    addBranches (modifyBranch key change branches) children =
      some (.ok (modifyBranch key change result)) := by
  induction children generalizing branches with
  | nil =>
    obtain rfl : branches = result := by simpa [addBranches] using h
    rfl
  | cons c rest ih =>
    obtain ⟨k, outcome⟩ := c
    rw [List.map_cons, List.mem_cons, not_or] at hkey
    obtain ⟨child, rfl, hrest⟩ := ok_of_addBranches_cons h
    rw [addBranches, ← modifyBranch_addBranch (Ne.symm hkey.1)]
    exact ih hkey.2 hrest

theorem lookup_addBranches (hkey : key ∉ children.map Prod.fst)
    (h : addBranches branches children = some (.ok result)) :
    result.lookup key = branches.lookup key := by
  induction children generalizing branches with
  | nil =>
    obtain rfl : branches = result := by simpa [addBranches] using h
    rfl
  | cons c rest ih =>
    obtain ⟨k, outcome⟩ := c
    rw [List.map_cons, List.mem_cons, not_or] at hkey
    obtain ⟨child, rfl, hrest⟩ := ok_of_addBranches_cons h
    rw [ih hkey.2 hrest, lookup_addBranch (Ne.symm hkey.1)]

/-- One child that is built differently changes the branch with its key. -/
theorem addBranches_set {i : ℕ} {outcome : Outcome (DecisionNode D)}
    (hdistinct : (children.map Prod.fst).Nodup)
    (hfresh : ∀ k ∈ children.map Prod.fst, k ∉ branches.map Prod.fst)
    (hi : children[i]? = some (key, outcome))
    (h : addBranches branches children = some (.ok result)) :
    ∃ child, outcome = some (.ok child) ∧ result.lookup key = some child ∧
      ∀ change, addBranches branches (children.set i (key, some (.ok (change child)))) =
        some (.ok (modifyBranch key change result)) := by
  induction children generalizing branches i with
  | nil => simp at hi
  | cons c rest ih =>
    obtain ⟨k, built⟩ := c
    rw [List.map_cons, List.nodup_cons] at hdistinct
    obtain ⟨child, rfl, hrest⟩ := ok_of_addBranches_cons h
    cases i with
    | zero =>
      obtain ⟨rfl, rfl⟩ : k = key ∧ some (.ok child) = outcome := by simpa using hi
      have hnot : k ∉ branches.map Prod.fst := hfresh k (by simp)
      refine ⟨child, rfl, ?_, fun change => ?_⟩
      · rw [lookup_addBranches hdistinct.1 hrest, lookup_addBranch_self hnot]
      · rw [List.set_cons_zero, addBranches, addBranch_change hnot]
        exact addBranches_modifyBranch hdistinct.1 hrest
    | succ i =>
      have hfresh' : ∀ k' ∈ rest.map Prod.fst,
          k' ∉ (addBranch k child branches).map Prod.fst := by
        intro k' hk' hmem
        rcases mem_keys_addBranch.mp hmem with rfl | hmem
        · exact hdistinct.1 hk'
        · exact hfresh k' (List.mem_cons_of_mem _ hk') hmem
      obtain ⟨child', hchild', hlookup, hset⟩ := ih hdistinct.2 hfresh' (by simpa using hi) hrest
      exact ⟨child', hchild', hlookup, fun change => by
        rw [List.set_cons_succ, addBranches, hset]⟩

end Branches

/-! ### Writing to a leaf -/

section Write

variable {D : Type} {conv : NodeConversions D} {entries entries' : List (String × Yaml)}
  {path : List DocStep} {leaves : List (List DocStep)}

theorem mem_branchLeaves {n : ℕ} {found : List (Option (List (List DocStep)))}
    (h : branchLeaves n found = some leaves) (hpath : path ∈ leaves) :
    ∃ i rest below, path = .branch (n + i) :: rest ∧ found[i]? = some (some below) ∧
      rest ∈ below := by
  induction found generalizing n leaves with
  | nil =>
    obtain rfl := Option.some.inj h
    cases hpath
  | cons head tail ih =>
    simp only [branchLeaves, Option.bind_eq_bind, Option.bind_eq_some_iff] at h
    obtain ⟨below, hbelow, others, hothers, h⟩ := h
    obtain rfl := Option.some.inj h
    rcases List.mem_append.mp hpath with hpath | hpath
    · obtain ⟨rest, hrest, rfl⟩ := List.mem_map.mp hpath
      exact ⟨0, rest, below, rfl, congrArg some hbelow, hrest⟩
    · obtain ⟨i, rest, below', hpath, hfound, hrest⟩ := ih hothers hpath
      refine ⟨i + 1, rest, below', ?_, hfound, hrest⟩
      rw [hpath, Nat.add_assoc, Nat.add_comm 1]

/-- A path to a leaf ends at once, or leads through a branch or the default child. -/
theorem mem_leaves (h : collectLeafNodes conv (.map entries) = some leaves)
    (hpath : path ∈ leaves) :
    (path = [] ∧ isLeaf conv (Yaml.entry entries "type") = some true) ∨
    isLeaf conv (Yaml.entry entries "type") = some false ∧
      ((∃ i child rest below, path = .branch i :: rest ∧
          (fields (Yaml.entry entries "branches"))[i]? = some child ∧
          collectLeafNodes conv child.2 = some below ∧ rest ∈ below) ∨
        ∃ rest below, path = .default :: rest ∧
          collectLeafNodes conv (Yaml.entry entries "default") = some below ∧ rest ∈ below) := by
  rw [collectLeafNodes_map] at h
  match hleaf : isLeaf conv (Yaml.entry entries "type") with
  | none => simp [hleaf] at h
  | some true =>
    rw [hleaf] at h
    obtain rfl := Option.some.inj h
    exact .inl ⟨List.mem_singleton.mp hpath, rfl⟩
  | some false =>
    rw [hleaf] at h
    refine .inr ⟨rfl, ?_⟩
    simp only [Option.bind_eq_bind, Option.bind_eq_some_iff] at h
    obtain ⟨inBranches, hbranches, others, hothers, h⟩ := h
    obtain rfl := Option.some.inj h
    rcases List.mem_append.mp hpath with hpath | hpath
    · obtain ⟨i, rest, below, hpath, hfound, hrest⟩ := mem_branchLeaves hbranches hpath
      rw [List.getElem?_map, Option.map_eq_some_iff] at hfound
      obtain ⟨child, hchild, hbelow⟩ := hfound
      rw [Nat.zero_add] at hpath
      exact .inl ⟨i, child, rest, below, hpath, hchild, hbelow, hrest⟩
    · obtain ⟨rest, hrest, rfl⟩ := List.mem_map.mp hpath
      split_ifs at hothers
      · exact .inr ⟨rest, others, rfl, hothers, hrest⟩
      · obtain rfl := Option.some.inj hothers
        cases hrest

/-- The keys that decide which path leads where. -/
theorem paths_congr
    (hbranches : Yaml.entry entries' "branches" = Yaml.entry entries "branches")
    (hdefault : Yaml.entry entries' "default" = Yaml.entry entries "default")
    (path : List DocStep) :
    treePath path (.map entries') = treePath path (.map entries) ∧
      (DistinctAlong path (.map entries) → DistinctAlong path (.map entries')) := by
  match path with
  | [] => exact ⟨rfl, fun _ => trivial⟩
  | .branch i :: path => simp [treePath, DistinctAlong, hbranches]
  | .default :: path => simp [treePath, DistinctAlong, hdefault]

theorem map_set_eq {α β : Type} {f : α → β} {l : List α} {i : ℕ} {a b : α} (h : l[i]? = some a)
    (hf : f b = f a) : (l.set i b).map f = l.map f := by
  apply List.ext_getElem?
  intro j
  rw [List.getElem?_map, List.getElem?_map, List.getElem?_set]
  split_ifs with hij hlt
  · subst hij
    rw [h, Option.map_some, Option.map_some, hf]
  · subst hij
    rw [List.getElem?_eq_none (by omega)]
  · rfl

variable [Doubles D] {node : DecisionNode D} {yaml : Yaml} {write : Yaml → Option Yaml}
  {change : LeafNode D → LeafNode D} {fits : LeafNode D → Prop}

theorem exists_entries (h : parseNode conv yaml = some (.ok node)) :
    ∃ entries, yaml = .map entries := by
  cases yaml with
  | map entries => exact ⟨entries, rfl⟩
  | _ => simp [parseNode, fail] at h

/-- A write to a leaf changes its formulas only, and what is read from them. -/
def WritesLeaf (conv : NodeConversions D) (write : Yaml → Option Yaml)
    (change : LeafNode D → LeafNode D) (fits : LeafNode D → Prop) : Prop :=
  ∀ entries leaf, parseLeaf conv entries = some leaf → fits leaf →
    ∃ entries', write (.map entries) = some (.map entries') ∧
      (∀ key, key ≠ "formulas" → Yaml.entry entries' key = Yaml.entry entries key) ∧
      parseLeaf conv entries' = some (change leaf)

/-- What a document is after a write to the leaf at a path. -/
structure Written (conv : NodeConversions D) (leaves : List (List DocStep))
    (entries entries' : List (String × Yaml)) (node' : DecisionNode D) : Prop where
  parsed : parseNode conv (.map entries') = some (.ok node')
  collected : collectLeafNodes conv (.map entries') = some leaves
  paths : ∀ path, treePath path (.map entries') = treePath path (.map entries) ∧
    (DistinctAlong path (.map entries) → DistinctAlong path (.map entries'))
  mapping : Yaml.entry entries' "verdict_mapping" = Yaml.entry entries "verdict_mapping"

omit [Doubles D] in
theorem IsBranch.congr {field : String} (h : IsBranch conv entries field)
    (htype : Yaml.entry entries' "type" = Yaml.entry entries "type")
    (hfield : Yaml.entry entries' "field" = Yaml.entry entries "field") :
    IsBranch conv entries' field := by
  rw [IsBranch, htype, hfield]
  exact h

/-- A write below a branch. -/
theorem Written.branch {i : ℕ} {key field : String} {inner inner' : List (String × Yaml)}
    {below : List (List DocStep)} {branches : List (String × DecisionNode D)}
    {child default : DecisionNode D} {f : DecisionNode D → DecisionNode D}
    (hbranch : IsBranch conv entries field)
    (hchild : (fields (Yaml.entry entries "branches"))[i]? = some (key, .map inner))
    (hbelow : collectLeafNodes conv (.map inner) = some below)
    (hleaves : collectLeafNodes conv (.map entries) = some leaves)
    (hset : addBranches []
      (((fields (Yaml.entry entries "branches")).map fun child =>
        (child.1, parseNode conv child.2)).set i (key, some (.ok (f child)))) =
          some (.ok (modifyBranch key f branches)))
    (hdefined : (Yaml.entry entries "default").isDefined = true)
    (hdefault : parseNode conv (Yaml.entry entries "default") = some (.ok default))
    (hwritten : Written conv below inner inner' (f child)) :
    Written conv leaves entries
      (putEntry "branches"
        (.map ((fields (Yaml.entry entries "branches")).set i (key, .map inner'))) entries)
      (.branch field (modifyBranch key f branches) (some default)) := by
  set children := fields (Yaml.entry entries "branches") with hchildren
  set entries' := putEntry "branches" (.map (children.set i (key, .map inner'))) entries
  have hkeep : ∀ k, k ≠ "branches" → Yaml.entry entries' k = Yaml.entry entries k :=
    fun k hk => entry_putEntry_ne hk
  have hself : fields (Yaml.entry entries' "branches") = children.set i (key, .map inner') := by
    rw [entry_putEntry_self]
    rfl
  have htype := hkeep "type" (by decide)
  have hother := hkeep "default" (by decide)
  refine ⟨?_, ?_, fun path => ?_, hkeep _ (by decide)⟩
  · rw [parseNode_of_isBranch (hbranch.congr htype (hkeep _ (by decide))), hself, hother,
      if_pos hdefined, hdefault, List.map_set, hwritten.parsed, hset, finishBranch]
  · have hsame : collectLeafNodes conv (.map inner') = collectLeafNodes conv (.map inner) := by
      rw [hwritten.collected, hbelow]
    rw [collectLeafNodes_map, htype, hself, hother,
      map_set_eq (f := fun child : String × Yaml => collectLeafNodes conv child.2) hchild hsame,
      ← hleaves, collectLeafNodes_map]
  · cases path with
    | nil => exact ⟨rfl, fun _ => trivial⟩
    | cons step path =>
      cases step with
      | default => simp [treePath, DistinctAlong, hother]
      | branch j =>
        have hkeys : (children.set i (key, .map inner')).map Prod.fst = children.map Prod.fst :=
          map_set_eq hchild rfl
        rw [treePath, treePath, DistinctAlong, DistinctAlong, hself, ← hchildren, hkeys,
          List.getElem?_set]
        split_ifs with hij hlt
        · subst hij
          rw [hchild]
          obtain ⟨hpath, hdistinct⟩ := hwritten.paths path
          refine ⟨by simp only [hpath], fun h => ⟨h.1, ?_⟩⟩
          rintro _ ⟨⟩
          exact hdistinct (h.2 _ rfl)
        · subst hij
          rw [List.getElem?_eq_none (by omega)] at hchild
          cases hchild
        · exact ⟨rfl, id⟩

/-- A write below the default child. -/
theorem Written.default {field : String} {inner inner' : List (String × Yaml)}
    {below : List (List DocStep)} {branches : List (String × DecisionNode D)}
    {child : DecisionNode D} (hbranch : IsBranch conv entries field)
    (hinner : Yaml.entry entries "default" = .map inner)
    (hbelow : collectLeafNodes conv (.map inner) = some below)
    (hleaves : collectLeafNodes conv (.map entries) = some leaves)
    (hbranches : addBranches [] ((fields (Yaml.entry entries "branches")).map fun child =>
      (child.1, parseNode conv child.2)) = some (.ok branches))
    (hwritten : Written conv below inner inner' child) :
    Written conv leaves entries (putEntry "default" (.map inner') entries)
      (.branch field branches (some child)) := by
  set entries' := putEntry "default" (.map inner') entries
  have hkeep : ∀ k, k ≠ "default" → Yaml.entry entries' k = Yaml.entry entries k :=
    fun k hk => entry_putEntry_ne hk
  have hself : Yaml.entry entries' "default" = .map inner' := entry_putEntry_self
  have htype := hkeep "type" (by decide)
  have hother := hkeep "branches" (by decide)
  refine ⟨?_, ?_, fun path => ?_, hkeep _ (by decide)⟩
  · rw [parseNode_of_isBranch (hbranch.congr htype (hkeep _ (by decide))), hself, hother,
      if_pos (show (Yaml.map inner').isDefined = true from rfl), hwritten.parsed, hbranches,
      finishBranch]
  · rw [collectLeafNodes_map, htype, hself, hother, hwritten.collected, ← hleaves,
      collectLeafNodes_map, hinner, hbelow]
    rfl
  · cases path with
    | nil => exact ⟨rfl, fun _ => trivial⟩
    | cons step path =>
      cases step with
      | branch j => simp [treePath, DistinctAlong, hother]
      | default =>
        obtain ⟨hpath, hdistinct⟩ := hwritten.paths path
        refine ⟨by rw [treePath, treePath, hself, hinner, hpath], fun h => ?_⟩
        rw [DistinctAlong, hinner] at h
        rw [DistinctAlong, hself]
        exact hdistinct h

theorem modifyAt_leaf (hwrite : WritesLeaf conv write change fits)
    (hparse : parseNode conv (.map entries) = some (.ok node))
    (hleaves : collectLeafNodes conv (.map entries) = some leaves) (hpath : path ∈ leaves)
    (hdistinct : DistinctAlong path (.map entries))
    (hfits : ∀ leaf, leafAt (treePath path (.map entries)) node = some leaf → fits leaf) :
    ∃ entries', modifyAt write path (.map entries) = some (.map entries') ∧
      Written conv leaves entries entries'
        (modifyLeaf change (treePath path (.map entries)) node) := by
  induction path generalizing entries node leaves with
  | nil =>
    obtain ⟨-, hleaf⟩ | ⟨-, ⟨_, _, _, _, hnil, -⟩ | ⟨_, _, hnil, -⟩⟩ := mem_leaves hleaves hpath
    · rw [parseNode_of_isLeaf hleaf, Option.map_eq_some_iff] at hparse
      obtain ⟨leaf, hread, hnode⟩ := hparse
      obtain rfl := Except.ok.inj hnode
      obtain ⟨entries', hmodify, hkeep, hchange⟩ := hwrite entries leaf hread (hfits leaf rfl)
      have htype := hkeep "type" (by decide)
      refine ⟨entries', hmodify, ?_, ?_, ?_, hkeep _ (by decide)⟩
      · rw [parseNode_of_isLeaf (by rw [htype, hleaf]), hchange]
        rfl
      · rw [collectLeafNodes_map, hleaf] at hleaves
        rw [collectLeafNodes_map, htype, hleaf]
        exact hleaves
      · exact paths_congr (hkeep _ (by decide)) (hkeep _ (by decide))
    · cases hnil
    · cases hnil
  | cons step rest ih =>
    obtain ⟨hnil, -⟩ | ⟨hinner, hstep⟩ := mem_leaves hleaves hpath
    · cases hnil
    obtain ⟨field, hbranch⟩ := exists_isBranch hinner hparse
    rw [parseNode_of_isBranch hbranch] at hparse
    obtain ⟨branches, child, hbranches, hdefault, rfl⟩ := finishBranch_eq_ok hparse
    split_ifs at hdefault with hdefined
    obtain ⟨i, ⟨key, below⟩, rest', found, hcons, hchild, hfound, hrest⟩ |
      ⟨rest', found, hcons, hfound, hrest⟩ := hstep
    · obtain ⟨rfl, rfl⟩ := List.cons.inj hcons
      rw [DistinctAlong] at hdistinct
      have hkeys : (((fields (Yaml.entry entries "branches")).map fun child =>
          (child.1, parseNode conv child.2)).map Prod.fst).Nodup := by
        rw [List.map_map]
        exact hdistinct.1
      obtain ⟨node, hnode, hlookup, hset⟩ := addBranches_set hkeys (by simp)
        (by rw [List.getElem?_map, hchild]; rfl) hbranches
      obtain ⟨inner, rfl⟩ := exists_entries hnode
      have hpath : treePath (.branch i :: rest) (.map entries) =
          .branch key :: treePath rest (.map inner) := by
        rw [treePath, hchild]
      rw [hpath] at hfits ⊢
      obtain ⟨inner', hmodify, hwritten⟩ := ih hnode hfound hrest (hdistinct.2 _ hchild)
        (fun leaf hleaf => hfits leaf (by rw [leafAt, hlookup]; exact hleaf))
      refine ⟨_, ?_, Written.branch hbranch hchild hfound hleaves (hset _) hdefined
        (Option.some.inj hdefault) hwritten⟩
      rw [modifyAt, hchild]
      simp only [hmodify]
      rfl
    · obtain ⟨rfl, rfl⟩ := List.cons.inj hcons
      have hnode := Option.some.inj hdefault
      obtain ⟨inner, hinner⟩ := exists_entries hnode
      rw [treePath, hinner] at hfits ⊢
      rw [hinner] at hfound hnode
      rw [DistinctAlong, hinner] at hdistinct
      obtain ⟨inner', hmodify, hwritten⟩ := ih hnode hfound hrest hdistinct hfits
      refine ⟨_, ?_, Written.default hbranch hinner hfound hleaves hbranches hwritten⟩
      rw [modifyAt, hinner, hmodify]
      rfl

end Write

/-! ### Formulas -/

section Formulas

variable {D : Type} [Doubles D] {conv : NodeConversions D} {entries : List (String × Yaml)}
  {node value : Yaml} {formula : ScoreFormula D} {v : D}

/-- One element that reads differently. -/
theorem mapM_set {α β : Type} {f : α → Option β} {g : β → β} {l : List α} {bs : List β} {i : ℕ}
    {a a' : α} (h : l.mapM f = some bs) (hi : l[i]? = some a)
    (hchange : ∀ b, f a = some b → f a' = some (g b)) :
    (l.set i a').mapM f = some (bs.modify i g) := by
  induction l generalizing bs i with
  | nil => simp at hi
  | cons x l ih =>
    simp only [List.mapM_cons, Option.bind_eq_bind, Option.bind_eq_some_iff] at h
    obtain ⟨b, hb, bs', hbs', hcons⟩ := h
    obtain rfl := Option.some.inj hcons
    cases i with
    | zero =>
      obtain rfl : x = a := by simpa using hi
      rw [List.set_cons_zero, List.mapM_cons, hchange b hb, hbs']
      rfl
    | succ i =>
      rw [List.set_cons_succ, List.mapM_cons, hb, ih hbs' (by simpa using hi)]
      rfl

theorem getElem?_of_mapM {α β : Type} {f : α → Option β} {l : List α} {bs : List β} {i : ℕ}
    {b : β} (h : l.mapM f = some bs) (hi : bs[i]? = some b) :
    ∃ a, l[i]? = some a ∧ f a = some b := by
  induction l generalizing bs i with
  | nil =>
    obtain rfl := Option.some.inj h
    simp at hi
  | cons x l ih =>
    simp only [List.mapM_cons, Option.bind_eq_bind, Option.bind_eq_some_iff] at h
    obtain ⟨b', hb', bs', hbs', hcons⟩ := h
    obtain rfl := Option.some.inj hcons
    cases i with
    | zero =>
      obtain rfl : b' = b := by simpa using hi
      exact ⟨x, rfl, hb'⟩
    | succ i => exact ih hbs' (by simpa using hi)

/-- A formula reads the same from the map that its node is turned into. -/
theorem parseFormula_asMap (h : parseFormula conv node = some formula) :
    ∃ entries, asMap node = some entries ∧ parseFormula conv (.map entries) = some formula := by
  have hread := h
  simp only [parseFormula, Option.bind_eq_bind, Option.bind_eq_some_iff] at hread
  obtain ⟨weights, hmember, -⟩ := hread
  obtain ⟨hnode, entries, hmap⟩ := exists_asMap hmember
  refine ⟨entries, hmap, ?_⟩
  rw [← h, parseFormula, parseFormula, member_asMap hnode hmap (by decide),
    member_asMap hnode hmap (by decide), member_asMap hnode hmap (by decide)]
  rfl

theorem parseFormula_map : parseFormula conv (.map entries) = some formula ↔
    (elements (Yaml.entry entries "weights")).mapM (NodeConversions.as conv.asDouble) =
      some formula.weights ∧
    (elements (Yaml.entry entries "features")).mapM (NodeConversions.as conv.asString) =
      some formula.features ∧
    conv.doubleOr (Yaml.entry entries "threshold") (Doubles.ofInt 0) = formula.threshold := by
  simp only [parseFormula, member_map, Option.bind_eq_bind, Option.bind_some,
    Option.bind_eq_some_iff]
  constructor
  · rintro ⟨weights, hweights, features, hfeatures, hformula⟩
    obtain rfl := Option.some.inj hformula
    exact ⟨hweights, hfeatures, rfl⟩
  · rintro ⟨hweights, hfeatures, hthreshold⟩
    exact ⟨_, hweights, _, hfeatures, by rw [hthreshold]; rfl⟩

variable {text : String}

theorem write_threshold (hvalue : conv.asDouble (.scalar text) = some v)
    (h : parseFormula conv node = some formula) :
    ∃ node', assign (.scalar text) [.key "threshold"] node = some node' ∧
      parseFormula conv node' = some { formula with threshold := v } := by
  obtain ⟨entries, hmap, hread⟩ := parseFormula_asMap h
  obtain ⟨hweights, hfeatures, -⟩ := parseFormula_map.mp hread
  refine ⟨_, by rw [assign_key hmap, assign, Option.map_some], ?_⟩
  rw [parseFormula_map, entry_putEntry_ne (by decide), entry_putEntry_ne (by decide),
    entry_putEntry_self]
  exact ⟨hweights, hfeatures, by simp [NodeConversions.doubleOr, NodeConversions.as, hvalue]⟩

omit [Doubles D] in
/-- Weights that are read are the elements of a sequence. -/
theorem exists_sequence {weights : List D} {i : ℕ} (hi : i < weights.length)
    (h : (elements node).mapM (NodeConversions.as conv.asDouble) = some weights) :
    ∃ nodes, node = .sequence nodes ∧ i < nodes.length := by
  obtain ⟨child, hchild, hvalue⟩ := getElem?_of_mapM h (List.getElem?_eq_getElem hi)
  cases node with
  | sequence nodes => exact ⟨nodes, rfl, (List.getElem?_eq_some_iff.mp hchild).1⟩
  | map entries =>
    rw [elements, List.getElem?_map, Option.map_eq_some_iff] at hchild
    obtain ⟨-, -, rfl⟩ := hchild
    cases hvalue
  | _ => simp [elements] at hchild

theorem write_weight {i : ℕ} (hvalue : conv.asDouble (.scalar text) = some v)
    (h : parseFormula conv node = some formula) (hi : i < formula.weights.length) :
    ∃ node', assign (.scalar text) [.key "weights", .index i] node = some node' ∧
      parseFormula conv node' =
        some { formula with weights := formula.weights.modify i fun _ => v } := by
  obtain ⟨entries, hmap, hread⟩ := parseFormula_asMap h
  obtain ⟨hweights, hfeatures, hthreshold⟩ := parseFormula_map.mp hread
  obtain ⟨nodes, hnodes, hlength⟩ := exists_sequence hi hweights
  refine ⟨_, by
    rw [assign_key hmap, hnodes, assign_index hlength, assign, Option.map_some, Option.map_some],
    ?_⟩
  rw [parseFormula_map, entry_putEntry_self, entry_putEntry_ne (by decide),
    entry_putEntry_ne (by decide)]
  refine ⟨?_, hfeatures, hthreshold⟩
  rw [hnodes] at hweights
  exact mapM_set hweights (List.getElem?_eq_getElem hlength) fun _ _ => hvalue

theorem writesLeaf_formula {rest : List Subscript} {i : ℕ}
    {g : ScoreFormula D → ScoreFormula D} {ok : ScoreFormula D → Prop}
    (hformula : ∀ node formula, parseFormula conv node = some formula → ok formula →
      ∃ node', assign value rest node = some node' ∧
        parseFormula conv node' = some (g formula)) :
    WritesLeaf conv (assign value (.key "formulas" :: .index i :: rest))
      (fun leaf => { leaf with formulas := leaf.formulas.modify i g })
      (fun leaf => ∃ formula, leaf.formulas[i]? = some formula ∧ ok formula) := by
  rintro entries leaf hread ⟨formula, hi, hok⟩
  simp only [parseLeaf, Option.bind_eq_bind, Option.bind_eq_some_iff] at hread
  obtain ⟨label, hlabel, recommendation, hrecommendation, formulas, hformulas, hleaf⟩ := hread
  obtain rfl := Option.some.inj hleaf
  obtain ⟨child, hchild, hparse⟩ := getElem?_of_mapM hformulas hi
  obtain ⟨nodes, hnodes⟩ : ∃ nodes, Yaml.entry entries "formulas" = .sequence nodes := by
    cases hentry : Yaml.entry entries "formulas" with
    | sequence nodes => exact ⟨nodes, rfl⟩
    | _ => simp [hentry, Yaml.items] at hchild
  rw [hnodes, Yaml.items] at hchild hformulas
  obtain ⟨hlength, rfl⟩ := List.getElem?_eq_some_iff.mp hchild
  obtain ⟨child', hassign, hparse'⟩ := hformula _ formula hparse hok
  refine ⟨_, by rw [assign_key rfl, hnodes, assign_index hlength, hassign, Option.map_some,
    Option.map_some], fun key hkey => entry_putEntry_ne hkey, ?_⟩
  have hset : (nodes.set i child').mapM (parseFormula conv) = some (formulas.modify i g) := by
    apply mapM_set hformulas hchild
    intro formula' hformula'
    obtain rfl : formula = formula' := Option.some.inj (hparse.symm.trans hformula')
    exact hparse'
  simp only [parseLeaf, entry_putEntry_ne (show "label" ≠ "formulas" by decide),
    entry_putEntry_ne (show "recommendation" ≠ "formulas" by decide), entry_putEntry_self, hlabel,
    hrecommendation, Yaml.items, hset, Option.bind_eq_bind, Option.bind_some]
  rfl

/-- A number behind the one after the last formula turns the sequence into a map, and the leaf has
no formulas when it is loaded again. -/
theorem formulas_lost {leaf : LeafNode D} {nodes : List Yaml} {fi : ℕ}
    (h : parseLeaf conv entries = some leaf)
    (hnodes : Yaml.entry entries "formulas" = .sequence nodes) (hlt : nodes.length < fi) :
    ∃ entries', assign (.scalar text) [.key "formulas", .index fi, .key "threshold"]
        (.map entries) = some (.map entries') ∧
      parseLeaf conv entries' = some { leaf with formulas := [] } := by
  simp only [parseLeaf, Option.bind_eq_bind, Option.bind_eq_some_iff] at h
  obtain ⟨label, hlabel, recommendation, hrecommendation, formulas, -, hleaf⟩ := h
  obtain rfl := Option.some.inj hleaf
  have hposition : position (.index fi) (.sequence nodes) = none := by
    simp [position, asSequence, hlt]
  have hmissing : Yaml.entry (nodes.zipIdx.map fun node => (toString node.2, node.1))
      (toString fi) = .missing := by
    apply entry_numbered_of_ne
    intro node hnode
    have := List.snd_lt_of_mem_zipIdx hnode
    omega
  have hassign : assign (.scalar text) [.index fi, .key "threshold"] (.sequence nodes) =
      some (.map (putEntry (toString fi) (.map (putEntry "threshold" (.scalar text) []))
        (nodes.zipIdx.map fun node => (toString node.2, node.1)))) := by
    rw [assign, hposition]
    simp only [asMap, Option.bind_eq_bind, Option.bind_some, Subscript.text, hmissing]
    rfl
  refine ⟨_, by rw [assign_key rfl, hnodes, hassign, Option.map_some], ?_⟩
  simp only [parseLeaf, entry_putEntry_ne (show "label" ≠ "formulas" by decide),
    entry_putEntry_ne (show "recommendation" ≠ "formulas" by decide), entry_putEntry_self, hlabel,
    hrecommendation, Yaml.items, Option.bind_eq_bind, Option.bind_some, List.mapM_nil]
  rfl

end Formulas

/-! ### The verdict mapping -/

section Mapping

variable {D : Type}

def overrideMapping (key : String) (v : D) (mapping : VerdictMapping D) : VerdictMapping D :=
  if key = "ng_threshold" then { mapping with ngThreshold := v }
  else if key = "warn_threshold" then { mapping with warnThreshold := v }
  else mapping

variable [Doubles D] {conv : NodeConversions D} {entries : List (String × Yaml)}
  {mapping : VerdictMapping D} {key text : String} {v : D}

theorem parseVerdictMapping_eq (h : parseVerdictMapping conv (.map entries) = some mapping) :
    ∃ inner, asMap (Yaml.entry entries "verdict_mapping") = some inner ∧
      mapping = ⟨conv.doubleOr (Yaml.entry inner "ng_threshold")
          (Doubles.div (Doubles.ofInt 7) (Doubles.ofInt 10)),
        conv.doubleOr (Yaml.entry inner "warn_threshold")
          (Doubles.div (Doubles.ofInt 3) (Doubles.ofInt 10))⟩ := by
  simp only [parseVerdictMapping, member_map, Option.bind_eq_bind, Option.bind_some] at h
  split_ifs at h with hdefined
  · simp only [Option.bind_eq_some_iff] at h
    obtain ⟨ng, hng, warn, hwarn, h⟩ := h
    obtain ⟨hnode, inner, hmap⟩ := exists_asMap hng
    have hngKey : "ng_threshold".toList.all Char.isDigit = false := by decide
    have hwarnKey : "warn_threshold".toList.all Char.isDigit = false := by decide
    rw [member_asMap hnode hmap hngKey] at hng
    rw [member_asMap hnode hmap hwarnKey] at hwarn
    obtain rfl := Option.some.inj hng
    obtain rfl := Option.some.inj hwarn
    exact ⟨inner, hmap, (Option.some.inj h).symm⟩
  · cases hentry : Yaml.entry entries "verdict_mapping" with
    | missing => exact ⟨[], rfl, (Option.some.inj h).symm⟩
    | _ => simp [hentry, Yaml.isDefined] at hdefined

/-- A value under a key of the mapping. -/
theorem parseVerdictMapping_write (hvalue : conv.asDouble (.scalar text) = some v)
    (h : parseVerdictMapping conv (.map entries) = some mapping) :
    ∃ entries', assign (.scalar text) [.key "verdict_mapping", .key key] (.map entries) =
        some (.map entries') ∧
      (∀ k, k ≠ "verdict_mapping" → Yaml.entry entries' k = Yaml.entry entries k) ∧
      parseVerdictMapping conv (.map entries') = some (overrideMapping key v mapping) := by
  obtain ⟨inner, hmap, rfl⟩ := parseVerdictMapping_eq h
  refine ⟨_, by rw [assign_key rfl, assign_key hmap, assign, Option.map_some, Option.map_some],
    fun k hk => entry_putEntry_ne hk, ?_⟩
  have hdouble : ∀ fallback, conv.doubleOr (.scalar text) fallback = v := by
    intro fallback
    simp [NodeConversions.doubleOr, NodeConversions.as, hvalue]
  simp only [parseVerdictMapping, member_map, entry_putEntry_self, Yaml.isDefined, if_true,
    Option.bind_eq_bind, Option.bind_some, overrideMapping]
  split_ifs with hng hwarn
  · subst hng
    rw [entry_putEntry_self, hdouble, entry_putEntry_ne (by decide)]
    rfl
  · subst hwarn
    rw [entry_putEntry_self, hdouble, entry_putEntry_ne (by decide)]
    rfl
  · rw [entry_putEntry_ne (Ne.symm hng), entry_putEntry_ne (Ne.symm hwarn)]
    rfl

end Mapping

/-! ### The tree that is loaded again -/

section Reload

variable {D : Type}

def changeFormula (paths : List (List TreeStep)) (li fi : ℕ) (g : ScoreFormula D → ScoreFormula D)
    (tree : DecisionTree D) : DecisionTree D :=
  match paths[li]? with
  | none => tree
  | some path =>
    { tree with
      root := modifyLeaf (fun leaf => { leaf with formulas := leaf.formulas.modify fi g }) path
        tree.root }

/-- The numbers of weights of a leaf's formulas. -/
def weightCounts (leaf : LeafNode D) : List ℕ :=
  leaf.formulas.map fun formula => formula.weights.length

/-- The number of weights of a formula. -/
def weightCount (paths : List (List TreeStep)) (tree : DecisionTree D) (li fi : ℕ) : Option ℕ := do
  let path ← paths[li]?
  let counts ← (leafAt path tree.root).map weightCounts
  counts[fi]?

namespace Target

/-- The tree with one value in place of another. -/
def override (paths : List (List TreeStep)) (v : D) : Target → DecisionTree D → DecisionTree D
  | .nowhere, tree => tree
  | .mapping key, tree => { tree with verdictMapping := overrideMapping key v tree.verdictMapping }
  | .threshold li fi, tree =>
    changeFormula paths li fi (fun formula => { formula with threshold := v }) tree
  | .weight li fi wi, tree =>
    changeFormula paths li fi
      (fun formula => { formula with weights := formula.weights.modify wi fun _ => v }) tree

/-- The formula, and the weight, that a name gives in a leaf of the tree are there. -/
def Fits (paths : List (List TreeStep)) (tree : DecisionTree D) : Target → Prop
  | .nowhere | .mapping _ => True
  | .threshold li fi => li < paths.length → ∃ count, weightCount paths tree li fi = some count
  | .weight li fi wi =>
    li < paths.length → ∃ count, weightCount paths tree li fi = some count ∧ wi < count

end Target

/-- The tree with the values of the parameters. -/
def overrides (paths : List (List TreeStep)) (params : List (String × D)) (tree : DecisionTree D) :
    DecisionTree D :=
  params.foldl (fun tree param => (target param.1).override paths param.2 tree) tree

/-! What fits a tree fits the tree with other values. -/

theorem lookup_modifyBranch {change : DecisionNode D → DecisionNode D} {key k : String}
    (branches : List (String × DecisionNode D)) :
    (modifyBranch key change branches).lookup k =
      if k = key then (branches.lookup k).map change else branches.lookup k := by
  induction branches with
  | nil => simp [modifyBranch]
  | cons head rest ih =>
    rw [modifyBranch_cons, List.lookup_cons, List.lookup_cons, ih]
    by_cases hk : k = head.1
    · subst hk
      by_cases hkey : head.1 = key <;> simp [hkey]
    · simp [beq_false_of_ne hk]

/-- A change that keeps what is asked of a leaf keeps it at every path. -/
theorem leafAt_modifyLeaf {α : Type} {change : LeafNode D → LeafNode D} {ask : LeafNode D → α}
    (hask : ∀ leaf, ask (change leaf) = ask leaf) (path path' : List TreeStep)
    (node : DecisionNode D) :
    (leafAt path' (modifyLeaf change path node)).map ask = (leafAt path' node).map ask := by
  induction path generalizing path' node with
  | nil =>
    cases node with
    | leaf leaf =>
      match path' with
      | [] => simp [modifyLeaf, leafAt, hask]
      | .branch _ :: _ => rfl
      | .default :: _ => rfl
    | branch field branches default => rfl
  | cons step path ih =>
    cases node with
    | leaf leaf => cases step <;> rfl
    | branch field branches default =>
      cases step with
      | branch key =>
        match path' with
        | [] => rfl
        | .default :: _ => rfl
        | .branch k :: path' =>
          rw [modifyLeaf, leafAt, leafAt, lookup_modifyBranch]
          split_ifs
          · cases branches.lookup k with
            | none => rfl
            | some child => exact ih path' child
          · rfl
      | default =>
        match path' with
        | [] => rfl
        | .branch _ :: _ => rfl
        | .default :: path' =>
          cases default with
          | none => rfl
          | some child => exact ih path' child

theorem weightCounts_modify {g : ScoreFormula D → ScoreFormula D} {fi : ℕ} (leaf : LeafNode D)
    (hg : ∀ formula, (g formula).weights.length = formula.weights.length) :
    weightCounts { leaf with formulas := leaf.formulas.modify fi g } = weightCounts leaf := by
  apply List.ext_getElem?
  intro i
  simp only [weightCounts, List.getElem?_map, List.getElem?_modify]
  cases leaf.formulas[i]? with
  | none => rfl
  | some formula =>
    simp only [Option.map_eq_map, Option.map_some]
    split_ifs
    · rw [hg]
    · rfl

theorem weightCount_changeFormula {paths : List (List TreeStep)} {tree : DecisionTree D}
    {g : ScoreFormula D → ScoreFormula D} (li fi li' fi' : ℕ)
    (hg : ∀ formula, (g formula).weights.length = formula.weights.length) :
    weightCount paths (changeFormula paths li fi g tree) li' fi' =
      weightCount paths tree li' fi' := by
  rw [changeFormula]
  cases paths[li]? with
  | none => rfl
  | some path =>
    simp only [weightCount]
    congr 1
    funext path'
    rw [leafAt_modifyLeaf fun leaf => weightCounts_modify leaf hg]

theorem weightCount_override {paths : List (List TreeStep)} {tree : DecisionTree D} {v : D}
    (target : Target) (li fi : ℕ) :
    weightCount paths (target.override paths v tree) li fi = weightCount paths tree li fi := by
  cases target with
  | nowhere => rfl
  | mapping key => rfl
  | threshold li' fi' => exact weightCount_changeFormula li' fi' li fi fun _ => rfl
  | weight li' fi' wi =>
    exact weightCount_changeFormula li' fi' li fi fun _ => List.length_modify ..

theorem Target.Fits.override {paths : List (List TreeStep)} {tree : DecisionTree D} {v : D}
    {target : Target} (h : target.Fits paths tree) (target' : Target) :
    target.Fits paths (target'.override paths v tree) := by
  cases target with
  | nowhere => trivial
  | mapping key => trivial
  | threshold li fi =>
    rw [Target.Fits, weightCount_override]
    exact h
  | weight li fi wi =>
    rw [Target.Fits, weightCount_override]
    exact h

end Reload

section Applied

variable {D : Type} [Doubles D] {conv : NodeConversions D} {encode : D → String}
  {leaves : List (List DocStep)} {paths : List (List TreeStep)} {root : Yaml}
  {tree : DecisionTree D} {v : D} {text : String}

theorem loadFromYAML_eq_ok {path : String} : loadFromYAML conv path (.ok root) = some (.ok tree) ↔
    parseNode conv root = some (.ok tree.root) ∧
      parseVerdictMapping conv root = some tree.verdictMapping := by
  rw [loadFromYAML]
  cases hparse : parseNode conv root with
  | none => simp
  | some outcome =>
    cases outcome with
    | error e => simp
    | ok node =>
      simp only [Option.map_eq_some_iff, Option.some.injEq, Except.ok.injEq]
      constructor
      · rintro ⟨mapping, hmapping, rfl⟩
        exact ⟨rfl, hmapping⟩
      · rintro ⟨rfl, hmapping⟩
        exact ⟨_, hmapping, rfl⟩

/-- The document reads as the tree, with the leaves where they were collected. -/
structure Reads (conv : NodeConversions D) (leaves : List (List DocStep))
    (paths : List (List TreeStep)) (root : Yaml) (tree : DecisionTree D) : Prop where
  parsed : parseNode conv root = some (.ok tree.root)
  mapping : parseVerdictMapping conv root = some tree.verdictMapping
  collected : collectLeafNodes conv root = some leaves
  paths_eq : leaves.map (fun leaf => treePath leaf root) = paths
  distinct : ∀ path, DistinctAlong path root

theorem parseVerdictMapping_congr {entries entries' : List (String × Yaml)}
    (h : Yaml.entry entries' "verdict_mapping" = Yaml.entry entries "verdict_mapping") :
    parseVerdictMapping conv (.map entries') = parseVerdictMapping conv (.map entries) := by
  simp only [parseVerdictMapping, member_map, h]

theorem parseNode_congr {entries entries' : List (String × Yaml)}
    (h : ∀ key, key ≠ "verdict_mapping" → Yaml.entry entries' key = Yaml.entry entries key) :
    parseNode conv (.map entries') = parseNode conv (.map entries) := by
  simp only [parseNode_map, parseLeaf, h "type" (by decide), h "field" (by decide),
    h "branches" (by decide), h "default" (by decide), h "label" (by decide),
    h "recommendation" (by decide), h "formulas" (by decide)]

/-- A value that is written in a leaf. -/
theorem Reads.writeLeaf {subscripts : List Subscript} {li fi : ℕ} {value : Yaml}
    {g : ScoreFormula D → ScoreFormula D} {ok : ScoreFormula D → Prop}
    (h : Reads conv leaves paths root tree)
    (hformula : ∀ node formula, parseFormula conv node = some formula → ok formula →
      ∃ node', assign value subscripts node = some node' ∧
        parseFormula conv node' = some (g formula))
    (hok : ∀ path, paths[li]? = some path → ∀ leaf, leafAt path tree.root = some leaf →
      ∃ formula, leaf.formulas[fi]? = some formula ∧ ok formula) :
    Reads conv leaves paths
      (Target.writeLeaf leaves li (.key "formulas" :: .index fi :: subscripts) value root)
      (changeFormula paths li fi g tree) := by
  cases hleaf : leaves[li]? with
  | none =>
    have hpath : paths[li]? = none := by rw [← h.paths_eq, List.getElem?_map, hleaf]; rfl
    rw [Target.writeLeaf, hleaf, changeFormula, hpath]
    exact h
  | some leaf =>
    have hpath : paths[li]? = some (treePath leaf root) := by
      rw [← h.paths_eq, List.getElem?_map, hleaf]
      rfl
    obtain ⟨entries, rfl⟩ := exists_entries h.parsed
    obtain ⟨entries', hmodify, hwritten⟩ := modifyAt_leaf (writesLeaf_formula hformula) h.parsed
      h.collected (List.mem_of_getElem? hleaf) (h.distinct leaf) (hok _ hpath)
    rw [Target.writeLeaf, hleaf, changeFormula, hpath]
    simp only [hmodify, Option.getD_some]
    refine ⟨hwritten.parsed, ?_, hwritten.collected, ?_, fun path => ?_⟩
    · rw [parseVerdictMapping_congr hwritten.mapping]
      exact h.mapping
    · rw [← h.paths_eq]
      apply List.map_congr_left
      intro path _
      exact (hwritten.paths path).1
    · exact (hwritten.paths path).2 (h.distinct path)

omit [Doubles D] in
/-- The formula that a name gives in a leaf. -/
theorem exists_formula {path : List TreeStep} {leaf : LeafNode D} {li fi count : ℕ}
    (hpath : paths[li]? = some path) (hleaf : leafAt path tree.root = some leaf)
    (h : weightCount paths tree li fi = some count) :
    ∃ formula, leaf.formulas[fi]? = some formula ∧ formula.weights.length = count := by
  simp only [weightCount, hpath, hleaf, Option.bind_eq_bind, Option.bind_some, Option.map_some,
    weightCounts, List.getElem?_map, Option.map_eq_some_iff] at h
  exact h

theorem Reads.write (hvalue : conv.asDouble (.scalar text) = some v) {target : Target}
    (h : Reads conv leaves paths root tree) (hfits : target.Fits paths tree) :
    ∃ root', target.write leaves (.scalar text) root = some root' ∧
      Reads conv leaves paths root' (target.override paths v tree) := by
  cases target with
  | nowhere => exact ⟨root, rfl, h⟩
  | mapping key =>
    obtain ⟨entries, rfl⟩ := exists_entries h.parsed
    obtain ⟨entries', hassign, hkeep, hmapping⟩ := parseVerdictMapping_write hvalue h.mapping
    have hpaths := paths_congr (hkeep "branches" (by decide)) (hkeep "default" (by decide))
    refine ⟨_, hassign, ?_, hmapping, ?_, ?_, fun path => (hpaths path).2 (h.distinct path)⟩
    · rw [parseNode_congr hkeep]
      exact h.parsed
    · rw [← h.collected, collectLeafNodes_map, collectLeafNodes_map, hkeep _ (by decide),
        hkeep _ (by decide), hkeep _ (by decide)]
    · rw [← h.paths_eq]
      apply List.map_congr_left
      intro path _
      exact (hpaths path).1
  | threshold li fi =>
    refine ⟨_, rfl, h.writeLeaf (fun node formula hread (_ : True) =>
      write_threshold hvalue hread) fun path hpath leaf hleaf => ?_⟩
    obtain ⟨count, hcount⟩ := hfits (List.getElem?_eq_some_iff.mp hpath).1
    obtain ⟨formula, hformula, -⟩ := exists_formula hpath hleaf hcount
    exact ⟨formula, hformula, trivial⟩
  | weight li fi wi =>
    refine ⟨_, rfl, h.writeLeaf (fun node formula hread hlength =>
      write_weight hvalue hread hlength) fun path hpath leaf hleaf => ?_⟩
    obtain ⟨count, hcount, hlt⟩ := hfits (List.getElem?_eq_some_iff.mp hpath).1
    obtain ⟨formula, hformula, rfl⟩ := exists_formula hpath hleaf hcount
    exact ⟨formula, hformula, hlt⟩

theorem Reads.applyParamsToYaml {params : List (String × D)} (h : Reads conv leaves paths root tree)
    (hencode : ∀ param ∈ params, conv.asDouble (.scalar (encode param.2)) = some param.2)
    (hfits : ∀ param ∈ params, (target param.1).Fits paths tree) :
    ∃ root', Tuning.applyParamsToYaml encode leaves root params = some root' ∧
      Reads conv leaves paths root' (overrides paths params tree) := by
  induction params generalizing root tree with
  | nil => exact ⟨root, rfl, h⟩
  | cons param params ih =>
    obtain ⟨root₁, hwrite, h₁⟩ := h.write (hencode param List.mem_cons_self)
      (hfits param List.mem_cons_self)
    obtain ⟨root', happly, h'⟩ := ih h₁ (fun p hp => hencode p (List.mem_cons_of_mem _ hp))
      fun p hp => (hfits p (List.mem_cons_of_mem _ hp)).override _
    refine ⟨root', ?_, h'⟩
    rw [Tuning.applyParamsToYaml, List.foldlM_cons, applyParamToYaml, hwrite]
    exact happly

omit [Doubles D] in
theorem exists_ok_of_addBranches {branches result : List (String × DecisionNode D)}
    {children : List (String × Outcome (DecisionNode D))}
    (h : addBranches branches children = some (.ok result)) :
    ∀ c ∈ children, ∃ child, c.2 = some (.ok child) := by
  induction children generalizing branches with
  | nil => simp
  | cons c children ih =>
    obtain ⟨key, outcome⟩ := c
    obtain ⟨child, rfl, hrest⟩ := ok_of_addBranches_cons h
    rw [List.forall_mem_cons]
    exact ⟨⟨child, rfl⟩, ih hrest⟩

theorem exists_branchLeaves {n : ℕ} {found : List (Option (List (List DocStep)))}
    (h : ∀ leaves ∈ found, leaves.isSome = true) :
    ∃ leaves, branchLeaves n found = some leaves := by
  induction found generalizing n with
  | nil => exact ⟨[], rfl⟩
  | cons head found ih =>
    rw [List.forall_mem_cons] at h
    obtain ⟨below, rfl⟩ := Option.isSome_iff_exists.mp h.1
    obtain ⟨others, hothers⟩ := ih (n := n + 1) h.2
    exact ⟨_, by rw [branchLeaves, hothers]; rfl⟩

/-- What parses has its leaves collected. -/
theorem exists_leaves {node : DecisionNode D} (h : parseNode conv root = some (.ok node)) :
    ∃ leaves, collectLeafNodes conv root = some leaves := by
  fun_induction collectLeafNodes conv root generalizing node with
  | case1 entries hleaf =>
    rw [parseNode_map] at h
    rw [isLeaf] at hleaf
    split_ifs at hleaf with hdefined
    rw [Option.map_eq_none_iff] at hleaf
    simp [hdefined, hleaf] at h
  | case2 entries hleaf => exact ⟨_, rfl⟩
  | case3 entries hleaf ihbranch ihdefault =>
    obtain ⟨field, hbranch⟩ := exists_isBranch hleaf h
    rw [parseNode_of_isBranch hbranch] at h
    obtain ⟨branches, child, hbranches, hdefault, rfl⟩ := finishBranch_eq_ok h
    split_ifs at hdefault with hdefined
    have hfound : ∀ found ∈ (fields (Yaml.entry entries "branches")).attach.map fun child =>
        collectLeafNodes conv child.1.2, found.isSome = true := by
      intro found hmem
      obtain ⟨c, -, rfl⟩ := List.mem_map.mp hmem
      obtain ⟨node, hnode⟩ := exists_ok_of_addBranches hbranches
        (c.1.1, parseNode conv c.1.2) (List.mem_map.mpr ⟨c.1, c.2, rfl⟩)
      obtain ⟨leaves, hleaves⟩ := ihbranch c hnode
      rw [hleaves]
      rfl
    obtain ⟨leaves, hleaves⟩ := exists_branchLeaves (n := 0) hfound
    obtain ⟨others, hothers⟩ := ihdefault (Option.some.inj hdefault)
    exact ⟨_, by rw [hleaves, if_pos hdefined, hothers]; rfl⟩
  | case4 root hroot => exact ⟨_, rfl⟩

/-- The paths to the leaves that the applier collects. -/
def leafPaths (conv : NodeConversions D) (root : Yaml) : List (List TreeStep) :=
  ((collectLeafNodes conv root).getD []).map fun leaf => treePath leaf root

end Applied

section Run

/-- A leaf with one formula. -/
def formulaDocument (label threshold : String) : Yaml :=
  .map [("type", .scalar "leaf"), ("label", .scalar label), ("formulas", .sequence [.map
    [("weights", .sequence [.scalar "1.0"]), ("features", .sequence [.scalar "score"]),
      ("threshold", .scalar threshold)]])]

def treeEntries : List (String × Yaml) :=
  [("verdict_mapping", .map [("ng_threshold", .scalar "0.7")]), ("type", .scalar "branch"),
    ("field", .scalar "score"), ("branches", .map [(">0.8", formulaDocument "NG" "0.3")]),
    ("default", formulaDocument "OK" "0.5")]

def leafOf (label : String) (threshold : ℚ) : DecisionNode ℚ :=
  .leaf ⟨[⟨[1], ["score"], threshold⟩], label, ""⟩

def treeOf (upper lower ng : ℚ) : DecisionTree ℚ :=
  ⟨.branch "score" [(">0.8", leafOf "NG" upper)] (some (leafOf "OK" lower)), ⟨ng, 3 / 10⟩⟩

def decimals : List (String × ℚ) :=
  [("0.3", 3 / 10), ("0.5", 1 / 2), ("0.7", 7 / 10), ("0.9", 9 / 10), ("1.0", 1)]

def decimalConversions : NodeConversions ℚ :=
  ⟨Yaml.isScalar, fun node => node.isScalar.bind fun text => List.lookup text decimals⟩

def decimalText (q : ℚ) : String := ((decimals.find? fun d => d.2 = q).map Prod.fst).getD "0"

theorem load_treeEntries : loadFromYAML decimalConversions "tree.yaml" (.ok (.map treeEntries)) =
    some (.ok (treeOf (3 / 10) (1 / 2) (7 / 10))) := by
  have hupper : parseNode decimalConversions (formulaDocument "NG" "0.3") =
      some (.ok (leafOf "NG" (3 / 10))) := by
    rw [formulaDocument, parseNode_of_isLeaf rfl]
    rfl
  have hlower : parseNode decimalConversions (formulaDocument "OK" "0.5") =
      some (.ok (leafOf "OK" (1 / 2))) := by
    rw [formulaDocument, parseNode_of_isLeaf rfl]
    rfl
  have hbranch : IsBranch decimalConversions treeEntries "score" := ⟨⟨rfl, rfl⟩, rfl, rfl⟩
  have hchildren : fields (Yaml.entry treeEntries "branches") =
      [(">0.8", formulaDocument "NG" "0.3")] := rfl
  have hdefault : Yaml.entry treeEntries "default" = formulaDocument "OK" "0.5" := rfl
  apply loadFromYAML_eq_ok.mpr
  refine ⟨?_, rfl⟩
  rw [parseNode_of_isBranch hbranch, hchildren, hdefault, List.map_singleton, hupper, hlower]
  rfl

theorem leafPaths_treeEntries :
    leafPaths decimalConversions (.map treeEntries) = [[.branch ">0.8"], [.default]] := by
  have hleaf : ∀ label threshold,
      collectLeafNodes decimalConversions (formulaDocument label threshold) = some [[]] := by
    intro label threshold
    rw [formulaDocument, collectLeafNodes_map]
    rfl
  have hchildren : fields (Yaml.entry treeEntries "branches") =
      [(">0.8", formulaDocument "NG" "0.3")] := rfl
  have hdefault : Yaml.entry treeEntries "default" = formulaDocument "OK" "0.5" := rfl
  rw [leafPaths, collectLeafNodes_map, hchildren, hdefault, List.map_singleton, hleaf, hleaf]
  rfl

theorem distinctAlong_treeEntries (path : List DocStep) :
    DistinctAlong path (.map treeEntries) := by
  have hleaf : ∀ label threshold path, DistinctAlong path (formulaDocument label threshold) := by
    intro label threshold path
    match path with
    | [] => trivial
    | .branch i :: path => exact ⟨List.nodup_nil, by intro child hchild; cases hchild⟩
    | .default :: [] => trivial
    | .default :: .branch _ :: _ => trivial
    | .default :: .default :: _ => trivial
  match path with
  | [] => trivial
  | .branch i :: path =>
    refine ⟨List.nodup_singleton _, fun child hchild => ?_⟩
    obtain rfl := List.mem_singleton.mp (List.mem_of_getElem? hchild)
    exact hleaf ..
  | .default :: path => exact hleaf ..

end Run

end SurfaceAi.Tuning
