import Std.Data.String.ToNat
import SurfaceAi.Reasoner.DecisionTree

/-! The applier of the tuning loop. It loads the document of the decision tree, writes each
parameter at the place its name gives, saves the document and has the reasoner load it again. -/

namespace SurfaceAi.Tuning

open Rules Reasoning

/-! ### Writing into a document -/

/-- A subscript that adds what is not there. -/
inductive Subscript where
  | key (name : String)
  | index (i : ℕ)

namespace Subscript

/-- The key of the entry in a map. -/
def text : Subscript → String
  | .key name => name
  | .index i => toString i

end Subscript

/-- The elements that a number can be a subscript of. -/
def asSequence : Yaml → Option (List Yaml)
  | .missing | .null => some []
  | .sequence nodes => some nodes
  | .scalar _ | .map _ => none

/-- `convert_to_map`: the elements of a sequence get their numbers as keys. -/
def asMap : Yaml → Option (List (String × Yaml))
  | .missing | .null => some []
  | .sequence nodes => some (nodes.zipIdx.map fun node => (toString node.2, node.1))
  | .map entries => some entries
  | .scalar _ => none

/-- The number as a position of a sequence, or as the one behind its last. -/
def position : Subscript → Yaml → Option (ℕ × List Yaml)
  | .index i, node =>
    (asSequence node).bind fun nodes => if i ≤ nodes.length then some (i, nodes) else none
  | .key _, _ => none

def putEntry (key : String) (value : Yaml) : List (String × Yaml) → List (String × Yaml)
  | [] => [(key, value)]
  | (k, v) :: rest => if k = key then (k, value) :: rest else (k, v) :: putEntry key value rest

/-- `node[s]…[t] = value`. A scalar throws at a subscript. -/
def assign (value : Yaml) : List Subscript → Yaml → Option Yaml
  | [], _ => some value
  | s :: rest, node =>
    match position s node with
    | some (i, nodes) => (assign value rest (nodes.getD i .missing)).map fun child =>
        .sequence (nodes.take i ++ child :: nodes.drop (i + 1))
    | none => do
      let entries ← asMap node
      let child ← assign value rest (Yaml.entry entries s.text)
      return .map (putEntry s.text child entries)

/-! ### The leaves -/

/-- A step from a node of the tree to a child, by the places in the document. -/
inductive DocStep where
  | branch (i : ℕ)
  | default

/-- The leaves of the branches from number `i` on. -/
def branchLeaves : ℕ → List (Option (List (List DocStep))) → Option (List (List DocStep))
  | _, [] => some []
  | i, found :: rest => do
    let leaves ← found
    let others ← branchLeaves (i + 1) rest
    return leaves.map (.branch i :: ·) ++ others

section Leaves

variable {D : Type} (conv : NodeConversions D)

def isLeaf (type : Yaml) : Option Bool :=
  if type.isDefined then (conv.asString type).map fun type => decide (type = "leaf")
  else some false

/-- `CollectLeafNodes`. A leaf is the path to it: the nodes share what they hold with the
document. -/
def collectLeafNodes : Yaml → Option (List (List DocStep))
  | .map entries =>
    match isLeaf conv (Yaml.entry entries "type") with
    | none => none
    | some true => some [[]]
    | some false => do
      let leaves ← branchLeaves 0 ((fields (Yaml.entry entries "branches")).attach.map fun child =>
        collectLeafNodes child.1.2)
      let others ← (if (Yaml.entry entries "default").isDefined then
        collectLeafNodes (Yaml.entry entries "default") else some [])
      return leaves ++ others.map (.default :: ·)
  | _ => some []
termination_by node => sizeOf node
decreasing_by
  · have hentry := Yaml.sizeOf_entry_lt entries "branches"
    have hchild := sizeOf_field_lt child.2
    rw [Yaml.map.sizeOf_spec]
    omega
  · have hentry := Yaml.sizeOf_entry_lt entries "default"
    rw [Yaml.map.sizeOf_spec]
    omega

end Leaves

/-- The document once the node at a path is written to. -/
def modifyAt (write : Yaml → Option Yaml) : List DocStep → Yaml → Option Yaml
  | [], node => write node
  | .branch i :: path, .map entries =>
    match (fields (Yaml.entry entries "branches"))[i]? with
    | some (key, node) => (modifyAt write path node).map fun child =>
        .map (putEntry "branches"
          (.map ((fields (Yaml.entry entries "branches")).set i (key, child))) entries)
    | none => none
  | .default :: path, .map entries =>
    (modifyAt write path (Yaml.entry entries "default")).map fun child =>
      .map (putEntry "default" child entries)
  | _ :: _, _ => none

/-! ### Names of parameters -/

/-- What `std::getline` reads up to each dot. -/
def segments (paramName : String) : List String :=
  let parts := (paramName.toList.splitOn '.').map String.ofList
  if parts.getLast? = some "" then parts.dropLast else parts

/-- What follows a given start. -/
def after (start segment : String) : Option (List Char) :=
  if start.toList.isPrefixOf segment.toList then some (segment.toList.drop start.length) else none

/-- The digits of a number, after a sign. -/
def stoulDigits (negative : Bool) (text : List Char) : Option ℕ :=
  let digits := text.takeWhile Char.isDigit
  let n := Nat.ofDigitChars 10 digits 0
  if digits = [] ∨ 18446744073709551615 < n then none
  else some (if negative then (18446744073709551616 - n) % 18446744073709551616 else n)

/-- `std::stoul`, up to the first character that is no digit; a minus sign negates modulo 2⁶⁴. -/
def stoul (text : List Char) : Option ℕ :=
  match text.dropWhile fun c => c.isWhitespace || c.toNat == 11 || c.toNat == 12 with
  | '-' :: text => stoulDigits true text
  | '+' :: text => stoulDigits false text
  | text => stoulDigits false text

/-- What a name stands for. -/
inductive Target where
  | nowhere
  | mapping (key : String)
  | threshold (leaf formula : ℕ)
  | weight (leaf formula weight : ℕ)
  deriving DecidableEq, Repr

/-- The place in the leaf, unless a number throws. -/
def leafTarget (leaf : List Char) (formula field : String) (more : List String) :
    Option Target := do
  let li ← stoul leaf
  match after "formula_" formula with
  | none => return .nowhere
  | some number => do
    let fi ← stoul number
    if field = "threshold" then return .threshold li fi
    else if more.length = 1 then
      match after "weight_" field with
      | none => return .nowhere
      | some number => return .weight li fi (← stoul number)
    else return .nowhere

def target (paramName : String) : Target :=
  match segments paramName with
  | [] => .nowhere
  | first :: rest =>
    if first = "verdict_mapping" then
      match rest with
      | [key] => .mapping key
      | _ => .nowhere
    else
      match after "leaf_" first, rest with
      | some number, formula :: field :: more =>
        (leafTarget number formula field more).getD .nowhere
      | _, _ => .nowhere

namespace Target

/-- What is written in a leaf: nothing changes where it throws. -/
def writeLeaf (leafNodes : List (List DocStep)) (li : ℕ) (subscripts : List Subscript)
    (value root : Yaml) : Yaml :=
  match leafNodes[li]? with
  | none => root
  | some leaf => (modifyAt (assign value subscripts) leaf root).getD root

def write (leafNodes : List (List DocStep)) (value : Yaml) : Target → Yaml → Option Yaml
  | .nowhere, root => some root
  | .mapping key, root => assign value [.key "verdict_mapping", .key key] root
  | .threshold li fi, root =>
    some (writeLeaf leafNodes li [.key "formulas", .index fi, .key "threshold"] value root)
  | .weight li fi wi, root =>
    some (writeLeaf leafNodes li [.key "formulas", .index fi, .key "weights", .index wi] value root)

end Target

section Apply

variable {D : Type}

/-- `ApplyParamToYaml`. -/
def applyParamToYaml (encode : D → String) (leafNodes : List (List DocStep)) (root : Yaml)
    (param : String × D) : Option Yaml :=
  (target param.1).write leafNodes (.scalar (encode param.2)) root

def applyParamsToYaml (encode : D → String) (leafNodes : List (List DocStep)) (root : Yaml)
    (params : List (String × D)) : Option Yaml :=
  params.foldlM (applyParamToYaml encode leafNodes) root

variable [Doubles D] (conv : NodeConversions D)

/-- The applier, with what the YAML library makes of the file and of the one that is written. -/
def applier (encode : D → String) (reread : Yaml → Except String Yaml) (treePath : String)
    (paramNames : List String) (params : List D) : Except String Yaml → Outcome (DecisionTree D)
  | .error what => some (fail .pipelineInvalidConfig
      ("Tuning: failed to load decision tree YAML for parameter update: " ++ what))
  | .ok root =>
    (collectLeafNodes conv root).bind fun leafNodes =>
      (applyParamsToYaml encode leafNodes root (paramNames.zip params)).bind fun written =>
        loadFromYAML conv treePath (reread written)

end Apply

/-- A name in three parts stands for a threshold or for nothing: that of a weight needs a fourth
part. -/
theorem target_of_three {paramName leaf formula field : String}
    (h : segments paramName = [leaf, formula, field]) (hfield : field ≠ "threshold") :
    target paramName = .nowhere := by
  have hleaf : ∀ number, (leafTarget number formula field []).getD .nowhere = .nowhere := by
    intro number
    rw [leafTarget]
    cases stoul number with
    | none => rfl
    | some li =>
      cases after "formula_" formula with
      | none => rfl
      | some digits =>
        cases hdigits : stoul digits with
        | none => simp [hdigits]
        | some fi => simp [hdigits, hfield]
  rw [target, h]
  simp only
  split_ifs
  · rfl
  · cases after "leaf_" leaf with
    | none => rfl
    | some number => exact hleaf number

/-! ### Entries -/

section Entries

variable {entries : List (String × Yaml)} {key key' : String} {value node : Yaml}

@[simp] theorem entry_putEntry_self : Yaml.entry (putEntry key value entries) key = value := by
  induction entries with
  | nil => simp [putEntry, Yaml.entry]
  | cons head rest ih =>
    obtain ⟨k, v⟩ := head
    by_cases hk : k = key
    · simp [putEntry, Yaml.entry, hk]
    · simp [putEntry, Yaml.entry, hk, ih]

theorem entry_putEntry_ne (h : key' ≠ key) :
    Yaml.entry (putEntry key value entries) key' = Yaml.entry entries key' := by
  induction entries with
  | nil => simp [putEntry, Yaml.entry, Ne.symm h]
  | cons head rest ih =>
    obtain ⟨k, v⟩ := head
    by_cases hk : k = key
    · subst hk
      simp [putEntry, Yaml.entry, Ne.symm h]
    · simp [putEntry, Yaml.entry, hk, ih]

/-- A text with a character that is no digit is not a number. -/
theorem toString_ne (h : key.toList.all Char.isDigit = false) (n : ℕ) : toString n ≠ key := by
  rintro rfl
  have hdigits : (toString n).toList = Nat.toDigits 10 n := by
    rw [Nat.toString_eq_repr, Nat.toList_repr]
  rw [hdigits, List.all_eq_false] at h
  obtain ⟨c, hc, hnot⟩ := h
  exact hnot (Nat.isDigit_of_mem_toDigits (by omega) (by omega) hc)

theorem entry_numbered (h : key.toList.all Char.isDigit = false) (nodes : List (Yaml × ℕ)) :
    Yaml.entry (nodes.map fun node => (toString node.2, node.1)) key = .missing := by
  induction nodes with
  | nil => rfl
  | cons node rest ih =>
    rw [List.map_cons, Yaml.entry, if_neg (toString_ne h node.2), ih]

@[simp] theorem member_map : member (.map entries) key = some (Yaml.entry entries key) := rfl

theorem entry_numbered_of_ne {i : ℕ} {nodes : List (Yaml × ℕ)} (h : ∀ node ∈ nodes, node.2 ≠ i) :
    Yaml.entry (nodes.map fun node => (toString node.2, node.1)) (toString i) = .missing := by
  induction nodes with
  | nil => rfl
  | cons node rest ih =>
    rw [List.forall_mem_cons] at h
    have hne : toString node.2 ≠ toString i := fun heq => h.1 (Nat.repr_injective heq)
    rw [List.map_cons, Yaml.entry, if_neg hne, ih h.2]

/-- Turning a node into a map keeps what it has under a key that is no number. -/
theorem member_asMap (hnode : node ≠ .missing) (hmap : asMap node = some entries)
    (hkey : key.toList.all Char.isDigit = false) :
    member node key = some (Yaml.entry entries key) := by
  cases node with
  | missing => exact absurd rfl hnode
  | null => cases hmap; rfl
  | scalar text => cases hmap
  | sequence nodes =>
    cases hmap
    rw [entry_numbered hkey]
    rfl
  | map _ => cases hmap; rfl

theorem exists_asMap {child : Yaml} (h : member node key = some child) :
    node ≠ .missing ∧ ∃ entries, asMap node = some entries := by
  cases node with
  | missing => cases h
  | scalar text => cases h
  | null => exact ⟨by intro; contradiction, _, rfl⟩
  | sequence nodes => exact ⟨by intro; contradiction, _, rfl⟩
  | map _ => exact ⟨by intro; contradiction, _, rfl⟩

theorem assign_key {rest : List Subscript} (hmap : asMap node = some entries) :
    assign value (.key key :: rest) node =
      (assign value rest (Yaml.entry entries key)).map fun child =>
        .map (putEntry key child entries) := by
  rw [assign, position, hmap]
  simp only [Subscript.text, Option.bind_eq_bind, Option.bind_some]
  cases assign value rest (Yaml.entry entries key) <;> rfl

theorem assign_index {rest : List Subscript} {nodes : List Yaml} {i : ℕ}
    (hi : i < nodes.length) :
    assign value (.index i :: rest) (.sequence nodes) =
      (assign value rest nodes[i]).map fun child => .sequence (nodes.set i child) := by
  have hposition : position (.index i) (.sequence nodes) = some (i, nodes) := by
    simp [position, asSequence, Nat.le_of_lt hi]
  rw [assign, hposition]
  simp only [List.getD_eq_getElem?_getD, List.getElem?_eq_getElem hi, Option.getD_some]
  congr 1
  funext child
  rw [List.set_eq_take_append_cons_drop, if_pos hi]

end Entries

end SurfaceAi.Tuning
