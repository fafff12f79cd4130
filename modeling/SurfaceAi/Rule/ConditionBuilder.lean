import SurfaceAi.Rule.Expression

/-! The condition builder: from a YAML condition node to an expression tree with
its source texts. The scalar conversions of the YAML library are parameters; a
conversion that throws is `none`, and the builder then falls back to the text. -/

namespace SurfaceAi.Rules

/-- A YAML node. `missing` is the undefined node a lookup of an absent key gives. -/
inductive Yaml where
  | missing
  | null
  | scalar (text : String)
  | sequence (nodes : List Yaml)
  | map (entries : List (String × Yaml))

namespace Yaml

def isDefined : Yaml → Bool
  | .missing => false
  | _ => true

def isScalar : Yaml → Option String
  | .scalar text => some text
  | _ => none

def entry : List (String × Yaml) → String → Yaml
  | [], _ => .missing
  | (k, v) :: rest, key => if k = key then v else entry rest key

/-- The members of a sequence; any other node has none. -/
def items : Yaml → List Yaml
  | .sequence nodes => nodes
  | _ => []

theorem sizeOf_item_lt {node item : Yaml} (h : item ∈ node.items) : sizeOf item < sizeOf node := by
  cases node with
  | sequence nodes =>
    have : sizeOf item < sizeOf nodes := List.sizeOf_lt_of_mem h
    rw [sequence.sizeOf_spec]
    omega
  | _ => simp [items] at h

theorem sizeOf_entry_lt (entries : List (String × Yaml)) (key : String) :
    sizeOf (entry entries key) < 1 + sizeOf entries := by
  induction entries with
  | nil => simp [entry]
  | cons head rest ih =>
    obtain ⟨k, v⟩ := head
    by_cases h : k = key
    · simp only [entry, if_pos h, List.cons.sizeOf_spec, Prod.mk.sizeOf_spec]
      omega
    · simp only [entry, if_neg h, List.cons.sizeOf_spec]
      omega

end Yaml

/-- `as<double>` and `as<std::int64_t>` of a scalar's text. -/
structure YamlConversions (D : Type) where
  asDouble : String → Option D
  asInt64 : String → Option ℤ

def parseBinaryOp (opStr : String) : Option BinaryOp :=
  if opStr = "and" then some .and
  else if opStr = "or" then some .or
  else if opStr = "add" then some .add
  else if opStr = "sub" then some .sub
  else if opStr = "mul" then some .mul
  else if opStr = "div" then some .div
  else if opStr = "eq" then some .eq
  else if opStr = "neq" then some .neq
  else if opStr = "lt" then some .lt
  else if opStr = "le" then some .le
  else if opStr = "gt" then some .gt
  else if opStr = "ge" then some .ge
  else if opStr = "in" then some .isIn
  else none

section Build

variable {D : Type} [Doubles D] (conv : YamlConversions D)

/-- The value of a scalar's text: a boolean, a number with a dot, an integer, else the text. -/
def literalValue (text : String) : Value D :=
  if text = "true" ∨ text = "false" then .ofBool (text = "true")
  else if '.' ∈ text.toList then
    ((conv.asDouble text).map Value.ofDouble).getD (.ofString text)
  else if text.toList.all fun c => c.isDigit || c == '-' then
    ((conv.asInt64 text).map Value.ofInt64).getD (.ofString text)
  else .ofString text

def buildLiteral (node : Yaml) : Result (Expr D) :=
  match node.isScalar with
  | some text => .ok (.literal (literalValue conv text))
  | none => fail .ruleParseError "literal value must be a scalar"

/-- The left-hand side of a comparison and its text: `field` first, then `path`. -/
def buildLhs (entries : List (String × Yaml)) (sourceHint : String) : Result (String × Expr D) :=
  match (Yaml.entry entries "field").isScalar with
  | some text => .ok (text, .fieldRef text)
  | none =>
    match (Yaml.entry entries "path").isScalar with
    | some text => .ok (text, .path text)
    | none => fail .ruleParseError (sourceHint ++ ": must have 'field' or 'path' key")

/-- The comparison once the left-hand side is known; its text is `field op value`. -/
def buildOperation (entries : List (String × Yaml)) (sourceHint lhsSource : String)
    (lhs : Expr D) : Result (Expr D) :=
  match (Yaml.entry entries "op").isScalar with
  | none => fail .ruleParseError (sourceHint ++ ": 'op' must be a string")
  | some opStr =>
    match parseBinaryOp opStr with
    | none => fail .ruleParseError (sourceHint ++ ": unknown operator '" ++ opStr ++ "'")
    | some op => do
      let value ← buildLiteral conv (Yaml.entry entries "value")
      return .binary op lhs value
        (lhsSource ++ " " ++ opStr ++ " " ++ (value.sourceText.getD ""))

def buildComparison (entries : List (String × Yaml)) (sourceHint : String) : Result (Expr D) := do
  let (lhsSource, lhs) ← buildLhs entries sourceHint
  if !(Yaml.entry entries "op").isDefined && !(Yaml.entry entries "value").isDefined then
    return lhs
  else buildOperation conv entries sourceHint lhsSource lhs

/-- Join a built junction with its next member. Both texts are read first, which is
undefined when either pointer is null. -/
def joinTexts (op : BinaryOp) (word : String) (left right : Expr D) : Outcome (Expr D) :=
  match left.sourceText, right.sourceText with
  | some l, some r => some (.ok (.binary op left right ("(" ++ l ++ " " ++ word ++ " " ++ r ++ ")")))
  | _, _ => none

/-- Fold the rest of a junction's members, built one after the other, into `left`. -/
def joinRest (op : BinaryOp) (word : String) : Expr D → List (Outcome (Expr D)) → Outcome (Expr D)
  | left, [] => some (.ok left)
  | left, some (.ok right) :: rest =>
    match joinTexts op word left right with
    | some (.ok joined) => joinRest op word joined rest
    | r => r
  | _, r :: _ => r

def buildJunction (op : BinaryOp) (word : String) : List (Outcome (Expr D)) → Outcome (Expr D)
  | some (.ok left) :: rest => joinRest op word left rest
  | r :: _ => r
  | [] => some (fail .ruleParseError ("'" ++ word ++ "' must be a non-empty sequence"))

/-- The operand may be the null pointer: `{not: ~}` builds a negation of nothing. -/
def buildNot : Outcome (Expr D) → Outcome (Expr D)
  | some (.ok operand) => some (.ok (.unary .not operand "not"))
  | r => r

/-- `BuildExpressionFromYAML`. An absent or null node builds the null pointer; a junction
over anything but a sequence fails like one over an empty sequence. -/
def buildExpressionFromYAML : Yaml → Outcome (Expr D)
  | .missing => some (.ok .null)
  | .null => some (.ok .null)
  | .scalar text => some (buildLiteral conv (.scalar text))
  | .sequence _ => some (fail .ruleParseError "condition must be a map or scalar")
  | .map entries =>
    if (Yaml.entry entries "field").isDefined || (Yaml.entry entries "path").isDefined then
      some (buildComparison conv entries "condition")
    else if (Yaml.entry entries "and").isDefined then
      buildJunction .and "and" ((Yaml.entry entries "and").items.attach.map fun item =>
        buildExpressionFromYAML item.1)
    else if (Yaml.entry entries "or").isDefined then
      buildJunction .or "or" ((Yaml.entry entries "or").items.attach.map fun item =>
        buildExpressionFromYAML item.1)
    else if (Yaml.entry entries "not").isDefined then
      buildNot (buildExpressionFromYAML (Yaml.entry entries "not"))
    else if (Yaml.entry entries "value").isDefined then
      some (buildLiteral conv (Yaml.entry entries "value"))
    else
      some (fail .ruleParseError ("unrecognized condition structure — expected " ++
        "'field'+'op'+'value', 'and'/'or'/'not', 'path', or 'value'"))
termination_by node => sizeOf node
decreasing_by
  · have hentry := Yaml.sizeOf_entry_lt entries "and"
    have hitem := Yaml.sizeOf_item_lt item.2
    rw [Yaml.map.sizeOf_spec]
    omega
  · have hentry := Yaml.sizeOf_entry_lt entries "or"
    have hitem := Yaml.sizeOf_item_lt item.2
    rw [Yaml.map.sizeOf_spec]
    omega
  · have hentry := Yaml.sizeOf_entry_lt entries "not"
    rw [Yaml.map.sizeOf_spec]
    omega

end Build

end SurfaceAi.Rules
