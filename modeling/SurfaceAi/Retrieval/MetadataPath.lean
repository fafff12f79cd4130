import SurfaceAi.Core.Error
import Mathlib.Algebra.Notation.Defs
import Mathlib.Data.Int.Notation

/-! The metadata search: one prepared statement over the nodes of the database. What SQLite answers to
the text of the statement and the values bound to it is a parameter. -/

namespace SurfaceAi.Retrieval

inductive FilterOp where
  | equal | notEqual | lessThan | greaterThan | lessOrEqual | greaterOrEqual | like | isIn

/-- The value of a condition, and what is bound to a placeholder but for a list. -/
inductive FilterValue (F : Type) where
  | int (v : ℤ)
  | double (v : F)
  | string (v : String)
  | ints (vs : List ℤ)

structure FilterCondition (F : Type) where
  field : String
  op : FilterOp
  value : FilterValue F

/-- `MetadataPath::Config`. -/
structure MetadataConfig (F : Type) where
  filters : List (FilterCondition F)
  nodeTypes : List String
  maxResults : ℕ

structure MetadataResult (F : Type) where
  nodeId : ℤ
  score : F

def FilterOp.toSql : FilterOp → String
  | .equal => "="
  | .notEqual => "!="
  | .lessThan => "<"
  | .greaterThan => ">"
  | .lessOrEqual => "<="
  | .greaterOrEqual => ">="
  | .like => "LIKE"
  | .isIn => "IN"

/-- The match of `^[a-zA-Z_][a-zA-Z0-9_]*$`. -/
def isFieldName (field : String) : Bool :=
  match field.toList with
  | [] => false
  | c :: cs => (c.isAlpha || c == '_') && cs.all fun c => c.isAlphanum || c == '_'

/-- `count` placeholders from `start` on, between commas. -/
def placeholders (start count : ℕ) : String :=
  ", ".intercalate ((List.range' start count).map fun i => "?" ++ toString i)

/-- The values of a condition in the order of its placeholders. -/
def FilterValue.bindings {F : Type} : FilterValue F → List (FilterValue F)
  | .ints vs => vs.map .int
  | v => [v]

/-- `AppendFilterPlaceholder`, for the next free placeholder. -/
def FilterCondition.toSql {F : Type} (filter : FilterCondition F) (start : ℕ) : String :=
  " AND json_extract(properties_json, '$." ++ filter.field ++ "') " ++ filter.op.toSql ++ " " ++
    match filter.value with
    | .ints vs => "(" ++ placeholders start vs.length ++ ")"
    | _ => placeholders start 1

/-- The conditions of all filters and the next free placeholder after them. -/
def filtersToSql {F : Type} : List (FilterCondition F) → ℕ → String × ℕ
  | [], next => ("", next)
  | filter :: filters, next =>
    let rest := filtersToSql filters (next + filter.value.bindings.length)
    (filter.toSql next ++ rest.1, rest.2)

variable {F : Type} (cfg : MetadataConfig F)

def MetadataConfig.sql : String :=
  let types :=
    if cfg.nodeTypes = [] then "" else " AND type IN (" ++ placeholders 1 cfg.nodeTypes.length ++ ")"
  let filters := filtersToSql cfg.filters (1 + cfg.nodeTypes.length)
  "SELECT id FROM nodes WHERE 1=1" ++ types ++ filters.1 ++ " LIMIT ?" ++ toString filters.2

def MetadataConfig.bindings : List (FilterValue F) :=
  cfg.nodeTypes.map .string ++ cfg.filters.flatMap (fun filter => filter.value.bindings) ++
    [.int cfg.maxResults]

omit cfg in
theorem next_filtersToSql (filters : List (FilterCondition F)) (next : ℕ) :
    (filtersToSql filters next).2 =
      next + (filters.flatMap fun filter => filter.value.bindings).length := by
  induction filters generalizing next with
  | nil => rfl
  | cons filter filters ih =>
    rw [filtersToSql, ih, List.flatMap_cons, List.length_append, Nat.add_assoc]

/-- The last placeholder is the one of the last value. -/
theorem MetadataConfig.length_bindings :
    cfg.bindings.length = (filtersToSql cfg.filters (1 + cfg.nodeTypes.length)).2 := by
  rw [next_filtersToSql, bindings, List.length_append, List.length_append, List.length_map,
    List.length_singleton]
  omega

/-- What SQLite makes of a statement: the ids of the rows, or the text of its error. -/
abbrev Sqlite (F : Type) := String → List (FilterValue F) → Except String (List ℤ)

/-- `MetadataPath`, a search in its database. -/
structure MetadataPath (F : Type) where
  db : Sqlite F

def checkField (filter : FilterCondition F) : Result Unit :=
  failIf (!isFieldName filter.field) .infraConfigValidationFailed ("Invalid field name in filter: '" ++
    filter.field ++ "' does not match [a-zA-Z_][a-zA-Z0-9_]*")

/-- `MetadataPath::Search`: every row gets the full score. -/
def MetadataPath.search [One F] (path : MetadataPath F) : Result (List (MetadataResult F)) := do
  checkAll checkField cfg.filters
  match path.db cfg.sql cfg.bindings with
  | .error text => fail .infraConfigValidationFailed text
  | .ok ids => return ids.map fun id => ⟨id, 1⟩

end SurfaceAi.Retrieval
