import SurfaceAi.Knowledge.Record

/-! The knowledge store's database: its tables, and what each call does to them. The
columns that hold the time of a write are left out. SQLite may fail any statement of a
call, which then changes nothing. The schema's `REFERENCES … ON DELETE CASCADE` clauses
are in force on a connection only after `PRAGMA foreign_keys=ON`, which opening the store
does not run, so no statement checks them. -/

namespace SurfaceAi.Knowledge

structure NodeRow (Text : Type) where
  id : ℤ
  type : String
  propertiesJson : Text

structure EdgeRow (Text : Type) where
  id : ℤ
  sourceId : ℤ
  targetId : ℤ
  relationship : String
  propertiesJson : Text

inductive EvolutionOp where
  | insert
  | update
  | delete
  deriving DecidableEq, Repr

/-- A row of `evolution_log`. The text of an insertion's before image is empty. -/
structure EvolutionRow (Text : Type) where
  entryId : ℤ
  entityType : String
  entityId : ℤ
  operation : EvolutionOp
  version : ℕ
  changedBy : String
  beforeImageJson : Option Text

structure SnapshotRow where
  snapshotId : ℤ
  label : String
  savepointName : String
  nodeCount : ℕ
  edgeCount : ℕ
  deriving DecidableEq, Repr

/-- The tables, and the last id that `AUTOINCREMENT` gave out for each of them. -/
structure Tables (Text : Type) where
  nodes : List (NodeRow Text)
  edges : List (EdgeRow Text)
  evolutionLog : List (EvolutionRow Text)
  snapshots : List SnapshotRow
  lastNodeId : ℤ
  lastEdgeId : ℤ
  lastEntryId : ℤ
  lastSnapshotId : ℤ

/-- The failures of SQLite in one call: the message with which preparing a statement, its
`n`-th step, or executing a text fails, if it does. -/
structure Sqlite where
  prepareError : String → Option String
  stepError : String → ℕ → Option String
  execError : String → Option String

/-- Nothing fails. -/
def Sqlite.sound : Sqlite := ⟨fun _ => none, fun _ _ => none, fun _ => none⟩

/-- Prepare a statement and step it to its end. -/
def Sqlite.statement (sqlite : Sqlite) (sql preparing stepping : String) : Result Unit :=
  match sqlite.prepareError sql with
  | some msg => fail .knowledgeDbOpenFailed (preparing ++ msg)
  | none =>
    match sqlite.stepError sql 0 with
    | some msg => fail .knowledgeDbOpenFailed (stepping ++ msg)
    | none => .ok ()

@[simp] theorem Sqlite.statement_sound (sql preparing stepping : String) :
    Sqlite.sound.statement sql preparing stepping = .ok () := rfl

def insertNodeSql : String := "INSERT INTO nodes (type, properties_json) VALUES (?, ?)"

def updateNodeSql : String :=
  "UPDATE nodes SET properties_json = ?, updated_at = datetime('now') WHERE id = ?"

def selectNodeSql : String := "SELECT id, type, properties_json FROM nodes WHERE id = ?"

def insertEdgeSql : String :=
  "INSERT INTO edges (source_id, target_id, relationship, properties_json) VALUES (?, ?, ?, ?)"

def versionSql : String :=
  "SELECT COALESCE(MAX(version), 0) + 1 FROM evolution_log " ++
    "WHERE entity_type = ? AND entity_id = ?"

def insertEvolutionSql : String :=
  "INSERT INTO evolution_log (entity_type, entity_id, operation, version, " ++
    "changed_by, before_image_json, timestamp) " ++ "VALUES (?, ?, ?, ?, ?, ?, ?)"

namespace Tables

variable {D Text : Type} (codec : JsonCodec D Text) (sqlite : Sqlite)

/-- The tables of a new database. -/
def fresh : Tables Text := ⟨[], [], [], [], 0, 0, 0, 0⟩

/-- The node's id is in the table. -/
def HasNode (t : Tables Text) (id : ℤ) : Prop := ∃ n ∈ t.nodes, n.id = id

instance (t : Tables Text) (id : ℤ) : Decidable (t.HasNode id) :=
  inferInstanceAs (Decidable (∃ n ∈ t.nodes, n.id = id))

def addNode (type : String) (properties : KnowledgeRecord D) (t : Tables Text) : Tables Text :=
  { t with
    nodes := t.nodes ++ [⟨t.lastNodeId + 1, type, codec.encode properties⟩]
    lastNodeId := t.lastNodeId + 1 }

/-- `KnowledgeGraph::InsertNode`. -/
def insertNode (type : String) (properties : KnowledgeRecord D) (t : Tables Text) :
    Result ℤ × Tables Text :=
  match sqlite.statement insertNodeSql "prepare insert node: " "insert node: " with
  | .error e => (.error e, t)
  | .ok () => (.ok (t.lastNodeId + 1), addNode codec type properties t)

/-- The rows of a batch, with the ids they get; `i` rows are in already. -/
def addNodes : ℕ → List (String × KnowledgeRecord D) → Tables Text →
    Result (List ℤ × Tables Text)
  | _, [], t => .ok ([], t)
  | i, (type, properties) :: entries, t =>
    match sqlite.stepError insertNodeSql i with
    | some msg => fail .knowledgeDbOpenFailed ("batch insert row: " ++ msg)
    | none => do
      let (ids, t') ← addNodes (i + 1) entries (addNode codec type properties t)
      return ((t.lastNodeId + 1) :: ids, t')

/-- What `BEGIN` answers on a connection with a transaction open. -/
def beginError (inTransaction : Bool) (sql : String) : Option String :=
  if inTransaction then some "cannot start a transaction within a transaction"
  else sqlite.execError sql

/-- `KnowledgeGraph::InsertNodesBatch`. A failure behind the `BEGIN` is rolled back. -/
def insertNodesBatch (inTransaction : Bool) (entries : List (String × KnowledgeRecord D))
    (t : Tables Text) : Result (List ℤ) × Tables Text :=
  if entries.isEmpty then (.ok [], t)
  else
    match beginError sqlite inTransaction "BEGIN IMMEDIATE" with
    | some msg => (fail .knowledgeDbOpenFailed ("BEGIN IMMEDIATE failed: " ++ msg), t)
    | none =>
      match sqlite.prepareError insertNodeSql with
      | some msg => (fail .knowledgeDbOpenFailed ("prepare batch insert: " ++ msg), t)
      | none =>
        match addNodes codec sqlite 0 entries t with
        | .error e => (.error e, t)
        | .ok (ids, t') =>
          match sqlite.execError "COMMIT" with
          | some msg => (fail .knowledgeDbOpenFailed ("COMMIT failed: " ++ msg), t)
          | none => (.ok ids, t')

def nodeNotFound {α : Type} (id : ℤ) : Result α :=
  fail .knowledgeNodeNotFound ("node " ++ toString id ++ " not found")

def setProperties (id : ℤ) (properties : KnowledgeRecord D) (t : Tables Text) : Tables Text :=
  { t with
    nodes := t.nodes.map fun n =>
      if n.id = id then { n with propertiesJson := codec.encode properties } else n }

/-- `KnowledgeGraph::UpdateNode`: an update that changes no row is an error. -/
def updateNode (id : ℤ) (properties : KnowledgeRecord D) (t : Tables Text) :
    Result Unit × Tables Text :=
  match sqlite.statement updateNodeSql "" "" with
  | .error e => (.error e, t)
  | .ok () =>
    if t.HasNode id then (.ok (), setProperties codec id properties t) else (nodeNotFound id, t)

def NodeRow.decode (n : NodeRow Text) : KnowledgeNode D :=
  ⟨n.id, n.type, codec.decode n.propertiesJson⟩

/-- `KnowledgeGraph::GetNode`. -/
def getNode (id : ℤ) (t : Tables Text) : Result (KnowledgeNode D) :=
  match sqlite.prepareError selectNodeSql with
  | some msg => fail .knowledgeDbOpenFailed msg
  | none =>
    match sqlite.stepError selectNodeSql 0 with
    | some _ => nodeNotFound id
    | none =>
      match t.nodes.find? fun n => n.id = id with
      | some n => .ok (NodeRow.decode codec n)
      | none => nodeNotFound id

/-- `KnowledgeGraph::SetNodeField`. -/
def setNodeField (id : ℤ) (key : String) (value : FieldValue D) (t : Tables Text) :
    Result Unit × Tables Text :=
  match getNode codec sqlite id t with
  | .error e => (.error e, t)
  | .ok node => updateNode codec sqlite id (node.properties.setField key value) t

def removeNode (id : ℤ) (t : Tables Text) : Tables Text :=
  { t with nodes := t.nodes.filter fun n => n.id ≠ id }

/-- `KnowledgeGraph::DeleteNode`: deleting no row is no error. -/
def deleteNode (id : ℤ) (t : Tables Text) : Result Unit × Tables Text :=
  match sqlite.statement "DELETE FROM nodes WHERE id = ?" "prepare delete node: "
      "delete node: " with
  | .error e => (.error e, t)
  | .ok () => (.ok (), removeNode id t)

def addEdge (source target : ℤ) (relationship : String) (properties : KnowledgeRecord D)
    (t : Tables Text) : Tables Text :=
  { t with
    edges := t.edges ++
      [⟨t.lastEdgeId + 1, source, target, relationship, codec.encode properties⟩]
    lastEdgeId := t.lastEdgeId + 1 }

/-- `KnowledgeGraph::InsertEdge`. -/
def insertEdge (source target : ℤ) (relationship : String) (properties : KnowledgeRecord D)
    (t : Tables Text) : Result ℤ × Tables Text :=
  if relationship.isEmpty then
    (fail .knowledgeInvalidRelationship "relationship cannot be empty", t)
  else
    match sqlite.statement insertEdgeSql "prepare insert edge: " "insert edge: " with
    | .error e => (.error e, t)
    | .ok () =>
      (.ok (t.lastEdgeId + 1), addEdge codec source target relationship properties t)

def removeEdge (id : ℤ) (t : Tables Text) : Tables Text :=
  { t with edges := t.edges.filter fun e => e.id ≠ id }

/-- `KnowledgeGraph::DeleteEdge`. -/
def deleteEdge (id : ℤ) (t : Tables Text) : Result Unit × Tables Text :=
  match sqlite.statement "DELETE FROM edges WHERE id = ?" "prepare delete edge: "
      "delete edge: " with
  | .error e => (.error e, t)
  | .ok () => (.ok (), removeEdge id t)

/-- The entries about one entity, in the order they were appended. -/
def history (entityType : String) (entityId : ℤ) (t : Tables Text) :
    List (EvolutionRow Text) :=
  t.evolutionLog.filter fun e => e.entityType = entityType ∧ e.entityId = entityId

/-- `SELECT COALESCE(MAX(version), 0) + 1`; without a row the version is 1. -/
def nextVersion (entityType : String) (entityId : ℤ) (t : Tables Text) : ℕ :=
  match sqlite.stepError versionSql 0 with
  | some _ => 1
  | none => ((history entityType entityId t).map EvolutionRow.version).foldr max 0 + 1

/-- `KnowledgeEvolution::Append`. -/
def append (entityType : String) (entityId : ℤ) (op : EvolutionOp)
    (beforeImage : KnowledgeRecord D) (changedBy : String) (t : Tables Text) :
    Result Unit × Tables Text :=
  match sqlite.prepareError versionSql with
  | some msg => (fail .knowledgeDbOpenFailed ("prepare version query: " ++ msg), t)
  | none =>
    match sqlite.statement insertEvolutionSql "prepare insert evolution: "
        "insert evolution: " with
    | .error e => (.error e, t)
    | .ok () =>
      (.ok (), { t with
        evolutionLog := t.evolutionLog ++
          [⟨t.lastEntryId + 1, entityType, entityId, op,
            nextVersion sqlite entityType entityId t, changedBy,
            if op = .insert then none else some (codec.encode beforeImage)⟩]
        lastEntryId := t.lastEntryId + 1 })

end Tables

end SurfaceAi.Knowledge
