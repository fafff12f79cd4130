import SurfaceAi.Knowledge.StoreCalls
import SurfaceAi.Library.Savepoint

/-! Snapshots as savepoints of one open transaction. A snapshot's row is in the same
database as the content it is to bring back: it is inserted without a savepoint name, then
the savepoint is opened, and only then is the name written to the row. -/

namespace SurfaceAi.Knowledge

open Savepoint Tables

/-- The connection: the tables with the transaction's savepoints. -/
abbrev Database (Text : Type) := Session String (Tables Text)

def savepointName (id : ℤ) : String := "sp_" ++ toString id

namespace Snapshot

variable {Text : Type} (sqlite : Sqlite)

def insertSql : String := "INSERT INTO snapshots (label, savepoint_name) VALUES (?, '')"

def updateSql : String :=
  "UPDATE snapshots SET savepoint_name = ?, node_count = ?, edge_count = ? " ++
    "WHERE snapshot_id = ?"

def selectSql : String := "SELECT savepoint_name FROM snapshots WHERE snapshot_id = ?"

def deleteSql : String := "DELETE FROM snapshots WHERE snapshot_id = ?"

def notUnique : String := "UNIQUE constraint failed: snapshots.savepoint_name"

def addRow (label : String) (t : Tables Text) : Tables Text :=
  { t with
    snapshots := t.snapshots ++ [⟨t.lastSnapshotId + 1, label, "", 0, 0⟩]
    lastSnapshotId := t.lastSnapshotId + 1 }

/-- The metadata row of a new snapshot; two rows without a name are not unique. -/
def insertRow (label : String) (t : Tables Text) : Result (ℤ × Tables Text) :=
  match sqlite.statement insertSql "prepare insert snapshot: " "insert snapshot: " with
  | .error e => .error e
  | .ok () =>
    if ∃ row ∈ t.snapshots, row.savepointName = "" then
      fail .knowledgeDbOpenFailed ("insert snapshot: " ++ notUnique)
    else .ok (t.lastSnapshotId + 1, addRow label t)

/-- `SELECT COUNT(*)`; without a row the count is 0. -/
def count (sql counting : String) (n : ℕ) : Result ℕ :=
  match sqlite.prepareError sql with
  | some msg => fail .knowledgeDbOpenFailed (counting ++ msg)
  | none =>
    match sqlite.stepError sql 0 with
    | some _ => .ok 0
    | none => .ok n

def setRow (id : ℤ) (name : String) (nodeCount edgeCount : ℕ) (t : Tables Text) :
    Tables Text :=
  { t with
    snapshots := t.snapshots.map fun row =>
      if row.snapshotId = id then
        { row with savepointName := name, nodeCount := nodeCount, edgeCount := edgeCount }
      else row }

/-- The name and the counts of a snapshot. -/
def updateRow (id : ℤ) (name : String) (nodeCount edgeCount : ℕ) (t : Tables Text) :
    Result (Tables Text) :=
  match sqlite.statement updateSql "update snapshot: " "update snapshot: " with
  | .error e => .error e
  | .ok () =>
    if ∃ row ∈ t.snapshots, row.snapshotId ≠ id ∧ row.savepointName = name then
      fail .knowledgeDbOpenFailed ("update snapshot: " ++ notUnique)
    else .ok (setRow id name nodeCount edgeCount t)

/-- The counts of the rows now, and the row that gets them. -/
def describe (id : ℤ) (t : Tables Text) : Result (Tables Text) := do
  let nodeCount ← count sqlite "SELECT COUNT(*) FROM nodes" "count nodes: " t.nodes.length
  let edgeCount ← count sqlite "SELECT COUNT(*) FROM edges" "count edges: " t.edges.length
  updateRow sqlite id (savepointName id) nodeCount edgeCount t

/-- `KnowledgeSnapshot::Create`. That a transaction is open already is ignored. -/
def create (label : String) (db : Database Text) : Result ℤ × Database Text :=
  let db :=
    match sqlite.execError "BEGIN TRANSACTION" with
    | some _ => db
    | none => db.begin.getD db
  match insertRow sqlite label db.content with
  | .error e => (.error e, db)
  | .ok (id, t) =>
    let db := db.set t
    match sqlite.execError ("SAVEPOINT " ++ savepointName id) with
    | some msg => (fail .knowledgeDbOpenFailed msg, db)
    | none =>
      let db := db.savepoint (savepointName id)
      match describe sqlite id t with
      | .error e => (.error e, db)
      | .ok t => (.ok id, db.set t)

/-- A statement about a savepoint, given by what it does where there is one. -/
def execSavepoint (verb name : String) (effect : Option (Database Text)) :
    Result (Database Text) :=
  match sqlite.execError (verb ++ name) with
  | some msg => fail .knowledgeSnapshotRestoreFailed msg
  | none =>
    if name = "" then fail .knowledgeSnapshotRestoreFailed "incomplete input"
    else
      match effect with
      | some db => .ok db
      | none => fail .knowledgeSnapshotRestoreFailed ("no such savepoint: " ++ name)

/-- The savepoint name in a snapshot's row. -/
def lookup (looking : String) (id : ℤ) (t : Tables Text) : Result String :=
  match sqlite.prepareError selectSql with
  | some msg => fail .knowledgeDbOpenFailed (looking ++ msg)
  | none =>
    match sqlite.stepError selectSql 0 with
    | some _ =>
      fail .knowledgeSnapshotNotFound ("snapshot " ++ toString id ++ " not found")
    | none =>
      match t.snapshots.find? fun row => row.snapshotId = id with
      | some row => .ok row.savepointName
      | none =>
        fail .knowledgeSnapshotNotFound ("snapshot " ++ toString id ++ " not found")

/-- `KnowledgeSnapshot::Restore`. -/
def restore (id : ℤ) (db : Database Text) : Result Unit × Database Text :=
  match lookup sqlite "restore snapshot: " id db.content with
  | .error e => (.error e, db)
  | .ok name =>
    match execSavepoint sqlite "ROLLBACK TO SAVEPOINT " name (db.rollbackTo name) with
    | .error e => (.error e, db)
    | .ok db => (.ok (), db)

def removeRow (id : ℤ) (t : Tables Text) : Tables Text :=
  { t with snapshots := t.snapshots.filter fun row => row.snapshotId ≠ id }

/-- `KnowledgeSnapshot::Delete`. -/
def delete (id : ℤ) (db : Database Text) : Result Unit × Database Text :=
  match lookup sqlite "delete snapshot lookup: " id db.content with
  | .error e => (.error e, db)
  | .ok name =>
    match execSavepoint sqlite "RELEASE SAVEPOINT " name (db.release name) with
    | .error e => (.error e, db)
    | .ok db =>
      match sqlite.statement deleteSql "delete snapshot row: " "delete snapshot row: " with
      | .error e => (.error e, db)
      | .ok () => (.ok (), db.set (removeRow id db.content))

section Sound

variable {db : Database Text} {id : ℤ}

/-- The tables once the row of a snapshot has its name. -/
def named (label : String) (t : Tables Text) : Tables Text :=
  setRow (t.lastSnapshotId + 1) (savepointName (t.lastSnapshotId + 1)) t.nodes.length
    t.edges.length (addRow label t)

theorem getD_begin (db : Database Text) :
    (db.begin.getD db).content = db.content ∧
      (db.begin.getD db).savepoints = db.savepoints := by
  cases hb : db.begin with
  | none => exact ⟨rfl, rfl⟩
  | some db' => exact Session.begin_content hb

/-- Where nothing fails a row without a name is what stands in a new snapshot's way. -/
theorem create_unnamed (label : String)
    (h : ∃ row ∈ db.content.snapshots, row.savepointName = "") :
    hasValue (create .sound label db).1 = false := by
  obtain ⟨hcontent, -⟩ := getD_begin db
  have hb : Sqlite.sound.execError "BEGIN TRANSACTION" = none := rfl
  simp only [create, hb, insertRow, Sqlite.statement_sound, hcontent, if_pos h]
  rfl

theorem create_sound (label : String)
    (h : ∀ row ∈ db.content.snapshots, row.savepointName ≠ "")
    (hnew : ∀ row ∈ db.content.snapshots,
      row.savepointName ≠ savepointName (db.content.lastSnapshotId + 1)) :
    create .sound label db =
      (.ok (db.content.lastSnapshotId + 1),
        { content := named label db.content
          begun := (db.begin.getD db).begun
          savepoints := (savepointName (db.content.lastSnapshotId + 1),
            addRow label db.content) :: db.savepoints }) := by
  obtain ⟨hcontent, hstack⟩ := getD_begin db
  have hb : ∀ sql, Sqlite.sound.execError sql = none := fun _ => rfl
  have hunnamed : ¬∃ row ∈ db.content.snapshots, row.savepointName = "" :=
    fun ⟨row, hrow, hname⟩ => h row hrow hname
  have htaken : ¬∃ row ∈ (addRow label db.content).snapshots,
      row.snapshotId ≠ db.content.lastSnapshotId + 1 ∧
        row.savepointName = savepointName (db.content.lastSnapshotId + 1) := by
    rintro ⟨row, hrow, hne, hname⟩
    rcases List.mem_append.mp hrow with hrow | hrow
    · exact hnew row hrow hname
    · obtain rfl := List.mem_singleton.mp hrow
      exact hne rfl
  have hdescribe : describe .sound (db.content.lastSnapshotId + 1)
      (addRow label db.content) = .ok (named label db.content) := by
    show updateRow .sound _ _ _ _ _ = _
    simp only [updateRow, Sqlite.statement_sound, if_neg htaken]
    rfl
  simp only [create, hb, insertRow, Sqlite.statement_sound, hcontent, if_neg hunnamed, hdescribe]
  simp only [Session.set, Session.savepoint, hstack]

theorem lookup_sound (looking : String) (t : Tables Text) :
    lookup .sound looking id t =
      match t.snapshots.find? fun row => row.snapshotId = id with
      | some row => .ok row.savepointName
      | none =>
        fail .knowledgeSnapshotNotFound ("snapshot " ++ toString id ++ " not found") := rfl

theorem execSavepoint_sound {verb name : String} (hname : name ≠ "") (db' : Database Text) :
    execSavepoint .sound verb name (some db') = .ok db' := by
  have hb : Sqlite.sound.execError (verb ++ name) = none := rfl
  simp only [execSavepoint, hb, if_neg hname]

variable {row : SnapshotRow}

theorem restore_missing
    (h : (db.content.snapshots.find? fun row => row.snapshotId = id) = none) :
    (restore .sound id db).2 = db := by
  simp only [restore, lookup_sound, h, fail]

theorem restore_sound {db' : Database Text} {name : String}
    (h : (db.content.snapshots.find? fun row => row.snapshotId = id) = some row)
    (hrow : row.savepointName = name) (hname : name ≠ "") (hroll : db.rollbackTo name = some db') :
    restore .sound id db = (.ok (), db') := by
  simp only [restore, lookup_sound, h, hrow, hroll, execSavepoint_sound hname]

/-- A snapshot whose row has no name cannot be restored. -/
theorem restore_unnamed (db : Database Text)
    (h : (db.content.snapshots.find? fun row => row.snapshotId = id) = some row)
    (hname : row.savepointName = "") : (restore .sound id db).1 ≠ .ok () := by
  simp only [restore, lookup_sound, h, hname]
  intro hok
  cases hok

/-- A snapshot whose savepoint is gone cannot be restored. -/
theorem restore_gone {name : String}
    (h : (db.content.snapshots.find? fun row => row.snapshotId = id) = some row)
    (hrow : row.savepointName = name) (hroll : db.rollbackTo name = none) :
    (restore .sound id db).1 ≠ .ok () := by
  have hb : ∀ sql, Sqlite.sound.execError sql = none := fun _ => rfl
  simp only [restore, lookup_sound, h, hrow, hroll, execSavepoint, hb]
  split_ifs
  · intro hok
    cases hok
  · intro hok
    cases hok

theorem delete_missing
    (h : (db.content.snapshots.find? fun row => row.snapshotId = id) = none) :
    hasValue (delete .sound id db).1 = false ∧ (delete .sound id db).2 = db := by
  simp only [delete, lookup_sound, h, fail, hasValue_error, and_self]

theorem delete_sound {db' : Database Text} {name : String}
    (h : (db.content.snapshots.find? fun row => row.snapshotId = id) = some row)
    (hrow : row.savepointName = name) (hname : name ≠ "")
    (hrelease : db.release name = some db') :
    delete .sound id db = (.ok (), db'.set (removeRow id db'.content)) := by
  simp only [delete, lookup_sound, h, hrow, hrelease, execSavepoint_sound hname,
    Sqlite.statement_sound]

end Sound

end Snapshot

end SurfaceAi.Knowledge
