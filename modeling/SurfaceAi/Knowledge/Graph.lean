import SurfaceAi.Core.Error
import Mathlib.Data.List.AList
import Mathlib.Data.Int.Notation

/-! The knowledge graph as its queries see it: the rows of the node and edge tables
in the order a scan returns them. A row's JSON text is modelled by the record it
decodes to. Whether a statement can be prepared is up to the database. -/

namespace SurfaceAi.Knowledge

inductive FieldValue (D : Type) where
  | int (v : ℤ)
  | double (d : D)
  | string (s : String)
  | bytes (bs : List UInt8)

structure KnowledgeRecord (D : Type) where
  fields : AList fun _ : String => FieldValue D

structure KnowledgeNode (D : Type) where
  id : ℤ
  type : String
  properties : KnowledgeRecord D

structure KnowledgeEdge where
  id : ℤ
  sourceId : ℤ
  targetId : ℤ
  relationship : String
  deriving DecidableEq, Repr

structure GraphPath (D : Type) where
  source : ℤ
  relationship : String
  targets : List (KnowledgeNode D)

/-- The tables, and the message with which preparing a statement fails, if it does. -/
structure KnowledgeGraph (D : Type) where
  nodes : List (KnowledgeNode D)
  edges : List KnowledgeEdge
  prepareError : String → Option String

namespace KnowledgeGraph

variable {D : Type} (kg : KnowledgeGraph D)

def getNode (id : ℤ) : Result (KnowledgeNode D) :=
  match kg.prepareError "SELECT id, type, properties_json FROM nodes WHERE id = ?" with
  | some msg => fail .knowledgeDbOpenFailed msg
  | none =>
    match kg.nodes.find? fun n => n.id = id with
    | some n => .ok n
    | none => fail .knowledgeNodeNotFound ("node " ++ toString id ++ " not found")

def findNodesByType (type : String) : Result (List (KnowledgeNode D)) :=
  match kg.prepareError "SELECT id, type, properties_json FROM nodes WHERE type = ?" with
  | some msg => fail .knowledgeDbOpenFailed msg
  | none => .ok (kg.nodes.filter fun n => n.type = type)

/-- The rows of the join of the edges out of `source` with their target nodes. -/
def targetRows (source : ℤ) (relationship : String) : List (KnowledgeNode D) :=
  kg.edges.flatMap fun e =>
    if e.sourceId = source ∧ e.relationship = relationship then
      kg.nodes.filter fun n => n.id = e.targetId
    else []

/-- Recurse into the neighbours not visited yet, one after the other. -/
def traverseNeighbours (recurse : ℤ → List ℤ → Result (List (GraphPath D) × List ℤ)) :
    List ℤ → List ℤ → Result (List (GraphPath D) × List ℤ)
  | [], visited => .ok ([], visited)
  | id :: ids, visited =>
    if id ∈ visited then traverseNeighbours recurse ids visited
    else do
      let (deeper, visited) ← recurse id visited
      let (rest, visited) ← traverseNeighbours recurse ids visited
      return (deeper ++ rest, visited)

/-- `TraverseImpl`: depth first, sharing one visited set. -/
def traverseImpl (relationship : String) :
    ℕ → ℤ → List ℤ → Result (List (GraphPath D) × List ℤ)
  | 0, _, visited => .ok ([], visited)
  | depth + 1, source, visited =>
    match kg.prepareError ("SELECT e.id, n.id, n.type, n.properties_json " ++
        "FROM edges e JOIN nodes n ON e.target_id = n.id " ++
        "WHERE e.source_id = ? AND e.relationship = ?") with
    | some msg => fail .knowledgeDbOpenFailed ("prepare traverse: " ++ msg)
    | none => do
      let targets := kg.targetRows source relationship
      let paths := if targets.isEmpty then [] else [⟨source, relationship, targets⟩]
      if depth = 0 then return (paths, source :: visited)
      let (deeper, visited) ← traverseNeighbours (traverseImpl relationship depth)
        (targets.map KnowledgeNode.id) (source :: visited)
      return (paths ++ deeper, visited)

def traverse (source : ℤ) (relationship : String) (maxDepth : ℕ) :
    Result (List (GraphPath D)) :=
  (kg.traverseImpl relationship maxDepth source []).map Prod.fst

end KnowledgeGraph

end SurfaceAi.Knowledge
