import SurfaceAi.Knowledge.Store

/-! The calls on a knowledge store, each as one function of the tables. A node or edge
that the store itself writes is logged when evolution is enabled; that the log could not
be written is not reported. A call on the store's graph is the same call with evolution
disabled. -/

namespace SurfaceAi.Knowledge

inductive Call (D : Type) where
  | insertNode (type : String) (properties : KnowledgeRecord D) (changedBy : String)
  | insertNodesBatch (entries : List (String × KnowledgeRecord D))
  | updateNode (id : ℤ) (properties : KnowledgeRecord D) (changedBy : String)
  | setNodeField (id : ℤ) (key : String) (value : FieldValue D)
  | deleteNode (id : ℤ) (changedBy : String)
  | insertEdge (source target : ℤ) (relationship : String) (properties : KnowledgeRecord D)
      (changedBy : String)
  | deleteEdge (id : ℤ)

inductive Reply where
  | done
  | id (i : ℤ)
  | ids (is : List ℤ)
  deriving DecidableEq, Repr

/-- A call, whether it is logged, and what SQLite answers during it. -/
structure Request (D : Type) where
  call : Call D
  evolution : Bool
  sqlite : Sqlite

namespace Tables

variable {D Text : Type} (codec : JsonCodec D Text)

/-- Log what was written, if it was and if evolution is enabled. -/
def andLog {α : Type} (evolution : Bool) (log : α → Tables Text → Tables Text) :
    Result α × Tables Text → Result α × Tables Text
  | (.ok a, t) => (.ok a, if evolution then log a t else t)
  | (.error e, t) => (.error e, t)

/-- The properties read before a write, empty if there are none to read. -/
def beforeImage (evolution : Bool) (sqlite : Sqlite) (id : ℤ) (t : Tables Text) :
    KnowledgeRecord D :=
  if evolution then
    match getNode codec sqlite id t with
    | .ok node => node.properties
    | .error _ => ⟨∅⟩
  else ⟨∅⟩

/-- `KnowledgeStore::InsertNode`. -/
def storeInsertNode (evolution : Bool) (sqlite : Sqlite) (type : String)
    (properties : KnowledgeRecord D) (changedBy : String) (t : Tables Text) :
    Result ℤ × Tables Text :=
  andLog evolution (fun id t => (append codec sqlite "Node" id .insert ⟨∅⟩ changedBy t).2)
    (insertNode codec sqlite type properties t)

/-- `KnowledgeStore::UpdateNode`. -/
def storeUpdateNode (evolution : Bool) (sqlite : Sqlite) (id : ℤ)
    (properties : KnowledgeRecord D) (changedBy : String) (t : Tables Text) :
    Result Unit × Tables Text :=
  andLog evolution
    (fun _ t' => (append codec sqlite "Node" id .update
      (beforeImage codec evolution sqlite id t) changedBy t').2)
    (updateNode codec sqlite id properties t)

/-- `KnowledgeStore::DeleteNode`. -/
def storeDeleteNode (evolution : Bool) (sqlite : Sqlite) (id : ℤ) (changedBy : String)
    (t : Tables Text) : Result Unit × Tables Text :=
  andLog evolution
    (fun _ t' => (append codec sqlite "Node" id .delete
      (beforeImage codec evolution sqlite id t) changedBy t').2)
    (deleteNode sqlite id t)

/-- `KnowledgeStore::InsertEdge`. -/
def storeInsertEdge (evolution : Bool) (sqlite : Sqlite) (source target : ℤ)
    (relationship : String) (properties : KnowledgeRecord D) (changedBy : String)
    (t : Tables Text) : Result ℤ × Tables Text :=
  andLog evolution (fun id t => (append codec sqlite "Edge" id .insert ⟨∅⟩ changedBy t).2)
    (insertEdge codec sqlite source target relationship properties t)

def replied {α : Type} (reply : α → Reply) (r : Result α × Tables Text) :
    Result Reply × Tables Text := (r.1.map reply, r.2)

/-- Answer a request. -/
def serve (inTransaction : Bool) (req : Request D) (t : Tables Text) :
    Result Reply × Tables Text :=
  match req.call with
  | .insertNode type properties changedBy =>
    replied .id (storeInsertNode codec req.evolution req.sqlite type properties changedBy t)
  | .insertNodesBatch entries =>
    replied .ids (insertNodesBatch codec req.sqlite inTransaction entries t)
  | .updateNode id properties changedBy =>
    replied (fun _ => .done)
      (storeUpdateNode codec req.evolution req.sqlite id properties changedBy t)
  | .setNodeField id key value =>
    replied (fun _ => .done) (setNodeField codec req.sqlite id key value t)
  | .deleteNode id changedBy =>
    replied (fun _ => .done) (storeDeleteNode codec req.evolution req.sqlite id changedBy t)
  | .insertEdge source target relationship properties changedBy =>
    replied .id (storeInsertEdge codec req.evolution req.sqlite source target relationship
      properties changedBy t)
  | .deleteEdge id => replied (fun _ => .done) (deleteEdge req.sqlite id t)

/-- Everything but the evolution log agrees. -/
structure SameGraph (t t' : Tables Text) : Prop where
  nodes : t'.nodes = t.nodes
  edges : t'.edges = t.edges
  snapshots : t'.snapshots = t.snapshots
  lastNodeId : t'.lastNodeId = t.lastNodeId
  lastEdgeId : t'.lastEdgeId = t.lastEdgeId
  lastSnapshotId : t'.lastSnapshotId = t.lastSnapshotId

theorem SameGraph.refl (t : Tables Text) : SameGraph t t := ⟨rfl, rfl, rfl, rfl, rfl, rfl⟩

theorem SameGraph.hasNode {t t' : Tables Text} (h : SameGraph t t') (id : ℤ) :
    t'.HasNode id ↔ t.HasNode id := by
  rw [HasNode, h.nodes, HasNode]

theorem append_sameGraph (sqlite : Sqlite) (entityType : String) (entityId : ℤ)
    (op : EvolutionOp) (before : KnowledgeRecord D) (changedBy : String) (t : Tables Text) :
    SameGraph t (append codec sqlite entityType entityId op before changedBy t).2 := by
  unfold append
  split
  · exact .refl t
  · split
    · exact .refl t
    · exact ⟨rfl, rfl, rfl, rfl, rfl, rfl⟩

/-- What a call that succeeds does to the graph. -/
inductive Effect (t : Tables Text) : Call D → Tables Text → Prop where
  | insertNode {type : String} {properties : KnowledgeRecord D} {changedBy : String} :
      Effect t (.insertNode type properties changedBy) (addNode codec type properties t)
  | insertNodesBatch {entries : List (String × KnowledgeRecord D)} :
      Effect t (.insertNodesBatch entries)
        (entries.foldl (fun t e => addNode codec e.1 e.2 t) t)
  | updateNode {id : ℤ} {properties : KnowledgeRecord D} {changedBy : String} :
      t.HasNode id →
        Effect t (.updateNode id properties changedBy) (setProperties codec id properties t)
  | setNodeField {id : ℤ} {key : String} {value : FieldValue D} {row : NodeRow Text} :
      row ∈ t.nodes → row.id = id →
        Effect t (.setNodeField id key value)
          (setProperties codec id
            ((codec.decode row.propertiesJson).setField key value) t)
  | deleteNode {id : ℤ} {changedBy : String} :
      Effect t (.deleteNode id changedBy) (removeNode id t)
  | insertEdge {source target : ℤ} {relationship : String} {properties : KnowledgeRecord D}
      {changedBy : String} : relationship.isEmpty = false →
        Effect t (.insertEdge source target relationship properties changedBy)
          (addEdge codec source target relationship properties t)
  | deleteEdge {id : ℤ} : Effect t (.deleteEdge id) (removeEdge id t)

/-- How a call ends: it fails and leaves the tables as they were, or it succeeds and, the
log apart, has its effect. -/
inductive Ends {α : Type} (t : Tables Text) (call : Call D) : Result α × Tables Text → Prop where
  | failed (e : ErrorInfo) : Ends t call (.error e, t)
  | done {a : α} {t' t'' : Tables Text} :
      Effect codec t call t' → SameGraph t' t'' → Ends t call (.ok a, t'')

variable {codec} {t : Tables Text} {call : Call D}

theorem Ends.of_effect {α : Type} {a : α} {t' : Tables Text} (h : Effect codec t call t') :
    Ends codec t call (.ok a, t') :=
  .done h (.refl t')

theorem Ends.andLog {α : Type} {evolution : Bool} {log : α → Tables Text → Tables Text}
    (hlog : ∀ a t', SameGraph t' (log a t')) {r : Result α × Tables Text}
    (h : Ends codec t call r) : Ends codec t call (andLog evolution log r) := by
  cases h with
  | failed e => exact .failed e
  | done heffect hsame =>
    simp only [Tables.andLog]
    split
    · obtain ⟨h1, h2, h3, h4, h5, h6⟩ := hsame
      obtain ⟨k1, k2, k3, k4, k5, k6⟩ := hlog ‹_› ‹_›
      exact .done heffect ⟨k1.trans h1, k2.trans h2, k3.trans h3, k4.trans h4, k5.trans h5,
        k6.trans h6⟩
    · exact .done heffect hsame

theorem Ends.replied {α : Type} {reply : α → Reply} {r : Result α × Tables Text}
    (h : Ends codec t call r) : Ends codec t call (replied reply r) := by
  cases h with
  | failed e => exact .failed e
  | done heffect hsame => exact .done heffect hsame

theorem addNodes_eq_ok {sqlite : Sqlite} {entries : List (String × KnowledgeRecord D)} {i : ℕ}
    {t t' : Tables Text} {ids : List ℤ} (h : addNodes codec sqlite i entries t = .ok (ids, t')) :
    t' = entries.foldl (fun t e => addNode codec e.1 e.2 t) t := by
  induction entries generalizing i t ids with
  | nil => exact (Prod.mk.inj (Except.ok.inj h)).2.symm
  | cons e entries ih =>
    obtain ⟨type, properties⟩ := e
    simp only [addNodes] at h
    split at h
    · cases h
    · obtain ⟨⟨ids', t''⟩, hrest, hreturn⟩ := bind_eq_ok.mp h
      obtain ⟨-, rfl⟩ := Prod.mk.inj (Except.ok.inj hreturn)
      exact ih hrest

theorem insertNode_ends (sqlite : Sqlite) (type : String) (properties : KnowledgeRecord D)
    (changedBy : String) (t : Tables Text) :
    Ends codec t (.insertNode type properties changedBy)
      (insertNode codec sqlite type properties t) := by
  unfold insertNode
  split
  · exact .failed _
  · exact .of_effect .insertNode

theorem insertNodesBatch_ends (sqlite : Sqlite) (inTransaction : Bool)
    (entries : List (String × KnowledgeRecord D)) (t : Tables Text) :
    Ends codec t (.insertNodesBatch entries)
      (insertNodesBatch codec sqlite inTransaction entries t) := by
  unfold insertNodesBatch
  split_ifs with hempty
  · obtain rfl := List.isEmpty_iff.mp hempty
    exact .of_effect .insertNodesBatch
  · split
    · exact .failed _
    · split
      · exact .failed _
      · split
        · exact .failed _
        next ids t' hadd =>
          split
          · exact .failed _
          · rw [addNodes_eq_ok hadd]
            exact .of_effect .insertNodesBatch

theorem updateNode_ends (sqlite : Sqlite) (id : ℤ) (properties : KnowledgeRecord D)
    (changedBy : String) (t : Tables Text) :
    Ends codec t (.updateNode id properties changedBy)
      (updateNode codec sqlite id properties t) := by
  unfold updateNode
  split
  · exact .failed _
  · split_ifs with hnode
    · exact .of_effect (.updateNode hnode)
    · exact .failed _

theorem getNode_eq_ok {sqlite : Sqlite} {id : ℤ} {t : Tables Text} {node : KnowledgeNode D}
    (h : getNode codec sqlite id t = .ok node) :
    ∃ row ∈ t.nodes, row.id = id ∧ node = NodeRow.decode codec row := by
  unfold getNode at h
  split at h
  · cases h
  · split at h
    · cases h
    · split at h
      next row hrow =>
        exact ⟨row, List.mem_of_find?_eq_some hrow,
          by simpa using List.find?_some hrow, (Except.ok.inj h).symm⟩
      next => cases h

theorem setNodeField_ends (sqlite : Sqlite) (id : ℤ) (key : String) (value : FieldValue D)
    (t : Tables Text) :
    Ends codec t (.setNodeField id key value) (setNodeField codec sqlite id key value t) := by
  unfold setNodeField
  split
  · exact .failed _
  next node hget =>
    obtain ⟨row, hrow, hid, rfl⟩ := getNode_eq_ok hget
    unfold updateNode
    split
    · exact .failed _
    · split_ifs
      · exact .of_effect (.setNodeField hrow hid)
      · exact .failed _

theorem deleteNode_ends (sqlite : Sqlite) (id : ℤ) (changedBy : String) (t : Tables Text) :
    Ends codec t (.deleteNode id changedBy : Call D) (deleteNode sqlite id t) := by
  unfold deleteNode
  split
  · exact .failed _
  · exact .of_effect .deleteNode

theorem insertEdge_ends (sqlite : Sqlite) (source target : ℤ) (relationship : String)
    (properties : KnowledgeRecord D) (changedBy : String) (t : Tables Text) :
    Ends codec t (.insertEdge source target relationship properties changedBy)
      (insertEdge codec sqlite source target relationship properties t) := by
  unfold insertEdge
  split_ifs with hempty
  · exact .failed _
  · split
    · exact .failed _
    · exact .of_effect (.insertEdge (by simpa using hempty))

theorem deleteEdge_ends (sqlite : Sqlite) (id : ℤ) (t : Tables Text) :
    Ends codec t (.deleteEdge id : Call D) (deleteEdge sqlite id t) := by
  unfold deleteEdge
  split
  · exact .failed _
  · exact .of_effect .deleteEdge

variable (codec) in
/-- A call fails without an effect, or succeeds with its effect. -/
theorem serve_ends (inTransaction : Bool) (req : Request D) (t : Tables Text) :
    Ends codec t req.call (serve codec inTransaction req t) := by
  obtain ⟨call, evolution, sqlite⟩ := req
  cases call with
  | insertNode type properties changedBy =>
    exact ((insertNode_ends ..).andLog fun _ _ => append_sameGraph ..).replied
  | insertNodesBatch entries => exact (insertNodesBatch_ends ..).replied
  | updateNode id properties changedBy =>
    exact ((updateNode_ends ..).andLog fun _ _ => append_sameGraph ..).replied
  | setNodeField id key value => exact (setNodeField_ends ..).replied
  | deleteNode id changedBy =>
    exact ((deleteNode_ends ..).andLog fun _ _ => append_sameGraph ..).replied
  | insertEdge source target relationship properties changedBy =>
    exact ((insertEdge_ends ..).andLog fun _ _ => append_sameGraph ..).replied
  | deleteEdge id => exact (deleteEdge_ends ..).replied

/-- A call that fails leaves the tables as they were. -/
theorem serve_unchanged {inTransaction : Bool} {req : Request D} {t : Tables Text}
    (h : hasValue (serve codec inTransaction req t).1 = false) :
    (serve codec inTransaction req t).2 = t := by
  have hends := serve_ends codec inTransaction req t
  revert h hends
  generalize serve codec inTransaction req t = r
  intro h hends
  cases hends with
  | failed e => rfl
  | done _ _ => cases h

/-- A call that succeeds has its effect. -/
theorem serve_effect {inTransaction : Bool} {req : Request D} {t : Tables Text}
    (h : hasValue (serve codec inTransaction req t).1 = true) :
    ∃ t', Effect codec t req.call t' ∧ SameGraph t' (serve codec inTransaction req t).2 := by
  have hends := serve_ends codec inTransaction req t
  revert h hends
  generalize serve codec inTransaction req t = r
  intro h hends
  cases hends with
  | failed e => cases h
  | done heffect hsame => exact ⟨_, heffect, hsame⟩

theorem foldl_addNode_snapshots (t : Tables Text) (entries : List (String × KnowledgeRecord D)) :
    (entries.foldl (fun t e => addNode codec e.1 e.2 t) t).snapshots = t.snapshots ∧
      (entries.foldl (fun t e => addNode codec e.1 e.2 t) t).lastSnapshotId =
        t.lastSnapshotId := by
  induction entries generalizing t with
  | nil => exact ⟨rfl, rfl⟩
  | cons e entries ih => exact ih (addNode codec e.1 e.2 t)

theorem Effect.snapshots {t' : Tables Text} (h : Effect codec t call t') :
    t'.snapshots = t.snapshots ∧ t'.lastSnapshotId = t.lastSnapshotId := by
  cases h with
  | insertNodesBatch => exact foldl_addNode_snapshots t _
  | insertNode | updateNode _ | setNodeField _ _ | deleteNode | insertEdge _ | deleteEdge =>
    exact ⟨rfl, rfl⟩

variable (codec) in
/-- No call touches the snapshots' rows. -/
theorem serve_snapshots (inTransaction : Bool) (req : Request D) (t : Tables Text) :
    (serve codec inTransaction req t).2.snapshots = t.snapshots ∧
      (serve codec inTransaction req t).2.lastSnapshotId = t.lastSnapshotId := by
  have hends := serve_ends codec inTransaction req t
  revert hends
  generalize serve codec inTransaction req t = r
  intro hends
  cases hends with
  | failed e => exact ⟨rfl, rfl⟩
  | done heffect hsame =>
    rw [hsame.snapshots, hsame.lastSnapshotId]
    exact heffect.snapshots

end Tables

end SurfaceAi.Knowledge
