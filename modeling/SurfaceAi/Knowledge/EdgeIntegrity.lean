import SurfaceAi.Knowledge.StoreCalls
import SurfaceAi.Library.Exchanges

/-! Whether edges can dangle. The schema declares that an edge's endpoints are nodes and
that deleting a node deletes its edges, but the connection does not enforce either, and no
call checks it. So no edge dangles in a run exactly if every edge is inserted between nodes
that are there and no node is deleted while an edge still names it. -/

namespace SurfaceAi.Knowledge.EdgeIntegrity

open Exchanges Tables

variable {D Text : Type}

/-- Every edge's endpoints are in the node table. -/
def EdgesPresent (t : Tables Text) : Prop :=
  ∀ e ∈ t.edges, t.HasNode e.sourceId ∧ t.HasNode e.targetId

/-- An answered request. -/
abbrev Served (D Text : Type) := Exchange (Tables Text) (Request D) (Result Reply)

/-- No edge dangles after the call, and an edge to a missing node was refused. -/
structure Integral (x : Served D Text) : Prop where
  present : EdgesPresent x.after
  refused : ∀ source target relationship properties changedBy,
    x.call.call = .insertEdge source target relationship properties changedBy →
      ¬(x.before.HasNode source ∧ x.before.HasNode target) → hasValue x.reply = false

instance (t : Tables Text) : Decidable (EdgesPresent t) :=
  inferInstanceAs (Decidable (∀ e ∈ t.edges, t.HasNode e.sourceId ∧ t.HasNode e.targetId))

def Executes (sqlite : Sqlite) (sql : String) : Prop :=
  sqlite.prepareError sql = none ∧ sqlite.stepError sql 0 = none

/-- The call inserts an edge between nodes that are there, or deletes a node that no edge
names, or does neither. -/
def KeepsEdges (x : Served D Text) : Prop :=
  match x.call.call with
  | .insertEdge source target relationship _ _ =>
    relationship.isEmpty = false → Executes x.call.sqlite insertEdgeSql →
      x.before.HasNode source ∧ x.before.HasNode target
  | .deleteNode id _ =>
    Executes x.call.sqlite "DELETE FROM nodes WHERE id = ?" →
      ∀ e ∈ x.before.edges, e.sourceId ≠ id ∧ e.targetId ≠ id
  | _ => True

section Nodes

variable (codec : JsonCodec D Text) {t : Tables Text} {id : ℤ}

theorem hasNode_addNode (type : String) (properties : KnowledgeRecord D) (h : t.HasNode id) :
    (addNode codec type properties t).HasNode id := by
  obtain ⟨n, hn, rfl⟩ := h
  exact ⟨n, List.mem_append_left _ hn, rfl⟩

theorem hasNode_setProperties (other : ℤ) (properties : KnowledgeRecord D) :
    (setProperties codec other properties t).HasNode id ↔ t.HasNode id := by
  have hid : ∀ n : NodeRow Text, (if n.id = other then
      { n with propertiesJson := codec.encode properties } else n).id = n.id := by
    intro n
    split_ifs <;> rfl
  simp [HasNode, setProperties, hid]

theorem hasNode_removeNode {other : ℤ} :
    (removeNode other t).HasNode id ↔ t.HasNode id ∧ id ≠ other := by
  simp only [HasNode, removeNode, List.mem_filter, decide_eq_true_eq]
  constructor
  · rintro ⟨n, ⟨hn, hne⟩, rfl⟩
    exact ⟨⟨n, hn, rfl⟩, hne⟩
  · rintro ⟨⟨n, hn, rfl⟩, hne⟩
    exact ⟨n, ⟨hn, hne⟩, rfl⟩

end Nodes

theorem EdgesPresent.of_sameGraph {t t' : Tables Text} (h : SameGraph t t')
    (hp : EdgesPresent t) : EdgesPresent t' := by
  intro e he
  rw [h.edges] at he
  exact ⟨(h.hasNode _).mpr (hp e he).1, (h.hasNode _).mpr (hp e he).2⟩

theorem EdgesPresent.of_edges_eq {t t' : Tables Text} (hp : EdgesPresent t)
    (hedges : t'.edges = t.edges) (hnodes : ∀ id, t.HasNode id → t'.HasNode id) :
    EdgesPresent t' := by
  intro e he
  rw [hedges] at he
  exact ⟨hnodes _ (hp e he).1, hnodes _ (hp e he).2⟩

section Effects

variable {codec : JsonCodec D Text} {t : Tables Text}

theorem EdgesPresent.addNodes (entries : List (String × KnowledgeRecord D))
    (hp : EdgesPresent t) :
    EdgesPresent (entries.foldl (fun t e => addNode codec e.1 e.2 t) t) := by
  induction entries generalizing t with
  | nil => exact hp
  | cons e entries ih =>
    exact ih (hp.of_edges_eq rfl fun _ => hasNode_addNode codec e.1 e.2)

/-- Removing a node keeps the edges in order exactly if none names it. -/
theorem edgesPresent_removeNode (id : ℤ) (hp : EdgesPresent t) :
    EdgesPresent (removeNode id t) ↔ ∀ e ∈ t.edges, e.sourceId ≠ id ∧ e.targetId ≠ id := by
  constructor
  · intro h e he
    obtain ⟨hs, ht⟩ := h e he
    exact ⟨(hasNode_removeNode.mp hs).2, (hasNode_removeNode.mp ht).2⟩
  · intro h e he
    obtain ⟨hs, ht⟩ := h e he
    exact ⟨hasNode_removeNode.mpr ⟨(hp e he).1, hs⟩, hasNode_removeNode.mpr ⟨(hp e he).2, ht⟩⟩

theorem EdgesPresent.addEdge {source target : ℤ} (relationship : String)
    (properties : KnowledgeRecord D) (hp : EdgesPresent t) (hs : t.HasNode source)
    (ht : t.HasNode target) :
    EdgesPresent (addEdge codec source target relationship properties t) := by
  intro e he
  rcases List.mem_append.mp he with he | he
  · exact hp e he
  · obtain rfl := List.mem_singleton.mp he
    exact ⟨hs, ht⟩

theorem EdgesPresent.removeEdge (id : ℤ) (hp : EdgesPresent t) :
    EdgesPresent (removeEdge id t) :=
  fun e he => hp e (List.mem_filter.mp he).1

/-- A call with any effect but inserting an edge and deleting a node. -/
theorem EdgesPresent.effect {call : Call D} {t' : Tables Text} (h : Effect codec t call t')
    (hp : EdgesPresent t)
    (hnot : (∀ source target relationship properties changedBy,
        call ≠ .insertEdge source target relationship properties changedBy) ∧
      ∀ id changedBy, call ≠ .deleteNode id changedBy) : EdgesPresent t' := by
  cases h with
  | insertNode => exact hp.of_edges_eq rfl fun _ => hasNode_addNode codec _ _
  | insertNodesBatch => exact hp.addNodes _
  | updateNode _ => exact hp.of_edges_eq rfl fun _ => (hasNode_setProperties codec _ _).mpr
  | setNodeField _ _ => exact hp.of_edges_eq rfl fun _ => (hasNode_setProperties codec _ _).mpr
  | deleteNode => exact absurd rfl (hnot.2 _ _)
  | insertEdge _ => exact absurd rfl (hnot.1 _ _ _ _ _)
  | deleteEdge => exact hp.removeEdge _

end Effects

section Serve

variable {codec : JsonCodec D Text}

theorem statement_eq_ok {sqlite : Sqlite} {sql : String} (preparing stepping : String) :
    sqlite.statement sql preparing stepping = .ok () ↔ Executes sqlite sql := by
  unfold Sqlite.statement Executes
  cases sqlite.prepareError sql with
  | some msg => simp [fail]
  | none =>
    cases sqlite.stepError sql 0 with
    | some msg => simp [fail]
    | none => simp

@[simp] theorem hasValue_andLog {α : Type} (evolution : Bool)
    (log : α → Tables Text → Tables Text) (r : Result α × Tables Text) :
    hasValue (andLog evolution log r).1 = hasValue r.1 := by
  obtain ⟨a | e, t⟩ := r <;> rfl

@[simp] theorem hasValue_replied {α : Type} (reply : α → Reply) (r : Result α × Tables Text) :
    hasValue (replied reply r).1 = hasValue r.1 := by
  obtain ⟨a | e, t⟩ := r <;> rfl

theorem hasValue_insertEdge {sqlite : Sqlite} {source target : ℤ} {relationship : String}
    {properties : KnowledgeRecord D} {t : Tables Text} :
    hasValue (insertEdge codec sqlite source target relationship properties t).1 = true ↔
      relationship.isEmpty = false ∧ Executes sqlite insertEdgeSql := by
  rw [← statement_eq_ok "prepare insert edge: " "insert edge: "]
  unfold insertEdge
  split_ifs with h
  · simp [h]
  · cases sqlite.statement insertEdgeSql "prepare insert edge: " "insert edge: " with
    | error e => simp
    | ok u => simp [h]

theorem hasValue_deleteNode {sqlite : Sqlite} {id : ℤ} {t : Tables Text} :
    hasValue (deleteNode sqlite id t).1 = true ↔
      Executes sqlite "DELETE FROM nodes WHERE id = ?" := by
  rw [← statement_eq_ok "prepare delete node: " "delete node: "]
  unfold deleteNode
  cases sqlite.statement "DELETE FROM nodes WHERE id = ?" "prepare delete node: "
      "delete node: " with
  | error e => simp
  | ok u => simp

/-- A call with any effect but inserting an edge and deleting a node leaves no edge
dangling. -/
theorem edgesPresent_serve {inTransaction : Bool} {req : Request D} {t : Tables Text}
    (hp : EdgesPresent t)
    (hnot : (∀ source target relationship properties changedBy,
        req.call ≠ .insertEdge source target relationship properties changedBy) ∧
      ∀ id changedBy, req.call ≠ .deleteNode id changedBy) :
    EdgesPresent (serve codec inTransaction req t).2 := by
  cases hv : hasValue (serve codec inTransaction req t).1 with
  | false => rwa [serve_unchanged hv]
  | true =>
    obtain ⟨t', heffect, hsame⟩ := serve_effect hv
    exact (hp.effect heffect hnot).of_sameGraph hsame

theorem edgesPresent_insertEdge (inTransaction : Bool) {evolution : Bool}
    {sqlite : Sqlite} {source target : ℤ} {relationship changedBy : String}
    {properties : KnowledgeRecord D} {t : Tables Text} (hp : EdgesPresent t)
    (h : relationship.isEmpty = false → Executes sqlite insertEdgeSql →
      t.HasNode source ∧ t.HasNode target) :
    EdgesPresent (serve codec inTransaction
      ⟨.insertEdge source target relationship properties changedBy, evolution, sqlite⟩ t).2 := by
  cases hv : hasValue (serve codec inTransaction
      ⟨.insertEdge source target relationship properties changedBy, evolution, sqlite⟩ t).1 with
  | false => rwa [serve_unchanged hv]
  | true =>
    obtain ⟨t', heffect, hsame⟩ := serve_effect hv
    simp only [serve, storeInsertEdge, hasValue_replied, hasValue_andLog,
      hasValue_insertEdge] at hv
    obtain ⟨hs, ht⟩ := h hv.1 hv.2
    cases heffect with
    | insertEdge _ => exact (hp.addEdge relationship properties hs ht).of_sameGraph hsame

/-- Deleting a node leaves no edge dangling exactly if it fails or no edge names the
node. -/
theorem edgesPresent_deleteNode (inTransaction : Bool) {evolution : Bool}
    {sqlite : Sqlite} {id : ℤ} {changedBy : String} {t : Tables Text} (hp : EdgesPresent t) :
    EdgesPresent (serve codec inTransaction ⟨.deleteNode id changedBy, evolution, sqlite⟩ t).2 ↔
      (Executes sqlite "DELETE FROM nodes WHERE id = ?" →
        ∀ e ∈ t.edges, e.sourceId ≠ id ∧ e.targetId ≠ id) := by
  have hvalue : hasValue (serve codec inTransaction
      ⟨.deleteNode id changedBy, evolution, sqlite⟩ t).1 = true ↔
      Executes sqlite "DELETE FROM nodes WHERE id = ?" := by
    simp only [serve, storeDeleteNode, hasValue_replied, hasValue_andLog, hasValue_deleteNode]
  cases hv : hasValue (serve codec inTransaction
      ⟨.deleteNode id changedBy, evolution, sqlite⟩ t).1 with
  | false =>
    have hnot : ¬Executes sqlite "DELETE FROM nodes WHERE id = ?" := by
      rw [← hvalue, hv]
      exact Bool.false_ne_true
    rw [serve_unchanged hv]
    exact iff_of_true hp fun hex => absurd hex hnot
  | true =>
    obtain ⟨t', heffect, hsame⟩ := serve_effect hv
    have hback : SameGraph (serve codec inTransaction
        ⟨.deleteNode id changedBy, evolution, sqlite⟩ t).2 t' :=
      ⟨hsame.nodes.symm, hsame.edges.symm, hsame.snapshots.symm, hsame.lastNodeId.symm,
        hsame.lastEdgeId.symm, hsame.lastSnapshotId.symm⟩
    cases heffect with
    | deleteNode =>
      have hiff := edgesPresent_removeNode id hp
      exact ⟨fun h _ => hiff.mp (h.of_sameGraph hback),
        fun h => (hiff.mpr (h (hvalue.mp hv))).of_sameGraph hsame⟩

/-- One call keeps edges from dangling, and refuses an edge to a missing node, exactly if
it meets the condition. -/
theorem integral_iff_keepsEdges (t : Tables Text) (req : Request D) (hp : EdgesPresent t) :
    Integral (exchange (serve codec false) t req) ↔
      KeepsEdges (exchange (serve codec false) t req) := by
  obtain ⟨call, evolution, sqlite⟩ := req
  cases call with
  | insertEdge source target relationship properties changedBy =>
    have hvalue : hasValue (serve codec false
        ⟨.insertEdge source target relationship properties changedBy, evolution, sqlite⟩ t).1 =
          true ↔ relationship.isEmpty = false ∧ Executes sqlite insertEdgeSql := by
      simp only [serve, storeInsertEdge, hasValue_replied, hasValue_andLog, hasValue_insertEdge]
    constructor
    · intro h hrel hex
      by_contra hmissing
      have hfalse := h.refused _ _ _ _ _ rfl hmissing
      exact Bool.false_ne_true (hfalse.symm.trans (hvalue.mpr ⟨hrel, hex⟩))
    · intro h
      refine ⟨edgesPresent_insertEdge false hp h, ?_⟩
      rintro _ _ _ _ _ ⟨⟩ hmissing
      rw [← Bool.not_eq_true]
      exact fun hv => hmissing (h (hvalue.mp hv).1 (hvalue.mp hv).2)
  | deleteNode id changedBy =>
    constructor
    · exact fun h => (edgesPresent_deleteNode false hp).mp h.present
    · refine fun h => ⟨(edgesPresent_deleteNode false hp).mpr h, ?_⟩
      rintro _ _ _ _ _ ⟨⟩
  | insertNode | insertNodesBatch | updateNode | setNodeField | deleteEdge =>
    refine iff_of_true ⟨edgesPresent_serve hp ⟨?_, ?_⟩, ?_⟩ trivial
    · rintro _ _ _ _ _ ⟨⟩
    · rintro _ _ ⟨⟩
    · rintro _ _ _ _ _ ⟨⟩

/-- In a run that starts without a dangling edge, no edge ever dangles and every edge to a
missing node is refused exactly if every call meets the condition. -/
theorem edges_present_iff {start : Tables Text} (hstart : EdgesPresent start)
    (reqs : List (Request D)) :
    (∀ x ∈ exchanges (serve codec false) start reqs, Integral x) ↔
      ∀ x ∈ exchanges (serve codec false) start reqs, KeepsEdges x :=
  forall_iff (fun t req hp => integral_iff_keepsEdges t req hp) (fun _ _ _ h => h.present)
    hstart reqs

/-- A logged call during which nothing fails. -/
def request (call : Call ℤ) : Request ℤ := ⟨call, true, .sound⟩

/-- Two nodes with an edge between them. -/
def linked : List (Request ℤ) :=
  [request (.insertNode "Surface" ⟨∅⟩ "system"), request (.insertNode "Defect" ⟨∅⟩ "system"),
    request (.insertEdge 1 2 "HAS" ⟨∅⟩ "system")]

theorem edges_present_linked :
    (∀ x ∈ exchanges (serve (JsonCodec.plain fun _ => true) false) fresh linked, Integral x) ↔
      ∀ x ∈ exchanges (serve (JsonCodec.plain fun _ => true) false) fresh linked,
        KeepsEdges x :=
  edges_present_iff (by intro e he; cases he) linked

/-- An edge to a node that never was is inserted, and an edge outlives its target. -/
theorem edges_dangle :
    (¬∀ x ∈ exchanges (serve (JsonCodec.plain fun _ : ℤ => true) false) fresh
      [request (.insertNode "Surface" ⟨∅⟩ "system"),
        request (.insertEdge 1 7 "HAS" ⟨∅⟩ "system")], Integral x) ∧
    ¬∀ x ∈ exchanges (serve (JsonCodec.plain fun _ : ℤ => true) false) fresh
      (linked ++ [request (.deleteNode 2 "system")]), Integral x := by
  constructor
  · intro h
    have hlast := (h _ (List.mem_cons_of_mem _ (List.mem_cons_self ..))).present
    exact absurd hlast (by decide)
  · intro h
    have hlast := (h _ (List.mem_cons_of_mem _ (List.mem_cons_of_mem _
      (List.mem_cons_of_mem _ (List.mem_cons_self ..))))).present
    exact absurd hlast (by decide)

end Serve

end SurfaceAi.Knowledge.EdgeIntegrity
