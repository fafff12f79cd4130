import SurfaceAi.Knowledge.StoreCalls
import SurfaceAi.Library.Exchanges

/-! The evolution log of a store's nodes as an undo log: every entry is numbered, and an
update or a deletion is logged with what it overwrites. The log is faithful exactly as
long as every deletion is of a node that is there: deleting any other id is reported as a
success and logged too. -/

namespace SurfaceAi.Knowledge.EvolutionLog

open Exchanges Tables

variable {D Text : Type} (codec : JsonCodec D Text)

/-- The calls that write nodes and log them. -/
inductive NodeCall (D : Type) where
  | insertNode (type : String) (properties : KnowledgeRecord D) (changedBy : String)
  | updateNode (id : ℤ) (properties : KnowledgeRecord D) (changedBy : String)
  | deleteNode (id : ℤ) (changedBy : String)

def NodeCall.call : NodeCall D → Call D
  | .insertNode type properties changedBy => .insertNode type properties changedBy
  | .updateNode id properties changedBy => .updateNode id properties changedBy
  | .deleteNode id changedBy => .deleteNode id changedBy

/-- Evolution is enabled and SQLite fails nothing. -/
def serveNode (c : NodeCall D) (t : Tables Text) : Result Reply × Tables Text :=
  serve codec false ⟨c.call, true, .sound⟩ t

abbrev Served (D Text : Type) := Exchange (Tables Text) (NodeCall D) (Result Reply)

/-- The before image as `GetHistory` reads it. -/
def imageOf (e : EvolutionRow Text) : KnowledgeRecord D :=
  match e.beforeImageJson with
  | some text => codec.decode text
  | none => ⟨∅⟩

/-- The entry is about the call. -/
def Concerns : NodeCall D → EvolutionRow Text → Prop
  | .insertNode .., e => e.operation = .insert
  | .updateNode id .., e => e.operation = .update ∧ e.entityId = id
  | .deleteNode id _, e => e.operation = .delete ∧ e.entityId = id

/-- The entries of one node: numbered from 1 without gaps, an insertion first. -/
structure Numbered (es : List (EvolutionRow Text)) : Prop where
  versions : es.map EvolutionRow.version = List.range' 1 es.length
  first : ∀ e, es.head? = some e → e.operation = .insert

/-- After the call every node's entries are numbered, and what the call logged is about it
and, unless it inserted a node, about a node that was there, with its properties. -/
structure Faithful (x : Served D Text) : Prop where
  numbered : ∀ id, Numbered (history "Node" id x.after)
  logged : ∃ es, x.after.evolutionLog = x.before.evolutionLog ++ es ∧
    ∀ e ∈ es, Concerns x.call e ∧ (e.operation ≠ .insert →
      ∃ node, getNode codec .sound e.entityId x.before = .ok node ∧
        imageOf codec e = node.properties)

/-- A node that is deleted is there. -/
def DeletesPresent (x : Served D Text) : Prop :=
  match x.call with
  | .deleteNode id _ => x.before.HasNode id
  | _ => True

/-- The entry that a call appends. -/
def entry (t : Tables Text) (id : ℤ) (op : EvolutionOp) (image : KnowledgeRecord D)
    (changedBy : String) : EvolutionRow Text :=
  ⟨t.lastEntryId + 1, "Node", id, op, nextVersion .sound "Node" id t, changedBy,
    if op = .insert then none else some (codec.encode image)⟩

def logEntry (e : EvolutionRow Text) (t : Tables Text) : Tables Text :=
  { t with evolutionLog := t.evolutionLog ++ [e], lastEntryId := t.lastEntryId + 1 }

theorem foldr_max_range' (s n : ℕ) : (List.range' s (n + 1)).foldr max 0 = s + n := by
  induction n generalizing s with
  | zero => simp
  | succ n ih =>
    rw [List.range'_succ, List.foldr_cons, ih]
    omega

/-- The next entry of a numbered history gets the next number. -/
theorem Numbered.nextVersion {t : Tables Text} {id : ℤ} (h : Numbered (history "Node" id t)) :
    nextVersion .sound "Node" id t = (history "Node" id t).length + 1 := by
  show ((history "Node" id t).map EvolutionRow.version).foldr max 0 + 1 = _
  rw [h.versions]
  cases (history "Node" id t).length with
  | zero => rfl
  | succ n => rw [foldr_max_range', Nat.add_comm 1 n]

theorem Numbered.append {es : List (EvolutionRow Text)} (h : Numbered es)
    {e : EvolutionRow Text} (hversion : e.version = es.length + 1)
    (hfirst : es = [] → e.operation = .insert) : Numbered (es ++ [e]) := by
  constructor
  · rw [List.map_append, h.versions, List.length_append, List.length_singleton,
      List.range'_1_concat, List.map_singleton, hversion, Nat.add_comm 1]
  · intro e' he'
    cases es with
    | nil =>
      obtain rfl := Option.some.inj he'
      exact hfirst rfl
    | cons e'' es => exact h.first e' he'

theorem history_logEntry_self {t t' : Tables Text} (hlog : t'.evolutionLog = t.evolutionLog)
    {id : ℤ} {op : EvolutionOp} {image : KnowledgeRecord D} {changedBy : String} :
    history "Node" id (logEntry (entry codec t id op image changedBy) t') =
      history "Node" id t ++ [entry codec t id op image changedBy] := by
  simp [history, logEntry, hlog, entry]

theorem history_logEntry_ne {t t' : Tables Text} (hlog : t'.evolutionLog = t.evolutionLog)
    {id other : ℤ} (hne : other ≠ id) {op : EvolutionOp} {image : KnowledgeRecord D}
    {changedBy : String} :
    history "Node" other (logEntry (entry codec t id op image changedBy) t') =
      history "Node" other t := by
  simp [history, logEntry, hlog, entry, hne.symm]

/-- Between calls: every node's entries are numbered, a node that is there has entries, an
id that was not given out has none, and every row's text was written from a record. -/
structure Logged (t : Tables Text) : Prop where
  numbered : ∀ id, Numbered (history "Node" id t)
  present : ∀ n ∈ t.nodes, history "Node" n.id t ≠ []
  fresh : ∀ e ∈ t.evolutionLog, e.entityId ≤ t.lastNodeId
  ids : ∀ n ∈ t.nodes, n.id ≤ t.lastNodeId
  texts : ∀ n ∈ t.nodes, ∃ r : KnowledgeRecord D, n.propertiesJson = codec.encode r

theorem logged_fresh : Logged codec (fresh : Tables Text) where
  numbered _ := ⟨rfl, by intro e he; cases he⟩
  present := by intro n hn; cases hn
  fresh := by intro e he; cases he
  ids := by intro n hn; cases hn
  texts := by intro n hn; cases hn

variable {codec}

/-- Logging a call about `id` whose effect on the nodes is `t'`. -/
theorem Logged.logEntry {t : Tables Text} {id : ℤ} (h : Logged codec t) (t' : Tables Text)
    (hlog : t'.evolutionLog = t.evolutionLog) (hlast : t.lastNodeId ≤ t'.lastNodeId)
    (hnodes : ∀ n ∈ t'.nodes, n.id = id ∨ ∃ m ∈ t.nodes, m.id = n.id)
    (htexts : ∀ n ∈ t'.nodes, ∃ r : KnowledgeRecord D, n.propertiesJson = codec.encode r)
    (hid : id ≤ t'.lastNodeId) {op : EvolutionOp} {image : KnowledgeRecord D}
    {changedBy : String} (hfirst : history "Node" id t = [] → op = .insert) :
    Logged codec (logEntry (entry codec t id op image changedBy) t') where
  numbered other := by
    by_cases hne : other = id
    · subst hne
      rw [history_logEntry_self codec hlog]
      exact (h.numbered other).append (h.numbered other).nextVersion hfirst
    · rw [history_logEntry_ne codec hlog hne]
      exact h.numbered other
  present n hn := by
    by_cases hne : n.id = id
    · rw [hne, history_logEntry_self codec hlog]
      simp
    · obtain ⟨m, hm, hmn⟩ := (hnodes n hn).resolve_left hne
      rw [history_logEntry_ne codec hlog hne, ← hmn]
      exact h.present m hm
  fresh e he := by
    rcases List.mem_append.mp he with he | he
    · rw [hlog] at he
      exact Int.le_trans (h.fresh e he) hlast
    · obtain rfl := List.mem_singleton.mp he
      exact hid
  ids n hn := by
    rcases hnodes n hn with hn' | ⟨m, hm, hmn⟩
    · exact hn' ▸ hid
    · exact hmn ▸ Int.le_trans (h.ids m hm) hlast
  texts := htexts

section Serve

variable (codec)

theorem serveNode_insertNode (type : String) (properties : KnowledgeRecord D)
    (changedBy : String) (t : Tables Text) :
    (serveNode codec (.insertNode type properties changedBy) t).2 =
      logEntry (entry codec t (t.lastNodeId + 1) .insert (⟨∅⟩ : KnowledgeRecord D) changedBy)
        (addNode codec type properties t) := rfl

theorem serveNode_deleteNode (id : ℤ) (changedBy : String) (t : Tables Text) :
    (serveNode codec (.deleteNode id changedBy) t).2 =
      logEntry (entry codec t id .delete (beforeImage codec true .sound id t) changedBy)
        (removeNode id t) := rfl

variable {t : Tables Text} {id : ℤ}

theorem getNode_sound_of_hasNode (h : t.HasNode id) :
    ∃ n ∈ t.nodes, n.id = id ∧ getNode codec .sound id t = .ok (NodeRow.decode codec n) := by
  obtain ⟨m, hm, hid⟩ := h
  cases hfind : t.nodes.find? fun n => n.id = id with
  | none => exact absurd hid (by simpa using List.find?_eq_none.mp hfind m hm)
  | some n =>
    refine ⟨n, List.mem_of_find?_eq_some hfind, by simpa using List.find?_some hfind, ?_⟩
    simp only [getNode, Sqlite.sound, hfind]

variable {codec}

theorem serveNode_updateNode_of_hasNode (h : t.HasNode id) (properties : KnowledgeRecord D)
    (changedBy : String) :
    (serveNode codec (.updateNode id properties changedBy) t).2 =
      logEntry (entry codec t id .update (beforeImage codec true .sound id t) changedBy)
        (setProperties codec id properties t) := by
  simp only [serveNode, NodeCall.call, serve, storeUpdateNode, updateNode,
    Sqlite.statement_sound, if_pos h]
  rfl

theorem serveNode_updateNode_of_not_hasNode (h : ¬t.HasNode id)
    (properties : KnowledgeRecord D) (changedBy : String) :
    (serveNode codec (.updateNode id properties changedBy) t).2 = t := by
  simp only [serveNode, NodeCall.call, serve, storeUpdateNode, updateNode,
    Sqlite.statement_sound, if_neg h]
  rfl

/-- The before image of a node that is there is its record, unchanged by being stored. -/
theorem imageOf_beforeImage (hc : codec.Lawful) (h : Logged codec t) (hnode : t.HasNode id)
    {op : EvolutionOp} (hop : op ≠ .insert) (changedBy : String) :
    ∃ node, getNode codec .sound id t = .ok node ∧
      imageOf codec (entry codec t id op (beforeImage codec true .sound id t) changedBy) =
        node.properties := by
  obtain ⟨n, hn, -, hget⟩ := getNode_sound_of_hasNode codec hnode
  obtain ⟨r, hr⟩ := h.texts n hn
  refine ⟨_, hget, ?_⟩
  have himage : beforeImage codec true .sound id t = codec.decode (codec.encode r) := by
    rw [← hr]
    simp only [beforeImage, if_true, hget]
    rfl
  simp only [imageOf, entry, if_neg hop, himage]
  rw [codec.decode_encode_decode hc, ← hr]
  rfl

theorem Logged.insertNode (h : Logged codec t) (type : String) (properties : KnowledgeRecord D)
    (changedBy : String) :
    Logged codec (serveNode codec (.insertNode type properties changedBy) t).2 := by
  have hlast : t.lastNodeId ≤ t.lastNodeId + 1 := by omega
  rw [serveNode_insertNode]
  refine h.logEntry (addNode codec type properties t) rfl hlast ?_ ?_ (Int.le_refl _) fun _ => rfl
  · intro n hn
    rcases List.mem_append.mp hn with hn | hn
    · exact .inr ⟨n, hn, rfl⟩
    · obtain rfl := List.mem_singleton.mp hn
      exact .inl rfl
  · intro n hn
    rcases List.mem_append.mp hn with hn | hn
    · exact h.texts n hn
    · obtain rfl := List.mem_singleton.mp hn
      exact ⟨properties, rfl⟩

/-- Logging a write to a node that is there. -/
theorem Logged.write (h : Logged codec t) (hnode : t.HasNode id) (t' : Tables Text)
    (hlog : t'.evolutionLog = t.evolutionLog) (hlast : t'.lastNodeId = t.lastNodeId)
    (hnodes : ∀ n ∈ t'.nodes, ∃ m ∈ t.nodes, m.id = n.id ∧ (n.propertiesJson = m.propertiesJson ∨
      ∃ r : KnowledgeRecord D, n.propertiesJson = codec.encode r))
    {op : EvolutionOp} {image : KnowledgeRecord D} {changedBy : String} :
    Logged codec (EvolutionLog.logEntry (entry codec t id op image changedBy) t') := by
  obtain ⟨m, hm, rfl⟩ := hnode
  refine h.logEntry t' hlog (Int.le_of_eq hlast.symm) ?_ ?_ (hlast ▸ h.ids m hm) ?_
  · intro n hn
    obtain ⟨m', hm', hid, -⟩ := hnodes n hn
    exact .inr ⟨m', hm', hid⟩
  · intro n hn
    obtain ⟨m', hm', -, htext | htext⟩ := hnodes n hn
    · exact htext ▸ h.texts m' hm'
    · exact htext
  · exact fun hnil => absurd hnil (h.present m hm)

theorem Logged.updateNode (h : Logged codec t) (id : ℤ) (properties : KnowledgeRecord D)
    (changedBy : String) :
    Logged codec (serveNode codec (.updateNode id properties changedBy) t).2 := by
  by_cases hnode : t.HasNode id
  · rw [serveNode_updateNode_of_hasNode hnode]
    refine h.write hnode (setProperties codec id properties t) rfl rfl fun n hn => ?_
    obtain ⟨m, hm, rfl⟩ := List.mem_map.mp hn
    refine ⟨m, hm, ?_⟩
    split_ifs
    · exact ⟨rfl, .inr ⟨properties, rfl⟩⟩
    · exact ⟨rfl, .inl rfl⟩
  · rwa [serveNode_updateNode_of_not_hasNode hnode]

theorem Logged.deleteNode (h : Logged codec t) (hnode : t.HasNode id) (changedBy : String) :
    Logged codec (serveNode codec (.deleteNode id changedBy) t).2 := by
  rw [serveNode_deleteNode]
  exact h.write hnode (removeNode id t) rfl rfl fun n hn =>
    ⟨n, (List.mem_filter.mp hn).1, rfl, .inl rfl⟩

/-- A call that deletes no absent node keeps the invariant. -/
theorem Logged.serveNode (h : Logged codec t) {c : NodeCall D}
    (hc : DeletesPresent (exchange (serveNode codec) t c)) :
    Logged codec (EvolutionLog.serveNode codec c t).2 := by
  cases c with
  | insertNode type properties changedBy => exact h.insertNode type properties changedBy
  | updateNode id properties changedBy => exact h.updateNode id properties changedBy
  | deleteNode id changedBy => exact h.deleteNode hc changedBy

/-- What a call that deletes no absent node logs. -/
theorem logged_entries (hcodec : codec.Lawful) (h : Logged codec t) {c : NodeCall D}
    (hc : DeletesPresent (exchange (EvolutionLog.serveNode codec) t c)) :
    ∃ es, (EvolutionLog.serveNode codec c t).2.evolutionLog = t.evolutionLog ++ es ∧
      ∀ e ∈ es, Concerns c e ∧ (e.operation ≠ .insert →
        ∃ node, getNode codec .sound e.entityId t = .ok node ∧
          imageOf codec e = node.properties) := by
  cases c with
  | insertNode type properties changedBy =>
    refine ⟨_, rfl, fun e he => ?_⟩
    obtain rfl := List.mem_singleton.mp he
    exact ⟨rfl, fun hne => absurd rfl hne⟩
  | updateNode id properties changedBy =>
    by_cases hnode : t.HasNode id
    · rw [serveNode_updateNode_of_hasNode hnode]
      refine ⟨_, rfl, fun e he => ?_⟩
      obtain rfl := List.mem_singleton.mp he
      exact ⟨⟨rfl, rfl⟩, fun hne => imageOf_beforeImage hcodec h hnode hne changedBy⟩
    · rw [serveNode_updateNode_of_not_hasNode hnode]
      exact ⟨[], (List.append_nil _).symm, by simp⟩
  | deleteNode id changedBy =>
    refine ⟨_, rfl, fun e he => ?_⟩
    obtain rfl := List.mem_singleton.mp he
    exact ⟨⟨rfl, rfl⟩, fun hne => imageOf_beforeImage hcodec h hc hne changedBy⟩

/-- One call keeps the log faithful exactly if it deletes no absent node. -/
theorem faithful_iff (hcodec : codec.Lawful) (t : Tables Text) (c : NodeCall D)
    (h : Logged codec t) :
    Faithful codec (exchange (EvolutionLog.serveNode codec) t c) ↔
      DeletesPresent (exchange (EvolutionLog.serveNode codec) t c) := by
  constructor
  · intro hf
    cases c with
    | insertNode | updateNode => trivial
    | deleteNode id changedBy =>
      obtain ⟨es, hes, hall⟩ := hf.logged
      have hlast : es = [entry codec t id .delete (beforeImage codec true .sound id t)
          changedBy] := (List.append_cancel_left hes).symm
      obtain ⟨node, hget, -⟩ := (hall _ (hlast ▸ List.mem_singleton.mpr rfl)).2 (by simp [entry])
      obtain ⟨row, hrow, hid, -⟩ := getNode_eq_ok hget
      exact ⟨row, hrow, hid⟩
  · exact fun hd => ⟨(h.serveNode hd).numbered, logged_entries hcodec h hd⟩

/-- In every run on a new store the log is a faithful undo log exactly if every deletion is
of a node that is there. -/
theorem undo_log_iff (hcodec : codec.Lawful) (calls : List (NodeCall D)) :
    (∀ x ∈ exchanges (EvolutionLog.serveNode codec) fresh calls, Faithful codec x) ↔
      ∀ x ∈ exchanges (EvolutionLog.serveNode codec) fresh calls, DeletesPresent x :=
  forall_iff (fun t c h => faithful_iff hcodec t c h)
    (fun _ _ h hf => h.serveNode ((faithful_iff hcodec _ _ h).mp hf)) (logged_fresh codec) calls

end Serve

/-- A node that is inserted, changed and deleted. -/
def lifeOfANode : List (NodeCall ℤ) :=
  [.insertNode "Surface" ⟨∅⟩ "system",
    .updateNode 1 ⟨AList.singleton "serial" (.string "SN-1")⟩ "operator",
    .deleteNode 1 "operator"]

theorem undo_log_life :
    (∀ x ∈ exchanges (serveNode (JsonCodec.plain fun _ => true)) fresh lifeOfANode,
      Faithful (JsonCodec.plain fun _ => true) x) ↔
    ∀ x ∈ exchanges (serveNode (JsonCodec.plain fun _ => true)) fresh lifeOfANode,
      DeletesPresent x :=
  undo_log_iff (JsonCodec.plain_lawful _) lifeOfANode

/-- Deleting an id that was never given out succeeds and is logged. -/
theorem undo_log_unfaithful :
    ¬∀ x ∈ exchanges (serveNode (JsonCodec.plain fun _ : ℤ => true)) fresh
      [.deleteNode 1 "operator"], Faithful (JsonCodec.plain fun _ => true) x := by
  intro h
  have hfirst := (h _ (List.mem_cons_self ..)).numbered 1
  exact absurd (hfirst.first _ rfl) (by decide)

end SurfaceAi.Knowledge.EvolutionLog
