import SurfaceAi.Knowledge.StoreCalls

/-! Which records survive being stored. A byte vector has no form of its own in the text:
it is written as an object, and an object is read back as the integer 0. So the round trip
through the text loses the byte vectors and nothing else, and setting one field of a node,
which reads the whole record and writes it back, overwrites every other byte vector. -/

namespace SurfaceAi.Knowledge

variable {D Text : Type}

/-- The value under a key of an object. -/
def Json.member : Json D → String → Option (Json D)
  | .object members, key => members.lookup key
  | _, _ => none

namespace Tables

variable (codec : JsonCodec D Text)

/-- The text in the node's row. -/
def storedText (t : Tables Text) (id : ℤ) : Option Text :=
  (t.nodes.find? fun n => n.id = id).map NodeRow.propertiesJson

/-- What the node's text holds under a key. -/
def storedMember (t : Tables Text) (id : ℤ) (key : String) : Option (Json D) :=
  (t.storedText id).bind fun text => (codec.parse text).member key

theorem find?_setProperties (id : ℤ) (properties : KnowledgeRecord D) (t : Tables Text) :
    ((setProperties codec id properties t).nodes.find? fun n => n.id = id) =
      (t.nodes.find? fun n => n.id = id).map fun n =>
        { n with propertiesJson := codec.encode properties } := by
  simp only [setProperties]
  induction t.nodes with
  | nil => rfl
  | cons n ns ih =>
    by_cases h : n.id = id
    · simp [h]
    · simp only [List.map_cons, if_neg h]
      rw [List.find?_cons_of_neg (by simpa using h), List.find?_cons_of_neg (by simpa using h), ih]

theorem storedText_setProperties {id : ℤ} {t : Tables Text} {text : Text}
    (h : t.storedText id = some text) (properties : KnowledgeRecord D) :
    (setProperties codec id properties t).storedText id = some (codec.encode properties) := by
  obtain ⟨n, hn, -⟩ := Option.map_eq_some_iff.mp h
  rw [storedText, find?_setProperties, hn]
  rfl

theorem hasNode_of_storedText {id : ℤ} {t : Tables Text} {text : Text}
    (h : t.storedText id = some text) : t.HasNode id := by
  obtain ⟨n, hn, -⟩ := Option.map_eq_some_iff.mp h
  exact ⟨n, List.mem_of_find?_eq_some hn, by simpa using List.find?_some hn⟩

/-- Where nothing fails, the record read is the decoded text. -/
theorem setNodeField_sound {id : ℤ} {t : Tables Text} {text : Text}
    (h : t.storedText id = some text) (key : String) (value : FieldValue D) :
    setNodeField codec .sound id key value t =
      (.ok (), setProperties codec id ((codec.decode text).setField key value) t) := by
  have hnode := hasNode_of_storedText h
  obtain ⟨n, hn, rfl⟩ := Option.map_eq_some_iff.mp h
  have hget : getNode codec .sound id t = .ok (NodeRow.decode codec n) := by
    simp only [getNode, Sqlite.sound, hn]
  simp only [setNodeField, hget, updateNode, Sqlite.statement_sound, if_pos hnode]
  rfl

/-- A call that SQLite lets fail changes nothing. -/
theorem setNodeField_tables (sqlite : Sqlite) {id : ℤ} {t : Tables Text} {text : Text}
    (h : t.storedText id = some text) (key : String) (value : FieldValue D) :
    (setNodeField codec sqlite id key value t).2 = t ∨
      (setNodeField codec sqlite id key value t).2 =
        (setNodeField codec .sound id key value t).2 := by
  obtain ⟨n, hn, htext⟩ := Option.map_eq_some_iff.mp h
  rw [setNodeField_sound codec h]
  unfold setNodeField
  split
  · exact .inl rfl
  next node hget =>
    have hnode : node = NodeRow.decode codec n := by
      unfold getNode at hget
      split at hget
      · cases hget
      · split at hget
        · cases hget
        · rw [hn] at hget
          exact (Except.ok.inj hget).symm
    unfold updateNode
    split
    · exact .inl rfl
    · rw [if_pos (hasNode_of_storedText h), hnode, ← htext]
      exact .inr rfl

/-- Setting the field leaves what the node's text holds under every other key as it was. -/
def KeepsOthers (sqlite : Sqlite) (id : ℤ) (key : String) (value : FieldValue D)
    (t : Tables Text) : Prop :=
  ∀ other, other ≠ key →
    storedMember codec (setNodeField codec sqlite id key value t).2 id other =
      storedMember codec t id other

end Tables

open Tables

/-- The record is read back as it was stored, and setting one field of a node that holds it
leaves its other fields alone. -/
structure SurvivesStorage (codec : JsonCodec D Text) (r : KnowledgeRecord D) : Prop where
  roundTrip : jsonToRecord (codec.parse (codec.dump (recordToJson r))) = r
  setNodeField : ∀ (t : Tables Text) (id : ℤ) (sqlite : Sqlite) (key : String)
    (value : FieldValue D), t.storedText id = some (codec.dump (recordToJson r)) →
      KeepsOthers codec sqlite id key value t

theorem lookup_members (f : FieldValue D → Json D) (key : String) :
    ∀ es : List (Sigma fun _ : String => FieldValue D),
      (es.map fun e => (e.1, f e.2)).lookup key = (es.dlookup key).map f
  | [] => rfl
  | ⟨k, v⟩ :: es => by
    by_cases h : key = k
    · subst h
      simp
    · have hbeq : (key == k) = false := beq_false_of_ne h
      rw [List.dlookup_cons_ne es ⟨k, v⟩ h]
      simp only [List.map_cons, List.lookup_cons, hbeq, lookup_members f key es]

/-- What the text of a record holds under a key. -/
theorem member_encode {codec : JsonCodec D Text} (hc : codec.Lawful) (r : KnowledgeRecord D)
    (key : String) :
    (codec.parse (codec.encode r)).member key =
      (r.field key).map fun v => (fieldValueToJson v).scalarText codec.isFinite := by
  rw [JsonCodec.encode, hc.parse_dump]
  simp only [recordToJson, Json.asText, Json.member, List.map_map, Function.comp_def]
  exact lookup_members (fun v => (fieldValueToJson v).scalarText codec.isFinite) key
    r.fields.entries

/-- Setting a field of a node that holds `r` stores every other field as it is read back. -/
theorem storedMember_setNodeField {codec : JsonCodec D Text} (hc : codec.Lawful)
    {r : KnowledgeRecord D} {t : Tables Text} {id : ℤ}
    (h : t.storedText id = some (codec.encode r)) {key other : String} (hne : other ≠ key)
    (value : FieldValue D) :
    storedMember codec (setNodeField codec .sound id key value t).2 id other =
      ((r.stored codec.isFinite).field other).map fun v =>
        (fieldValueToJson v).scalarText codec.isFinite := by
  rw [setNodeField_sound codec h, storedMember, storedText_setProperties codec h,
    Option.bind_some, member_encode hc, KnowledgeRecord.field_setField_ne _ _ hne,
    codec.decode_encode hc]

theorem keepsOthers_of_stored_eq {codec : JsonCodec D Text} (hc : codec.Lawful)
    {r : KnowledgeRecord D} (hr : r.stored codec.isFinite = r) {t : Tables Text} {id : ℤ}
    (h : t.storedText id = some (codec.encode r)) (sqlite : Sqlite) (key : String)
    (value : FieldValue D) : KeepsOthers codec sqlite id key value t := by
  intro other hne
  rcases setNodeField_tables codec sqlite h key value with heq | heq
  · rw [heq]
  · rw [heq, storedMember_setNodeField hc h hne, hr, storedMember, h, Option.bind_some,
      member_encode hc]

/-- A record survives being stored exactly if none of its fields is a byte vector. -/
theorem survivesStorage_iff {codec : JsonCodec D Text} (hc : codec.Lawful)
    {r : KnowledgeRecord D} (hr : r.AllFinite codec.isFinite) :
    SurvivesStorage codec r ↔ r.NoBytes := by
  rw [← KnowledgeRecord.stored_eq_self_iff hr]
  constructor
  · intro h
    rw [← codec.decode_encode hc]
    exact h.roundTrip
  · intro h
    exact ⟨(codec.decode_encode hc r).trans h,
      fun t id sqlite key value ht => keepsOthers_of_stored_eq hc h ht sqlite key value⟩

theorem survivesStorage_serial :
    SurvivesStorage (JsonCodec.plain fun _ : ℤ => true)
        ⟨AList.singleton "serial" (.string "SN-1")⟩ ↔
      (⟨AList.singleton "serial" (.string "SN-1")⟩ : KnowledgeRecord ℤ).NoBytes :=
  survivesStorage_iff (JsonCodec.plain_lawful _) (by
    intro e he
    obtain rfl := List.mem_singleton.mp he
    trivial)

/-- A byte vector is read back as the integer 0. -/
theorem not_survivesStorage_bytes :
    ¬SurvivesStorage (JsonCodec.plain fun _ : ℤ => true)
      ⟨AList.singleton "signature" (.bytes [7])⟩ := by
  intro h
  have hfield := congrArg (fun r => (r.field "signature").map FieldValue.isBytes) h.roundTrip
  exact absurd hfield (by decide)

end SurfaceAi.Knowledge
