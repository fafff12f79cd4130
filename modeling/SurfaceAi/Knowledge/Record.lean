import SurfaceAi.Knowledge.Graph

/-! How a record's fields become the JSON text of a row, and what they are when the
text is read back. Writing the text and parsing it are `nlohmann::json`'s, a parameter
here; what is assumed of them is that the text has no form for a byte vector, which is
written as an object, nor for a double that is not finite, which is written as null. -/

namespace SurfaceAi.Knowledge

/-- `nlohmann::json`. An object is a map, so its keys are distinct. -/
inductive Json (D : Type) where
  | null
  | bool (b : Bool)
  | int (v : ℤ)
  | float (d : D)
  | string (s : String)
  | binary (bs : List UInt8)
  | array (xs : List (Json D))
  | object (members : List (String × Json D))

variable {D Text : Type}

def fieldValueToJson : FieldValue D → Json D
  | .int v => .int v
  | .double d => .float d
  | .string s => .string s
  | .bytes bs => .binary bs

/-- Any other value falls back to the integer 0. -/
def jsonToFieldValue : Json D → FieldValue D
  | .int v => .int v
  | .float d => .double d
  | .string s => .string s
  | .binary bs => .bytes bs
  | _ => .int 0

def recordToJson (record : KnowledgeRecord D) : Json D :=
  .object (record.fields.entries.map fun e => (e.1, fieldValueToJson e.2))

def jsonToRecord : Json D → KnowledgeRecord D
  | .object members => ⟨(members.map fun m => ⟨m.1, jsonToFieldValue m.2⟩).toAList⟩
  | _ => ⟨∅⟩

/-- `dump` and `parse`. Only dumped texts are parsed, so the exception that a malformed
text would raise has no place here. -/
structure JsonCodec (D Text : Type) where
  dump : Json D → Text
  parse : Text → Json D
  isFinite : D → Bool

/-- What a scalar is after a way through the text. -/
def Json.scalarText (isFinite : D → Bool) : Json D → Json D
  | .float d => if isFinite d then .float d else .null
  | .binary bs => .object [("bytes", .array (bs.map fun b => .int b.toNat)), ("subtype", .null)]
  | j => j

/-- What an object of scalars is after a way through the text. -/
def Json.asText (isFinite : D → Bool) : Json D → Json D
  | .object members => .object (members.map fun m => (m.1, m.2.scalarText isFinite))
  | j => j.scalarText isFinite

/-- Integers, finite doubles and strings come back from the text as they were. -/
structure JsonCodec.Lawful (codec : JsonCodec D Text) : Prop where
  parse_dump : ∀ r : KnowledgeRecord D,
    codec.parse (codec.dump (recordToJson r)) = (recordToJson r).asText codec.isFinite

namespace JsonCodec

/-- The codec whose texts are the values that can be read back. -/
def plain (isFinite : D → Bool) : JsonCodec D (Json D) :=
  ⟨fun j => j.asText isFinite, fun j => j, isFinite⟩

theorem plain_lawful (isFinite : D → Bool) : (plain isFinite).Lawful := ⟨fun _ => rfl⟩

variable (codec : JsonCodec D Text)

def encode (r : KnowledgeRecord D) : Text := codec.dump (recordToJson r)

def decode (t : Text) : KnowledgeRecord D := jsonToRecord (codec.parse t)

end JsonCodec

/-- What a field is once it was stored. -/
def FieldValue.stored (isFinite : D → Bool) : FieldValue D → FieldValue D
  | .double d => if isFinite d then .double d else .int 0
  | .bytes _ => .int 0
  | v => v

def FieldValue.isBytes : FieldValue D → Bool
  | .bytes _ => true
  | _ => false

def FieldValue.Finite (isFinite : D → Bool) : FieldValue D → Prop
  | .double d => isFinite d = true
  | _ => True

theorem jsonToFieldValue_scalarText (isFinite : D → Bool) (v : FieldValue D) :
    jsonToFieldValue ((fieldValueToJson v).scalarText isFinite) = v.stored isFinite := by
  cases v with
  | int v => rfl
  | double d =>
    simp only [fieldValueToJson, Json.scalarText, FieldValue.stored]
    split_ifs <;> rfl
  | string s => rfl
  | bytes bs => rfl

@[simp] theorem FieldValue.stored_stored (isFinite : D → Bool) (v : FieldValue D) :
    (v.stored isFinite).stored isFinite = v.stored isFinite := by
  cases v with
  | int v => rfl
  | double d => by_cases h : isFinite d = true <;> simp [stored, h]
  | string s => rfl
  | bytes bs => rfl

/-- Storing changes a byte vector always, and any other finite field never. -/
theorem FieldValue.stored_eq_self_iff {isFinite : D → Bool} {v : FieldValue D}
    (hv : v.Finite isFinite) : v.stored isFinite = v ↔ v.isBytes = false := by
  cases v with
  | int v => simp [stored, isBytes]
  | double d =>
    have hd : isFinite d = true := hv
    simp [stored, isBytes, hd]
  | string s => simp [stored, isBytes]
  | bytes bs => simp [stored, isBytes]

namespace KnowledgeRecord

/-- A record once it was stored: the same keys, every value as stored. -/
def stored (isFinite : D → Bool) (r : KnowledgeRecord D) : KnowledgeRecord D :=
  ⟨⟨r.fields.entries.map (Sigma.map id fun _ v => v.stored isFinite),
    r.fields.nodupKeys.map₂ _⟩⟩

/-- `fields[key]`. -/
def field (r : KnowledgeRecord D) (key : String) : Option (FieldValue D) := r.fields.lookup key

/-- `fields[key] = value`. -/
def setField (r : KnowledgeRecord D) (key : String) (value : FieldValue D) :
    KnowledgeRecord D := ⟨r.fields.insert key value⟩

def AllFinite (isFinite : D → Bool) (r : KnowledgeRecord D) : Prop :=
  ∀ e ∈ r.fields.entries, e.2.Finite isFinite

/-- No field holds a byte vector. -/
def NoBytes (r : KnowledgeRecord D) : Prop := ∀ e ∈ r.fields.entries, e.2.isBytes = false

theorem ext {r r' : KnowledgeRecord D} (h : r.fields.entries = r'.fields.entries) : r = r' := by
  cases r
  cases r'
  exact congrArg mk (AList.ext h)

@[simp] theorem field_stored (isFinite : D → Bool) (r : KnowledgeRecord D) (key : String) :
    (r.stored isFinite).field key = (r.field key).map (FieldValue.stored isFinite) :=
  List.dlookup_map₂ key

@[simp] theorem field_setField_self (r : KnowledgeRecord D) (key : String)
    (v : FieldValue D) : (r.setField key v).field key = some v :=
  AList.lookup_insert _

theorem field_setField_ne (r : KnowledgeRecord D) {key other : String} (v : FieldValue D)
    (h : other ≠ key) : (r.setField key v).field other = r.field other :=
  AList.lookup_insert_ne h

theorem mem_entries_iff {r : KnowledgeRecord D} {key : String} {v : FieldValue D} :
    (⟨key, v⟩ : Sigma fun _ : String => FieldValue D) ∈ r.fields.entries ↔
      r.field key = some v :=
  AList.mem_lookup_iff.symm

@[simp] theorem stored_stored (isFinite : D → Bool) (r : KnowledgeRecord D) :
    (r.stored isFinite).stored isFinite = r.stored isFinite := by
  apply ext
  simp [stored, Function.comp_def, Sigma.map]

/-- Storing is the identity on the finite records without byte vectors and on no
other finite one. -/
theorem stored_eq_self_iff {isFinite : D → Bool} {r : KnowledgeRecord D}
    (hr : r.AllFinite isFinite) : r.stored isFinite = r ↔ r.NoBytes := by
  constructor
  · intro h e he
    have hf := congrArg (fun r' => r'.field e.1) h
    simp only [field_stored, mem_entries_iff.mp he, Option.map_some, Option.some.injEq] at hf
    exact (FieldValue.stored_eq_self_iff (hr e he)).mp hf
  · intro h
    apply ext
    calc (r.stored isFinite).fields.entries
        = r.fields.entries.map (Sigma.map id fun _ v => v.stored isFinite) := rfl
      _ = r.fields.entries.map id := List.map_congr_left fun e he => by
          simp only [Sigma.map, (FieldValue.stored_eq_self_iff (hr e he)).mpr (h e he), id]
      _ = r.fields.entries := List.map_id _

end KnowledgeRecord

theorem dedupKeys_of_nodupKeys {V : String → Type} :
    ∀ {es : List (Sigma V)}, es.NodupKeys → es.dedupKeys = es
  | [], _ => rfl
  | e :: es, h => by
    obtain ⟨hk, hes⟩ := List.nodupKeys_cons.mp h
    rw [List.dedupKeys_cons, dedupKeys_of_nodupKeys hes, List.kinsert_def,
      List.kerase_of_notMem_keys hk]

/-- Reading back what was stored gives every field as stored. -/
theorem JsonCodec.decode_encode {codec : JsonCodec D Text} (hc : codec.Lawful)
    (r : KnowledgeRecord D) : codec.decode (codec.encode r) = r.stored codec.isFinite := by
  have hs : jsonToRecord ((recordToJson r).asText codec.isFinite) =
      ⟨(r.stored codec.isFinite).fields.entries.toAList⟩ := by
    simp only [recordToJson, Json.asText, jsonToRecord, KnowledgeRecord.stored,
      List.map_map, Function.comp_def, jsonToFieldValue_scalarText]
    rfl
  rw [decode, encode, hc.parse_dump, hs]
  apply KnowledgeRecord.ext
  exact dedupKeys_of_nodupKeys (AList.nodupKeys _)

/-- What was read back once is stored without loss. -/
theorem JsonCodec.decode_encode_decode {codec : JsonCodec D Text} (hc : codec.Lawful)
    (r : KnowledgeRecord D) :
    codec.decode (codec.encode (codec.decode (codec.encode r))) =
      codec.decode (codec.encode r) := by
  rw [codec.decode_encode hc, codec.decode_encode hc, KnowledgeRecord.stored_stored]

end SurfaceAi.Knowledge
