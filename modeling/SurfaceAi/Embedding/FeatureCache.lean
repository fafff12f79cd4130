import SurfaceAi.Library.Lru
import SurfaceAi.Library.Transition
import SurfaceAi.Embedding.Embedding
import Mathlib.Data.List.AList

/-! The feature cache: a list of items in the order of their use, and an index from keys to
positions in the list. The positions stay what they are while items move; one that is followed
after its item is gone is undefined. -/

namespace SurfaceAi.Embeddings

/-- A node of the list; `node` tells it from the others wherever it moves. -/
structure LruItem (F : Type) where
  node : ℕ
  key : UInt64
  value : Embedding F

/-- `lru` begins with the item most recently used; `nextNode` is no data of the code. -/
structure FeatureCache (F : Type) where
  maxEntries : ℕ
  lru : List (LruItem F)
  index : AList fun _ : UInt64 => ℕ
  nextNode : ℕ
  hits : ℕ
  misses : ℕ

namespace FeatureCache

variable {F : Type}

def create (maxEntries : ℕ) : FeatureCache F := ⟨maxEntries, [], ∅, 0, 0, 0⟩

variable (c : FeatureCache F)

/-- What a position refers to. -/
def deref (it : ℕ) : Option (LruItem F) := c.lru.find? fun item => item.node = it

/-- `lru_.splice(lru_.begin(), lru_, it)`, where `item` is at the position. -/
def splice (item : LruItem F) : FeatureCache F :=
  { c with lru := item :: c.lru.filter fun other => other.node ≠ item.node }

/-- `lru_.emplace_front` and the entry of the index for it. -/
def emplaceFront (key : UInt64) (value : Embedding F) : FeatureCache F :=
  { c with
    lru := ⟨c.nextNode, key, value⟩ :: c.lru
    index := c.index.insert key c.nextNode
    nextNode := c.nextNode + 1 }

def get (key : UInt64) : Option (Option (Embedding F) × FeatureCache F) :=
  match c.index.lookup key with
  | none => some (none, { c with misses := c.misses + 1 })
  | some it => (c.deref it).map fun item => (some item.value, { c.splice item with hits := c.hits + 1 })

def put (key : UInt64) (value : Embedding F) : Option (FeatureCache F) :=
  match c.index.lookup key with
  | some it => (c.deref it).map fun item => c.splice { item with value := value }
  | none =>
    if c.maxEntries ≤ c.lru.length ∧ 0 < c.maxEntries then
      c.lru.getLast?.map fun last =>
        { c with lru := c.lru.dropLast, index := c.index.erase last.key }.emplaceFront key value
    else if c.maxEntries = 0 then some c
    else some (c.emplaceFront key value)

def size : ℕ := c.lru.length

/-- One call; a put finds nothing. -/
def serve : Lru.Call UInt64 (Embedding F) → Option (Option (Embedding F) × FeatureCache F)
  | .get key => c.get key
  | .put key value => (c.put key value).map fun c' => (none, c')

/-- One call of a run, which keeps what each call found. -/
def step (s : List (Lru.Served UInt64 (Embedding F)) × FeatureCache F)
    (call : Lru.Call UInt64 (Embedding F)) :
    Option (List (Lru.Served UInt64 (Embedding F)) × FeatureCache F) :=
  (s.2.serve call).map fun r => (s.1 ++ [(call, r.1)], r.2)

/-- The keys in the list, the most recently used first. -/
def keys : List UInt64 := c.lru.map LruItem.key

def entries : List (UInt64 × Embedding F) := c.lru.map fun item => (item.key, item.value)

/-- The list and the index fit together: no key and no node is in the list twice, and the index
has the position of each item by its key, and no others. -/
structure Wellformed : Prop where
  nodes : (c.lru.map LruItem.node).Nodup
  fresh : ∀ item ∈ c.lru, item.node < c.nextNode
  keys : c.keys.Nodup
  index : ∀ key it, c.index.lookup key = some it ↔ ∃ item ∈ c.lru, item.key = key ∧ item.node = it
  size : c.lru.length ≤ c.maxEntries

variable {c} {key : UInt64} {value : Embedding F} {item : LruItem F}

theorem wellformed_create (maxEntries : ℕ) : (create maxEntries : FeatureCache F).Wellformed where
  nodes := List.nodup_nil
  fresh := by simp [create]
  keys := List.nodup_nil
  index := by simp [create, AList.lookup_empty]
  size := Nat.zero_le _

namespace Wellformed

theorem eq_of_node (h : c.Wellformed) {other : LruItem F} (hi : item ∈ c.lru) (ho : other ∈ c.lru)
    (heq : item.node = other.node) : item = other := List.inj_on_of_nodup_map h.nodes hi ho heq

theorem eq_of_key (h : c.Wellformed) {other : LruItem F} (hi : item ∈ c.lru) (ho : other ∈ c.lru)
    (heq : item.key = other.key) : item = other := List.inj_on_of_nodup_map h.keys hi ho heq

theorem deref_eq (h : c.Wellformed) (hi : item ∈ c.lru) : c.deref item.node = some item := by
  unfold deref
  cases hfind : c.lru.find? fun other => other.node = item.node with
  | none =>
    have := List.find?_eq_none.mp hfind item hi
    simp at this
  | some other =>
    have heq : other.node = item.node := by simpa using List.find?_some hfind
    rw [h.eq_of_node (List.mem_of_find?_eq_some hfind) hi heq]

theorem lookup_eq (h : c.Wellformed) (hi : item ∈ c.lru) :
    c.index.lookup item.key = some item.node := (h.index _ _).mpr ⟨item, hi, rfl, rfl⟩

theorem lookup_eq_none (h : c.Wellformed) : c.index.lookup key = none ↔ key ∉ c.keys := by
  constructor
  · intro hnone hkey
    obtain ⟨item, hi, rfl⟩ := List.mem_map.mp hkey
    rw [h.lookup_eq hi] at hnone
    cases hnone
  · intro hkey
    rw [Option.eq_none_iff_forall_ne_some]
    intro it hit
    obtain ⟨item, hi, rfl, -⟩ := (h.index _ _).mp hit
    exact hkey (List.mem_map_of_mem hi)

/-- The items that stay behind one that is moved are those of other keys. -/
theorem node_ne_iff (h : c.Wellformed) {other : LruItem F} (hi : item ∈ c.lru) (ho : other ∈ c.lru) :
    other.node ≠ item.node ↔ other.key ≠ item.key :=
  not_congr ⟨fun heq => congrArg _ (h.eq_of_node ho hi heq),
    fun heq => congrArg _ (h.eq_of_key ho hi heq)⟩

theorem entries_splice (h : c.Wellformed) (hi : item ∈ c.lru) (value : Embedding F) :
    (c.splice { item with value := value }).entries = Lru.bring item.key value c.entries := by
  have hfilter : (c.lru.filter fun other => other.node ≠ item.node) =
      c.lru.filter fun other => other.key ≠ item.key :=
    List.filter_congr fun other ho => decide_eq_decide.mpr (h.node_ne_iff hi ho)
  simp only [splice, entries, Lru.bring, List.map_cons, hfilter, List.filter_map]
  rfl

theorem splice (h : c.Wellformed) (hi : item ∈ c.lru) (value : Embedding F) :
    (c.splice { item with value := value }).Wellformed := by
  have hmem : ∀ other, (other ∈ c.lru.filter fun other => other.node ≠ item.node) ↔
      other ∈ c.lru ∧ other.node ≠ item.node := by simp
  refine ⟨?_, ?_, ?_, ?_, ?_⟩
  · refine List.nodup_cons.mpr ⟨?_, h.nodes.sublist (List.filter_sublist.map _)⟩
    rintro hin
    obtain ⟨other, ho, heq⟩ := List.mem_map.mp hin
    exact ((hmem other).mp ho).2 heq
  · intro other ho
    rcases List.mem_cons.mp ho with rfl | ho
    · exact h.fresh item hi
    · exact h.fresh other ((hmem other).mp ho).1
  · refine List.nodup_cons.mpr ⟨?_, h.keys.sublist (List.filter_sublist.map _)⟩
    intro hin
    obtain ⟨other, ho, heq⟩ := List.mem_map.mp hin
    obtain ⟨ho, hne⟩ := (hmem other).mp ho
    exact (h.node_ne_iff hi ho).mp hne heq
  · intro key it
    change c.index.lookup key = some it ↔ _
    rw [h.index]
    constructor
    · rintro ⟨other, ho, rfl, rfl⟩
      by_cases heq : other.node = item.node
      · obtain rfl := h.eq_of_node ho hi heq
        exact ⟨_, List.mem_cons_self, rfl, rfl⟩
      · exact ⟨other, List.mem_cons_of_mem _ ((hmem other).mpr ⟨ho, heq⟩), rfl, rfl⟩
    · rintro ⟨other, ho, rfl, rfl⟩
      rcases List.mem_cons.mp ho with rfl | ho
      · exact ⟨item, hi, rfl, rfl⟩
      · exact ⟨other, ((hmem other).mp ho).1, rfl, rfl⟩
  · have hshorter : (c.lru.filter fun other => other.node ≠ item.node).length < c.lru.length :=
      List.length_filter_lt_length_iff_exists.mpr ⟨item, hi, by simp⟩
    exact Nat.le_trans hshorter h.size

/-- A key that is not in the list, with room for it. -/
theorem emplaceFront (h : c.Wellformed) (hnew : key ∉ c.keys) (hroom : c.lru.length < c.maxEntries)
    (value : Embedding F) : (c.emplaceFront key value).Wellformed where
  nodes := by
    refine List.nodup_cons.mpr ⟨fun hin => ?_, h.nodes⟩
    obtain ⟨other, ho, heq⟩ := List.mem_map.mp hin
    exact Nat.ne_of_lt (h.fresh other ho) heq
  fresh item hi := by
    rcases List.mem_cons.mp hi with rfl | hi
    · exact Nat.lt_succ_self _
    · exact Nat.lt_succ_of_lt (h.fresh item hi)
  keys := List.nodup_cons.mpr ⟨hnew, h.keys⟩
  index key' it := by
    change (c.index.insert key c.nextNode).lookup key' = some it ↔ _
    by_cases heq : key' = key
    · subst heq
      rw [AList.lookup_insert]
      constructor
      · rintro hit
        exact ⟨_, List.mem_cons_self, rfl, Option.some.inj hit⟩
      · rintro ⟨other, ho, hkey, rfl⟩
        rcases List.mem_cons.mp ho with rfl | ho
        · rfl
        · exact absurd (hkey ▸ List.mem_map_of_mem ho) hnew
    · rw [AList.lookup_insert_ne heq, h.index]
      constructor
      · rintro ⟨other, ho, hkey, hit⟩
        exact ⟨other, List.mem_cons_of_mem _ ho, hkey, hit⟩
      · rintro ⟨other, ho, hkey, hit⟩
        rcases List.mem_cons.mp ho with rfl | ho
        · exact absurd hkey.symm heq
        · exact ⟨other, ho, hkey, hit⟩
  size := hroom

/-- Without its last item. -/
theorem popBack (h : c.Wellformed) {front : List (LruItem F)} {last : LruItem F}
    (hsplit : c.lru = front ++ [last]) :
    Wellformed { c with lru := front, index := c.index.erase last.key } := by
  have hsub : ∀ item ∈ front, item ∈ c.lru := fun item hi => by simp [hsplit, hi]
  have hkeys := h.keys
  rw [FeatureCache.keys, hsplit, List.map_append, List.nodup_append] at hkeys
  have hlast : ∀ item ∈ front, item.key ≠ last.key := fun item hi =>
    hkeys.2.2 _ (List.mem_map_of_mem hi) _ (by simp)
  have hnodes := h.nodes
  rw [hsplit, List.map_append, List.nodup_append] at hnodes
  refine ⟨hnodes.1, fun item hi => h.fresh item (hsub item hi), hkeys.1, ?_, ?_⟩
  · intro key it
    change (c.index.erase last.key).lookup key = some it ↔ ∃ item ∈ front, _
    by_cases heq : key = last.key
    · subst heq
      rw [AList.lookup_erase]
      refine iff_of_false nofun ?_
      rintro ⟨item, hi, hkey, -⟩
      exact hlast item hi hkey
    · rw [AList.lookup_erase_ne heq, h.index, hsplit]
      constructor
      · rintro ⟨item, hi, rfl, rfl⟩
        rcases List.mem_append.mp hi with hi | hi
        · exact ⟨item, hi, rfl, rfl⟩
        · exact absurd (congrArg _ (List.mem_singleton.mp hi)) heq
      · rintro ⟨item, hi, hkey, hit⟩
        exact ⟨item, List.mem_append_left _ hi, hkey, hit⟩
  · have hsize := h.size
    rw [hsplit, List.length_append] at hsize
    exact Nat.le_of_succ_le hsize

theorem mem_keys_iff (h : c.Wellformed) : key ∈ c.index ↔ key ∈ c.keys := by
  rw [← not_iff_not, ← AList.lookup_eq_none, h.lookup_eq_none]

end Wellformed

/-- With distinct keys, the entry found at a key is the one of its item. -/
theorem lookup_of_nodup {lru : List (LruItem F)} (hkeys : (lru.map LruItem.key).Nodup)
    (hi : item ∈ lru) :
    (lru.map fun item => (item.key, item.value)).lookup item.key = some item.value := by
  induction lru with
  | nil => cases hi
  | cons other lru ih =>
    obtain ⟨hnew, hrest⟩ := List.nodup_cons.mp hkeys
    rw [List.map_cons, List.lookup_cons]
    rcases List.mem_cons.mp hi with rfl | hi
    · simp
    · have hne : item.key ≠ other.key := fun heq => hnew (heq ▸ List.mem_map_of_mem hi)
      rw [beq_false_of_ne hne]
      exact ih hrest hi

theorem keys_eq (c : FeatureCache F) : c.keys = c.entries.map Prod.fst := by
  simp [keys, entries, Function.comp_def]

/-- What a call does, beside the same call on the entries: it is defined, it finds the same, and
it counts one get or none. -/
structure ServedAs (c : FeatureCache F) (call : Lru.Call UInt64 (Embedding F))
    (found : Option (Embedding F)) (c' : FeatureCache F) : Prop where
  wellformed : c'.Wellformed
  maxEntries : c'.maxEntries = c.maxEntries
  found_eq : found = (Lru.serve c.maxEntries call c.entries).1
  entries_eq : c'.entries = (Lru.serve c.maxEntries call c.entries).2
  counted : c'.hits + c'.misses = c.hits + c.misses + (match call with | .get _ => 1 | .put _ _ => 0)

theorem get_served (h : c.Wellformed) (key : UInt64) :
    ∃ found c', c.get key = some (found, c') ∧ c.ServedAs (.get key) found c' := by
  unfold get
  cases hlookup : c.index.lookup key with
  | none =>
    have hnone : c.entries.lookup key = none := by
      rw [← Option.not_isSome_iff_eq_none, Lru.lookup_isSome_iff, ← keys_eq]
      exact h.lookup_eq_none.mp hlookup
    refine ⟨_, _, rfl, ⟨h.nodes, h.fresh, h.keys, h.index, h.size⟩, rfl, ?_, ?_, ?_⟩
    · rw [Lru.serve_get_of_none hnone]
    · rw [Lru.serve_get_of_none hnone]
      rfl
    · simp only
      omega
  | some it =>
    obtain ⟨item, hi, rfl, rfl⟩ := (h.index _ _).mp hlookup
    have hfound : c.entries.lookup item.key = some item.value := lookup_of_nodup h.keys hi
    have hsplice := h.splice hi item.value
    simp only [h.deref_eq hi]
    refine ⟨_, _, rfl, ⟨hsplice.nodes, hsplice.fresh, hsplice.keys, hsplice.index, hsplice.size⟩,
      rfl, ?_, ?_, ?_⟩
    · rw [Lru.serve_get_of_some hfound]
    · rw [Lru.serve_get_of_some hfound]
      exact h.entries_splice hi item.value
    · simp only [splice]
      omega

/-- A key that is not in the list is not among the entries either. -/
theorem bring_of_new (hnew : key ∉ c.keys) :
    Lru.bring key value c.entries = (key, value) :: c.entries := by
  rw [Lru.bring, List.filter_eq_self.mpr]
  intro e he
  have hkey : e.1 ∈ c.keys := by
    rw [keys_eq]
    exact List.mem_map_of_mem he
  simpa using fun heq : e.1 = key => hnew (heq ▸ hkey)

theorem put_served (h : c.Wellformed) (key : UInt64) (value : Embedding F) :
    ∃ c', c.put key value = some c' ∧ c.ServedAs (.put key value) none c' := by
  unfold put
  cases hlookup : c.index.lookup key with
  | some it =>
    obtain ⟨item, hi, rfl, rfl⟩ := (h.index _ _).mp hlookup
    have hsplice := h.splice hi value
    simp only [h.deref_eq hi]
    refine ⟨_, rfl, hsplice, rfl, rfl, ?_, rfl⟩
    have hlen : (Lru.bring item.key value c.entries).length ≤ c.maxEntries := by
      rw [← h.entries_splice hi value, entries, List.length_map]
      exact hsplice.size
    rw [Lru.serve_put, List.take_of_length_le hlen]
    exact h.entries_splice hi value
  | none =>
    have hnew := h.lookup_eq_none.mp hlookup
    have hsize := h.size
    dsimp only
    split_ifs with hfull hzero
    · have hne : c.lru ≠ [] := List.length_pos_iff.mp (by omega)
      obtain ⟨front, last, hsplit⟩ : ∃ front last, c.lru = front ++ [last] :=
        ⟨_, _, (List.dropLast_append_getLast hne).symm⟩
      have hpop := h.popBack hsplit
      have hlen : c.lru.length = front.length + 1 := by simp [hsplit]
      have hnew' : key ∉ front.map LruItem.key := fun hin => hnew (by
        rw [keys, hsplit, List.map_append]
        exact List.mem_append_left _ hin)
      have hput := hpop.emplaceFront hnew' (show front.length < c.maxEntries by omega) value
      have hlast : c.lru.getLast? = some last := by simp [hsplit]
      have hfront : c.lru.dropLast = front := by simp [hsplit]
      rw [hlast, hfront]
      refine ⟨_, rfl, hput, rfl, rfl, ?_, rfl⟩
      have hentries : c.entries = front.map (fun item => (item.key, item.value)) ++
          [(last.key, last.value)] := by simp [entries, hsplit]
      have hmax : c.maxEntries = front.length + 1 := by omega
      rw [Lru.serve_put, bring_of_new hnew, hentries, hmax, List.take_succ_cons,
        List.take_append_of_le_length (by simp), List.take_of_length_le (by simp)]
      rfl
    · have hnil : c.lru = [] := List.eq_nil_of_length_eq_zero (by omega)
      refine ⟨_, rfl, h, rfl, rfl, ?_, rfl⟩
      rw [Lru.serve_put, hzero, List.take_zero]
      simp [entries, hnil]
    · refine ⟨_, rfl, h.emplaceFront hnew (by omega) value, rfl, rfl, ?_, rfl⟩
      have hlen : ((key, value) :: c.entries).length ≤ c.maxEntries := by
        rw [List.length_cons, entries, List.length_map]
        omega
      rw [Lru.serve_put, bring_of_new hnew, List.take_of_length_le hlen]
      rfl

theorem serve_served (h : c.Wellformed) (call : Lru.Call UInt64 (Embedding F)) :
    ∃ found c', c.serve call = some (found, c') ∧ c.ServedAs call found c' := by
  cases call with
  | get key => exact get_served h key
  | put key value =>
    obtain ⟨c', hput, hserved⟩ := put_served h key value
    exact ⟨none, c', by simp [serve, hput], hserved⟩

/-! ### Runs -/

def isGet : Lru.Call UInt64 (Embedding F) → Bool
  | .get _ => true
  | .put _ _ => false

/-- The cache is the map of the entries most recently used: it holds what the reference map
holds, its list and its index hold the same keys, the next get finds the value last put if its
key is one of the keys most recently used and nothing otherwise, and the next call evicts at most
the last of them. -/
structure IsLru (maxEntries : ℕ) (calls : List (Lru.Call UInt64 (Embedding F)))
    (history : List (Lru.Served UInt64 (Embedding F))) (c : FeatureCache F) : Prop where
  refines : history = (Lru.run maxEntries calls).1 ∧ c.entries = (Lru.run maxEntries calls).2
  recent : c.keys = (Lru.recent (Lru.uses history)).take maxEntries
  nodup : c.keys.Nodup ∧ c.index.keys.Nodup
  sameKeys : ∀ key, key ∈ c.index.keys ↔ key ∈ c.keys
  size_le : c.size ≤ maxEntries
  next_get : ∀ key, ∃ found c', c.get key = some (found, c') ∧
    (found.isSome = true ↔ key ∈ (Lru.recent (Lru.uses history)).take maxEntries) ∧
      ∀ value, found = some value → Lru.lastPut calls key = some value
  next_evicts : ∀ call, ∃ found c', c.serve call = some (found, c') ∧
    ∀ key ∈ c.keys, key ∉ c'.keys → c.keys.getLast? = some key
  counted : c.hits + c.misses = calls.countP isGet

/-- What a run keeps. -/
structure Sound (maxEntries : ℕ) (calls : List (Lru.Call UInt64 (Embedding F)))
    (s : List (Lru.Served UInt64 (Embedding F)) × FeatureCache F) : Prop where
  wellformed : s.2.Wellformed
  maxEntries_eq : s.2.maxEntries = maxEntries
  refines : (s.1, s.2.entries) = Lru.run maxEntries calls
  counted : s.2.hits + s.2.misses = calls.countP isGet

theorem Sound.step {maxEntries : ℕ} {calls : List (Lru.Call UInt64 (Embedding F))}
    {s : List (Lru.Served UInt64 (Embedding F)) × FeatureCache F} (h : Sound maxEntries calls s)
    (call : Lru.Call UInt64 (Embedding F)) :
    ∃ s', step s call = some s' ∧ Sound maxEntries (calls ++ [call]) s' := by
  obtain ⟨found, c', hserve, hserved⟩ := serve_served h.wellformed call
  refine ⟨(s.1 ++ [(call, found)], c'), by simp [FeatureCache.step, hserve], hserved.wellformed,
    hserved.maxEntries.trans h.maxEntries_eq, ?_, ?_⟩
  · have hhistory := congrArg Prod.fst h.refines
    have hentries := congrArg Prod.snd h.refines
    dsimp only at hhistory hentries
    rw [Lru.run_concat, ← hhistory, ← hentries, hserved.found_eq, hserved.entries_eq,
      h.maxEntries_eq]
  · have hcounted := hserved.counted
    have hold := h.counted
    rw [List.countP_append, ← hold]
    cases call with
    | get key => exact hcounted
    | put key value => exact hcounted

theorem sound_run (maxEntries : ℕ) (calls : List (Lru.Call UInt64 (Embedding F))) :
    ∃ s, Transition.run FeatureCache.step ([], create maxEntries) calls = some s ∧
      Sound maxEntries calls s := by
  induction calls using List.reverseRecOn with
  | nil => exact ⟨_, rfl, wellformed_create maxEntries, rfl, rfl, rfl⟩
  | append_singleton calls call ih =>
    obtain ⟨s, hrun, hsound⟩ := ih
    obtain ⟨s', hstep, hsound'⟩ := hsound.step call
    exact ⟨s', by simp [Transition.run_append, hrun, hstep], hsound'⟩

theorem Sound.isLru {maxEntries : ℕ} {calls : List (Lru.Call UInt64 (Embedding F))}
    {s : List (Lru.Served UInt64 (Embedding F)) × FeatureCache F} (h : Sound maxEntries calls s) :
    IsLru maxEntries calls s.1 s.2 := by
  have hhistory : s.1 = (Lru.run maxEntries calls).1 := congrArg Prod.fst h.refines
  have hentries : s.2.entries = (Lru.run maxEntries calls).2 := congrArg Prod.snd h.refines
  have hfaithful := Lru.faithful_run maxEntries calls
  rw [← hhistory, ← hentries] at hfaithful
  have hrecent : s.2.keys = (Lru.recent (Lru.uses s.1)).take maxEntries := by
    rw [keys_eq, hfaithful.keys_eq]
  have hsize := h.wellformed.size
  rw [h.maxEntries_eq] at hsize
  refine ⟨⟨hhistory, hentries⟩, hrecent, ⟨h.wellformed.keys, s.2.index.keys_nodup⟩,
    fun key => h.wellformed.mem_keys_iff, hsize, fun key => ?_, fun call => ?_, h.counted⟩
  · obtain ⟨found, c', hget, hserved⟩ := get_served h.wellformed key
    refine ⟨found, c', hget, ?_, ?_⟩
    · rw [← hrecent, keys_eq, ← Lru.lookup_isSome_iff, hserved.found_eq]
      cases hlookup : s.2.entries.lookup key with
      | none => rw [Lru.serve_get_of_none hlookup]
      | some value => rw [Lru.serve_get_of_some hlookup]
    · intro value hvalue
      rw [hserved.found_eq] at hvalue
      cases hlookup : s.2.entries.lookup key with
      | none =>
        rw [Lru.serve_get_of_none hlookup] at hvalue
        cases hvalue
      | some value' =>
        rw [Lru.serve_get_of_some hlookup] at hvalue
        obtain rfl := Option.some.inj hvalue
        exact hfaithful.values _ (Lru.mem_of_lookup hlookup)
  · obtain ⟨found, c', hserve, hserved⟩ := serve_served h.wellformed call
    refine ⟨found, c', hserve, fun key hkey hout => ?_⟩
    rw [keys_eq] at hkey ⊢
    rw [keys_eq, hserved.entries_eq] at hout
    have hlen : s.2.entries.length ≤ s.2.maxEntries := by
      rw [entries, List.length_map]
      exact h.wellformed.size
    exact Lru.getLast?_of_evicted hlen call hkey hout

/-- In every run the cache is defined and is the map of the entries most recently used. -/
theorem featureCache_isLru (maxEntries : ℕ) (calls : List (Lru.Call UInt64 (Embedding F))) :
    ∃ history c, Transition.run FeatureCache.step ([], create maxEntries) calls =
        some (history, c) ∧ IsLru maxEntries calls history c := by
  obtain ⟨s, hrun, hsound⟩ := sound_run maxEntries calls
  exact ⟨s.1, s.2, hrun, hsound.isLru⟩

/-- A get brings its key to the front, so the other one gives way. -/
example : (Transition.run FeatureCache.step ([], create 2)
    [.put 1 (Embedding.fromCpu [1] {}), .put 2 (Embedding.fromCpu [2] {}), .get 1,
      .put 3 (Embedding.fromCpu [(3 : ℕ)] {})]).map (fun s => s.2.keys) = some [3, 1] := by
  decide

end FeatureCache

end SurfaceAi.Embeddings
