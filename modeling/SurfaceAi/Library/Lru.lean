import Mathlib.Data.List.Dedup
import Mathlib.Data.List.Induction

/-! A map that keeps the entries most recently used, the least recently used one giving way. The
keys it keeps are read off the history of its calls: the distinct keys by their last use, cut off
at the capacity. -/

namespace Lru

variable {K V : Type*} [DecidableEq K]

/-! ### Recency -/

/-- The distinct keys of a sequence of uses, the most recently used first. -/
def recent (uses : List K) : List K := uses.dedup.reverse

theorem nodup_recent (uses : List K) : (recent uses).Nodup :=
  List.nodup_reverse.mpr (List.nodup_dedup uses)

theorem dedup_concat (uses : List K) (k : K) :
    (uses ++ [k]).dedup = uses.dedup.filter (· ≠ k) ++ [k] := by
  induction uses with
  | nil => simp
  | cons x uses ih =>
    rw [List.cons_append]
    by_cases hx : x ∈ uses
    · rw [List.dedup_cons_of_mem (List.mem_append_left _ hx), List.dedup_cons_of_mem hx, ih]
    · by_cases hk : x = k
      · subst hk
        rw [List.dedup_cons_of_mem (by simp), List.dedup_cons_of_notMem hx, ih]
        simp
      · rw [List.dedup_cons_of_notMem (by simp [hx, hk]), List.dedup_cons_of_notMem hx, ih]
        simp [hk]

/-- A use brings its key to the front. -/
theorem recent_concat (uses : List K) (k : K) :
    recent (uses ++ [k]) = k :: (recent uses).filter (· ≠ k) := by
  rw [recent, dedup_concat, List.reverse_append, recent, List.filter_reverse]
  rfl

/-- Bringing a key to the front and cutting off commute with having cut off before. -/
theorem take_bring {keys : List K} (h : keys.Nodup) (n : ℕ) (k : K) :
    (k :: (keys.take n).filter (· ≠ k)).take n = (k :: keys.filter (· ≠ k)).take n := by
  cases n with
  | zero => rfl
  | succ n =>
    rw [List.take_succ_cons, List.take_succ_cons]
    congr 1
    induction keys generalizing n with
    | nil => rfl
    | cons x keys ih =>
      obtain ⟨hx, hkeys⟩ := List.nodup_cons.mp h
      rw [List.take_succ_cons]
      by_cases hk : x = k
      · subst hk
        have hall : ∀ y ∈ keys, y ≠ x := fun y hy heq => hx (heq ▸ hy)
        have hfilter : keys.filter (· ≠ x) = keys := List.filter_eq_self.mpr (by simpa using hall)
        have htake : (keys.take n).filter (· ≠ x) = keys.take n :=
          List.filter_eq_self.mpr (by simpa using fun y hy => hall y (List.mem_of_mem_take hy))
        rw [List.filter_cons_of_neg (by simp), List.filter_cons_of_neg (by simp), hfilter, htake,
          List.take_take, Nat.min_self]
      · rw [List.filter_cons_of_pos (by simpa using hk), List.filter_cons_of_pos (by simpa using hk)]
        cases n with
        | zero => rfl
        | succ n => rw [List.take_succ_cons, List.take_succ_cons, ih hkeys n]

/-! ### The map -/

inductive Call (K V : Type*) where
  | get (key : K)
  | put (key : K) (value : V)

/-- The entry comes first; of the others, those of other keys stay. -/
def bring (key : K) (value : V) (entries : List (K × V)) : List (K × V) :=
  (key, value) :: entries.filter fun e => e.1 ≠ key

/-- One call on the entries, the most recently used first: what a get finds, and the entries
after it. -/
def serve (capacity : ℕ) : Call K V → List (K × V) → Option V × List (K × V)
  | .get key, entries =>
    match entries.lookup key with
    | some value => (some value, bring key value entries)
    | none => (none, entries)
  | .put key value, entries => (none, (bring key value entries).take capacity)

/-- A call with what it found. -/
abbrev Served (K V : Type*) := Call K V × Option V

/-- The calls with what they found, and the entries after them. -/
def run (capacity : ℕ) (calls : List (Call K V)) : List (Served K V) × List (K × V) :=
  calls.foldl (fun s call =>
    (s.1 ++ [(call, (serve capacity call s.2).1)], (serve capacity call s.2).2)) ([], [])

/-- The key that a call uses: a get that finds nothing uses none. -/
def used : Served K V → Option K
  | (.put key _, _) => some key
  | (.get key, some _) => some key
  | (.get _, none) => none

def uses (history : List (Served K V)) : List K := history.filterMap used

def putValue (key : K) : Call K V → Option V
  | .put key' value => if key' = key then some value else none
  | .get _ => none

/-- The value last put for a key. -/
def lastPut (calls : List (Call K V)) (key : K) : Option V :=
  calls.reverse.findSome? (putValue key)

variable {capacity : ℕ} {calls : List (Call K V)} {key : K} {value : V} {entries : List (K × V)}

theorem run_concat (capacity : ℕ) (calls : List (Call K V)) (call : Call K V) :
    run capacity (calls ++ [call]) =
      ((run capacity calls).1 ++ [(call, (serve capacity call (run capacity calls).2).1)],
        (serve capacity call (run capacity calls).2).2) := by
  rw [run, List.foldl_append]
  rfl

omit [DecidableEq K] in
theorem uses_concat (history : List (Served K V)) (x : Served K V) :
    uses (history ++ [x]) = uses history ++ (used x).toList := by
  rw [uses, List.filterMap_append]
  cases hx : used x with
  | none => simp [uses, hx]
  | some key => simp [uses, hx]

theorem lastPut_concat (calls : List (Call K V)) (call : Call K V) (key : K) :
    lastPut (calls ++ [call]) key = (putValue key call).or (lastPut calls key) := by
  rw [lastPut, List.reverse_append, List.reverse_singleton, List.singleton_append,
    List.findSome?_cons]
  cases putValue key call <;> rfl

theorem keys_bring (key : K) (value : V) (entries : List (K × V)) :
    (bring key value entries).map Prod.fst = key :: (entries.map Prod.fst).filter (· ≠ key) := by
  rw [bring, List.map_cons, List.filter_map]
  rfl

theorem mem_of_lookup (h : entries.lookup key = some value) : (key, value) ∈ entries := by
  obtain ⟨front, back, hsplit, -⟩ := List.lookup_eq_some_iff.mp h
  rw [hsplit]
  simp

theorem lookup_isSome_iff : (entries.lookup key).isSome = true ↔ key ∈ entries.map Prod.fst := by
  induction entries with
  | nil => simp
  | cons e entries ih =>
    obtain ⟨k, v⟩ := e
    rw [List.lookup_cons, List.map_cons, List.mem_cons, ← ih]
    by_cases hk : key = k
    · simp [hk]
    · simp [hk, beq_false_of_ne hk]

theorem serve_get_of_none (h : entries.lookup key = none) :
    serve capacity (.get key) entries = (none, entries) := by rw [serve, h]

theorem serve_get_of_some (h : entries.lookup key = some value) :
    serve capacity (.get key) entries = (some value, bring key value entries) := by rw [serve, h]

theorem serve_put : serve capacity (.put key value) entries =
    (none, (bring key value entries).take capacity) := rfl

/-- The entries are those of the keys most recently used, with the values last put. -/
structure Faithful (capacity : ℕ) (calls : List (Call K V)) (history : List (Served K V))
    (entries : List (K × V)) : Prop where
  keys_eq : entries.map Prod.fst = (recent (uses history)).take capacity
  values : ∀ e ∈ entries, lastPut calls e.1 = some e.2

/-- What bringing a key to the front of a full list pushes out is the last key. -/
theorem getLast?_of_pushed_out {keys : List K} {n : ℕ} (hlen : keys.length ≤ n) {k x : K}
    (hx : x ∈ keys) (hout : x ∉ (k :: keys.filter (· ≠ k)).take n) : keys.getLast? = some x := by
  cases n with
  | zero =>
    obtain rfl := List.eq_nil_of_length_eq_zero (Nat.le_zero.mp hlen)
    cases hx
  | succ n =>
    rw [List.take_succ_cons, List.mem_cons, not_or] at hout
    obtain ⟨hne, hout⟩ := hout
    have hkept : x ∈ keys.filter (· ≠ k) := List.mem_filter.mpr ⟨hx, by simpa using hne⟩
    by_cases hk : k ∈ keys
    · have hshorter : (keys.filter (· ≠ k)).length < keys.length :=
        List.length_filter_lt_length_iff_exists.mpr ⟨k, hk, by simp⟩
      rw [List.take_of_length_le (by omega)] at hout
      exact absurd hkept hout
    · have hself : keys.filter (· ≠ k) = keys := by
        refine List.filter_eq_self.mpr fun y hy => ?_
        simpa using fun heq : y = k => hk (heq ▸ hy)
      rw [hself] at hout
      have hrest : x ∈ keys.drop n :=
        (List.mem_append.mp ((List.take_append_drop n keys).symm ▸ hx)).resolve_left hout
      have hone : (keys.drop n).length ≤ 1 := by
        rw [List.length_drop]
        omega
      obtain ⟨y, hy⟩ : ∃ y, keys.drop n = [y] :=
        List.length_eq_one_iff.mp (Nat.le_antisymm hone (List.length_pos_of_mem hrest))
      rw [hy] at hrest
      rw [← List.take_append_drop n keys, hy, List.mem_singleton.mp hrest]
      simp

/-- A call pushes out no key but the least recently used. -/
theorem getLast?_of_evicted (hlen : entries.length ≤ capacity) (call : Call K V) {k : K}
    (hk : k ∈ entries.map Prod.fst)
    (hout : k ∉ (serve capacity call entries).2.map Prod.fst) :
    (entries.map Prod.fst).getLast? = some k := by
  cases call with
  | get key =>
    cases hlookup : entries.lookup key with
    | none =>
      rw [serve_get_of_none hlookup] at hout
      exact absurd hk hout
    | some value =>
      rw [serve_get_of_some hlookup, keys_bring, List.mem_cons, List.mem_filter] at hout
      by_cases hkey : k = key <;> simp [hkey, hk] at hout
  | put key value =>
    rw [serve_put, List.map_take, keys_bring] at hout
    exact getLast?_of_pushed_out (by simpa using hlen) hk hout

theorem Faithful.nodup {history : List (Served K V)} (h : Faithful capacity calls history entries) :
    (entries.map Prod.fst).Nodup := by
  rw [h.keys_eq]
  exact (nodup_recent _).sublist (List.take_sublist _ _)

theorem Faithful.serve {history : List (Served K V)} (h : Faithful capacity calls history entries)
    (call : Call K V) :
    Faithful capacity (calls ++ [call]) (history ++ [(call, (serve capacity call entries).1)])
      (serve capacity call entries).2 := by
  have hnodup := nodup_recent (uses history)
  cases call with
  | get key =>
    have hkept : ∀ e ∈ entries, lastPut (calls ++ [.get key]) e.1 = some e.2 := by
      intro e he
      rw [lastPut_concat]
      exact h.values e he
    cases hlookup : entries.lookup key with
    | none =>
      rw [serve_get_of_none hlookup]
      refine ⟨?_, hkept⟩
      rw [uses_concat, h.keys_eq]
      exact congrArg (fun l => (recent l).take capacity) (List.append_nil _).symm
    | some value =>
      rw [serve_get_of_some hlookup]
      have hmem := mem_of_lookup hlookup
      refine ⟨?_, ?_⟩
      · have hkey : key ∈ (recent (uses history)).take capacity := by
          rw [← h.keys_eq]
          exact List.mem_map_of_mem hmem
        have hlen : (key :: ((recent (uses history)).take capacity).filter (· ≠ key)).length ≤
            capacity := by
          have hfilter : (((recent (uses history)).take capacity).filter (· ≠ key)).length <
              ((recent (uses history)).take capacity).length :=
            List.length_filter_lt_length_iff_exists.mpr ⟨key, hkey, by simp⟩
          have htake := List.length_take_le capacity (recent (uses history))
          rw [List.length_cons]
          omega
        have huses : uses (history ++ [(.get key, some value)]) = uses history ++ [key] :=
          uses_concat history _
        rw [huses, recent_concat, ← take_bring hnodup, List.take_of_length_le hlen, keys_bring,
          h.keys_eq]
      · intro e he
        rcases List.mem_cons.mp he with rfl | he
        · exact hkept _ hmem
        · exact hkept e (List.mem_of_mem_filter he)
  | put key value =>
    have huses : uses (history ++ [(.put key value, none)]) = uses history ++ [key] :=
      uses_concat history _
    rw [serve_put]
    refine ⟨?_, ?_⟩
    · rw [huses, recent_concat, ← take_bring hnodup, List.map_take, keys_bring, h.keys_eq]
    · intro e he
      rw [lastPut_concat]
      rcases List.mem_cons.mp (List.mem_of_mem_take he) with rfl | he
      · simp [putValue]
      · obtain ⟨hold, hne⟩ := List.mem_filter.mp he
        have hput : putValue e.1 (Call.put key value) = none :=
          if_neg fun heq => of_decide_eq_true hne heq.symm
        rw [hput]
        exact h.values e hold

theorem faithful_run (capacity : ℕ) (calls : List (Call K V)) :
    Faithful capacity calls (run capacity calls).1 (run capacity calls).2 := by
  induction calls using List.reverseRecOn with
  | nil => exact ⟨by simp [run, uses, recent], by simp [run]⟩
  | append_singleton calls call ih =>
    rw [run_concat]
    exact ih.serve call

end Lru
