import SurfaceAi.Core.TypeId
import SurfaceAi.Pipeline.Stage
import Mathlib.Data.List.Dedup
import Mathlib.Data.List.Induction
import Mathlib.Data.List.Sort
import Mathlib.Data.String.Basic

/-! The scheduler's worker pools. A pool stays registered once it is created, while the map from
stage kinds to pools is emptied by `Deallocate` and by every `Allocate` before it does anything
else. -/

namespace SurfaceAi.Pipeline

def stageTypeToPoolId (t : StageType) : TypeId := fnv1aHash (stageTypeToPoolKey t)

/-- A worker pool, as it was created. -/
structure Pool where
  key : String
  config : PoolConfig
  deriving DecidableEq, Repr

structure Scheduler where
  poolOverrides : String → Option PoolConfig
  pools : List (TypeId × Pool)
  stagePoolMap : StageType → Option TypeId

inductive SchedulerCall where
  | overridePoolConfig (key : String) (threads : ℕ) (queueCapacity : Option ℕ)
  | allocate (stages : List StageType)
  | deallocate
  deriving DecidableEq, Repr

namespace Scheduler

def create : Scheduler := ⟨fun _ => none, [], fun _ => none⟩

variable (s : Scheduler)

def overridePoolConfig (key : String) (threads : ℕ) (queueCapacity : Option ℕ) : Scheduler :=
  let config := { poolConfigForKey key with threads := threads }
  let config := match queueCapacity with
    | some capacity => { config with queueCapacity := capacity }
    | none => config
  { s with poolOverrides := Function.update s.poolOverrides key (some config) }

def getEffectivePoolConfig (key : String) : PoolConfig :=
  match s.poolOverrides key with
  | some config => config
  | none => poolConfigForKey key

/-- The keys of the pools that stages need, each once and in order. -/
def requiredKeys (stages : List StageType) : List String :=
  (stages.map stageTypeToPoolKey).dedup.insertionSort (· ≤ ·)

/-- The pools before one that is there already are registered all the same. -/
def registerPools : List String → Scheduler → Result Unit × Scheduler
  | [], s => (.ok (), s)
  | key :: keys, s =>
    if fnv1aHash key ∈ s.pools.map Prod.fst then
      (fail .coreTypeAlreadyRegistered "type already registered", s)
    else
      registerPools keys
        { s with pools := s.pools ++ [(fnv1aHash key, ⟨key, s.getEffectivePoolConfig key⟩)] }

def allocate (stages : List StageType) : Result Unit × Scheduler :=
  match registerPools (requiredKeys stages) { s with stagePoolMap := fun _ => none } with
  | (.error e, s) => (.error e, s)
  | (.ok (), s) => (.ok (), { s with
      stagePoolMap := stages.foldl (fun map t => Function.update map t (some (stageTypeToPoolId t)))
        s.stagePoolMap })

def deallocate : Scheduler := { s with stagePoolMap := fun _ => none }

def poolFor (type : StageType) : Result Pool :=
  match s.stagePoolMap type with
  | none => fail .schedulerPoolNotFound "StageType not allocated -- call Allocate() first"
  | some id =>
    match s.pools.lookup id with
    | none => fail .schedulerPoolNotFound "WorkerPool not found in registry"
    | some pool => .ok pool

def step (s : Scheduler) : SchedulerCall → Scheduler
  | .overridePoolConfig key threads queueCapacity => s.overridePoolConfig key threads queueCapacity
  | .allocate stages => (s.allocate stages).2
  | .deallocate => s.deallocate

/-- The scheduler after some calls. -/
def after (calls : List SchedulerCall) : Scheduler := calls.foldl step create

/-! ### Registering pools -/

section Registering

variable {s s' : Scheduler} {stages : List StageType} {t : StageType} {pool : Pool}

/-- The kinds of stages that share a pool id share the pool's key. -/
theorem stageTypeToPoolKey_of_id {t t' : StageType}
    (h : stageTypeToPoolId t = stageTypeToPoolId t') :
    stageTypeToPoolKey t = stageTypeToPoolKey t' := by
  revert h
  cases t <;> cases t' <;> decide +kernel

theorem mem_requiredKeys {key : String} :
    key ∈ requiredKeys stages ↔ ∃ t ∈ stages, stageTypeToPoolKey t = key := by
  rw [requiredKeys, List.mem_insertionSort, List.mem_dedup, List.mem_map]

/-- The entry of a new pool. -/
def entry (s : Scheduler) (key : String) : TypeId × Pool :=
  (fnv1aHash key, ⟨key, s.getEffectivePoolConfig key⟩)

/-- Some of the pools, in order, are added to the registry, and all of them if nothing fails. -/
theorem registerPools_spec (keys : List String) (s : Scheduler) :
    ∃ taken, (registerPools keys s).2 = { s with pools := s.pools ++ taken.map s.entry } ∧
      ((s.pools.map Prod.fst).Nodup → ((registerPools keys s).2.pools.map Prod.fst).Nodup) ∧
      (hasValue (registerPools keys s).1 = true → taken = keys) := by
  induction keys generalizing s with
  | nil => exact ⟨[], by simp [registerPools], by simp [registerPools], by simp⟩
  | cons key keys ih =>
    rw [registerPools]
    split_ifs with hkey
    · exact ⟨[], by simp, by simp, by simp [fail]⟩
    · obtain ⟨taken, hs, hnodup, hall⟩ := ih { s with pools := s.pools ++ [s.entry key] }
      refine ⟨key :: taken, ?_, fun hold => ?_, fun hok => ?_⟩
      · rw [List.map_cons, List.append_cons s.pools _ (taken.map s.entry)]
        exact hs
      · apply hnodup
        rw [List.map_append]
        apply List.nodup_append.mpr
        refine ⟨hold, List.nodup_singleton _, fun id hid id' hid' => ?_⟩
        rw [List.mem_singleton.mp hid']
        rintro rfl
        exact hkey hid
      · rw [hall hok]

theorem lookup_of_mem {α β : Type*} [DecidableEq α] {entries : List (α × β)} {k : α} {v : β}
    (hnodup : (entries.map Prod.fst).Nodup) (h : (k, v) ∈ entries) :
    entries.lookup k = some v := by
  obtain ⟨front, back, rfl⟩ := List.append_of_mem h
  apply List.lookup_eq_some_iff.mpr
  refine ⟨front, back, rfl, fun e he => ?_⟩
  rw [List.map_append, List.map_cons] at hnodup
  have hne := (List.nodup_append.mp hnodup).2.2 e.1 (List.mem_map_of_mem he) k List.mem_cons_self
  simpa using Ne.symm hne

theorem foldl_update (f : StageType → Option TypeId) (map : StageType → Option TypeId) :
    stages.foldl (fun map t => Function.update map t (f t)) map t =
      if t ∈ stages then f t else map t := by
  induction stages generalizing map with
  | nil => simp
  | cons head rest ih =>
    rw [List.foldl_cons, ih, Function.update_apply]
    by_cases hhead : t = head
    · subst hhead
      simp
    · simp [hhead]

end Registering

/-! ### Runs -/

section Runs

variable {s : Scheduler} {stages : List StageType} {t : StageType} {pool : Pool}

structure Sound (s : Scheduler) : Prop where
  nodup : (s.pools.map Prod.fst).Nodup
  keyed : ∀ e ∈ s.pools, e.1 = fnv1aHash e.2.key

theorem Sound.allocate (h : s.Sound) (stages : List StageType) : (s.allocate stages).2.Sound := by
  obtain ⟨taken, hs, hnodup, -⟩ :=
    registerPools_spec (requiredKeys stages) { s with stagePoolMap := fun _ => none }
  have hsound : (registerPools (requiredKeys stages)
      { s with stagePoolMap := fun _ => none }).2.Sound := by
    refine ⟨hnodup h.nodup, fun e he => ?_⟩
    rw [hs] at he
    rcases List.mem_append.mp he with he | he
    · exact h.keyed e he
    · obtain ⟨key, -, rfl⟩ := List.mem_map.mp he
      rfl
  unfold Scheduler.allocate
  split
  · rename_i heq
    rw [heq] at hsound
    exact hsound
  · rename_i heq
    rw [heq] at hsound
    exact ⟨hsound.nodup, hsound.keyed⟩

theorem sound_after (calls : List SchedulerCall) : (after calls).Sound := by
  induction calls using List.reverseRecOn with
  | nil =>
    constructor
    · exact List.nodup_nil
    · intro e he
      cases he
  | append_singleton calls call ih =>
    rw [after, List.foldl_append]
    cases call with
    | overridePoolConfig key threads queueCapacity => exact ⟨ih.nodup, ih.keyed⟩
    | allocate stages => exact ih.allocate stages
    | deallocate => exact ⟨ih.nodup, ih.keyed⟩

/-- A failed call leaves no stage with a pool. -/
theorem poolFor_of_error (h : hasValue (s.allocate stages).1 = false) :
    (s.allocate stages).2.poolFor t ≠ .ok pool := by
  obtain ⟨taken, hs, -, -⟩ :=
    registerPools_spec (requiredKeys stages) { s with stagePoolMap := fun _ => none }
  revert h
  unfold Scheduler.allocate
  split
  · rename_i heq
    rw [heq] at hs
    intro _
    have hnone : ∀ s' : Scheduler, s'.stagePoolMap = (fun _ => none) → s'.poolFor t ≠ .ok pool := by
      intro s' hs'
      simp [poolFor, hs', fail]
    apply hnone
    rw [hs]
  · intro h
    cases h

/-- After a call that succeeds its stages have new pools of the sizes then in force. -/
theorem poolFor_of_ok (hsound : s.Sound) (h : hasValue (s.allocate stages).1 = true) :
    (s.allocate stages).2.poolFor t = .ok pool ↔
      t ∈ stages ∧ pool = ⟨stageTypeToPoolKey t, s.getEffectivePoolConfig (stageTypeToPoolKey t)⟩ := by
  obtain ⟨taken, hs, hnodup, hall⟩ :=
    registerPools_spec (requiredKeys stages) { s with stagePoolMap := fun _ => none }
  revert h
  unfold Scheduler.allocate
  split
  · intro h
    cases h
  · rename_i s' heq
    intro _
    rw [heq] at hs hnodup hall
    obtain rfl := hall rfl
    obtain rfl : s' = _ := hs
    simp only [poolFor, foldl_update]
    by_cases ht : t ∈ stages
    · have hkey : stageTypeToPoolKey t ∈ requiredKeys stages := mem_requiredKeys.mpr ⟨t, ht, rfl⟩
      have hlookup : (s.pools ++ (requiredKeys stages).map s.entry).lookup (stageTypeToPoolId t) =
          some (s.entry (stageTypeToPoolKey t)).2 :=
        lookup_of_mem (hnodup hsound.nodup) (List.mem_append_right s.pools
          (List.mem_map_of_mem (f := s.entry) hkey))
      simp only [ht, if_true, true_and]
      show (match (s.pools ++ (requiredKeys stages).map s.entry).lookup (stageTypeToPoolId t) with
        | none => _
        | some pool => Except.ok pool) = _ ↔ _
      rw [hlookup]
      exact ⟨fun h => (Except.ok.inj h).symm, fun h => h ▸ rfl⟩
    · simp [ht, fail]

/-- The last call of `Allocate` or `Deallocate`, if it is an `Allocate` that succeeds, with the
calls before it. -/
def Allocated (calls : List SchedulerCall) (before : List SchedulerCall)
    (stages : List StageType) : Prop :=
  ∃ overrides, calls = before ++ .allocate stages :: overrides ∧
    (∀ c ∈ overrides, ∃ key threads capacity, c = .overridePoolConfig key threads capacity) ∧
      hasValue ((after before).allocate stages).1 = true

theorem allocated_concat {calls before : List SchedulerCall} {call : SchedulerCall} :
    Allocated (calls ++ [call]) before stages ↔
      (call = .allocate stages ∧ calls = before ∧
        hasValue ((after before).allocate stages).1 = true) ∨
      (∃ key threads capacity, call = .overridePoolConfig key threads capacity) ∧
        Allocated calls before stages := by
  constructor
  · rintro ⟨overrides, hcalls, hall, hok⟩
    rcases List.eq_nil_or_concat overrides with rfl | ⟨front, last, rfl⟩
    · obtain ⟨rfl, hcall⟩ := List.append_inj' hcalls rfl
      exact .inl ⟨List.singleton_inj.mp hcall, rfl, hok⟩
    · rw [List.concat_eq_append] at hcalls hall
      rw [← List.cons_append, ← List.append_assoc] at hcalls
      obtain ⟨rfl, hcall⟩ := List.append_inj' hcalls rfl
      rw [List.singleton_inj.mp hcall]
      refine .inr ⟨hall last (by simp), front, rfl, fun c hc => hall c (by simp [hc]), hok⟩
  · rintro (⟨rfl, rfl, hok⟩ | ⟨hcall, overrides, rfl, hall, hok⟩)
    · exact ⟨[], rfl, by simp, hok⟩
    · refine ⟨overrides ++ [call], by simp, fun c hc => ?_, hok⟩
      rcases List.mem_append.mp hc with hc | hc
      · exact hall c hc
      · rw [List.mem_singleton.mp hc]
        exact hcall

/-- A stage has a pool exactly from an `Allocate` that names it and succeeds to the next call of
`Allocate` or `Deallocate`: the pool that was made for it then. -/
theorem poolFor_iff (calls : List SchedulerCall) (t : StageType) (pool : Pool) :
    (after calls).poolFor t = .ok pool ↔ ∃ before stages, Allocated calls before stages ∧
      t ∈ stages ∧ pool = ⟨stageTypeToPoolKey t,
        (after before).getEffectivePoolConfig (stageTypeToPoolKey t)⟩ := by
  induction calls using List.reverseRecOn with
  | nil =>
    refine iff_of_false (by simp [after, create, poolFor, fail]) ?_
    rintro ⟨before, stages, ⟨overrides, hcalls, -⟩, -⟩
    simp at hcalls
  | append_singleton calls call ih =>
    have hafter : after (calls ++ [call]) = (after calls).step call := by
      rw [after, List.foldl_append]
      rfl
    rw [hafter]
    simp only [allocated_concat]
    cases call with
    | overridePoolConfig key threads capacity =>
      have hkeep : ((after calls).step (.overridePoolConfig key threads capacity)).poolFor t =
          (after calls).poolFor t := rfl
      rw [hkeep, ih]
      simp
    | deallocate =>
      refine iff_of_false (by simp [step, deallocate, poolFor, fail]) ?_
      simp
    | allocate stages =>
      simp only [step]
      cases hok : hasValue ((after calls).allocate stages).1 with
      | false =>
        refine iff_of_false (poolFor_of_error hok) ?_
        rintro ⟨before, stages', ⟨hcall, rfl, hok'⟩ | ⟨⟨_, _, _, hcall⟩, -⟩, -⟩
        · obtain rfl := SchedulerCall.allocate.inj hcall
          rw [hok] at hok'
          cases hok'
        · cases hcall
      | true =>
        rw [poolFor_of_ok (sound_after calls) hok]
        constructor
        · rintro ⟨ht, hpool⟩
          exact ⟨calls, stages, .inl ⟨rfl, rfl, hok⟩, ht, hpool⟩
        · rintro ⟨before, stages', ⟨hcall, rfl, -⟩ | ⟨⟨_, _, _, hcall⟩, -⟩, ht, hpool⟩
          · obtain rfl := SchedulerCall.allocate.inj hcall
            exact ⟨ht, hpool⟩
          · cases hcall

/-- No call takes a pool out of the registry. -/
theorem pools_step (s : Scheduler) (call : SchedulerCall) : s.pools <+: (s.step call).pools := by
  cases call with
  | overridePoolConfig key threads capacity => exact List.prefix_refl _
  | deallocate => exact List.prefix_refl _
  | allocate stages =>
    obtain ⟨taken, hs, -, -⟩ :=
      registerPools_spec (requiredKeys stages) { s with stagePoolMap := fun _ => none }
    have hpools : s.pools <+: (registerPools (requiredKeys stages)
        { s with stagePoolMap := fun _ => none }).2.pools := by
      rw [hs]
      exact List.prefix_append ..
    simp only [step, Scheduler.allocate]
    split
    · rename_i heq
      rw [heq] at hpools
      exact hpools
    · rename_i heq
      rw [heq] at hpools
      exact hpools

theorem pools_after (calls more : List SchedulerCall) :
    (after calls).pools <+: (after (calls ++ more)).pools := by
  rw [after, after, List.foldl_append]
  generalize calls.foldl step create = s
  induction more generalizing s with
  | nil => exact List.prefix_refl _
  | cons call more ih => exact (pools_step s call).trans (ih (s.step call))

/-- What an `Allocate` that succeeds does to the registry. -/
theorem pools_of_ok (h : hasValue (s.allocate stages).1 = true) :
    (s.allocate stages).2.pools = s.pools ++ (requiredKeys stages).map s.entry := by
  obtain ⟨taken, hs, -, hall⟩ :=
    registerPools_spec (requiredKeys stages) { s with stagePoolMap := fun _ => none }
  revert h
  unfold Scheduler.allocate
  split
  · intro h
    cases h
  · rename_i s' heq
    intro _
    rw [heq] at hs hall
    obtain rfl := hall rfl
    obtain rfl : s' = _ := hs
    rfl

theorem mem_pools_of_ok (h : hasValue (s.allocate stages).1 = true) (ht : t ∈ stages) :
    stageTypeToPoolId t ∈ (s.allocate stages).2.pools.map Prod.fst := by
  rw [pools_of_ok h, List.map_append]
  apply List.mem_append_right
  rw [List.map_map]
  exact List.mem_map.mpr ⟨stageTypeToPoolKey t, mem_requiredKeys.mpr ⟨t, ht, rfl⟩, rfl⟩

/-- A pool is made once. An `Allocate` that needs one a second time fails, `Deallocate` or not, and
takes the pools from all stages. -/
theorem allocate_again_fails {before : List SchedulerCall} {stages : List StageType}
    (hok : hasValue ((after before).allocate stages).1 = true) (between : List SchedulerCall)
    {again : List StageType} {t t' : StageType} (ht : t ∈ stages) (ht' : t' ∈ again)
    (hkey : stageTypeToPoolKey t = stageTypeToPoolKey t') :
    hasValue ((after (before ++ .allocate stages :: between)).allocate again).1 = false ∧
      ∀ type pool, (after (before ++ .allocate stages :: between ++
        [.allocate again])).poolFor type ≠ .ok pool := by
  have hmem : stageTypeToPoolId t' ∈
      (after (before ++ .allocate stages :: between)).pools.map Prod.fst := by
    have hid : stageTypeToPoolId t' = stageTypeToPoolId t := by
      rw [stageTypeToPoolId, stageTypeToPoolId, hkey]
    have hpools := pools_after (before ++ [.allocate stages]) between
    rw [List.append_assoc, List.singleton_append] at hpools
    rw [hid]
    refine (hpools.map Prod.fst).subset ?_
    have hfirst : after (before ++ [.allocate stages]) = ((after before).allocate stages).2 := by
      rw [after, List.foldl_append]
      rfl
    rw [hfirst]
    exact mem_pools_of_ok hok ht
  have hfails : hasValue ((after (before ++ .allocate stages :: between)).allocate again).1 =
      false := by
    by_contra hc
    rw [Bool.not_eq_false] at hc
    have hnodup := ((sound_after (before ++ .allocate stages :: between)).allocate again).nodup
    rw [pools_of_ok hc, List.map_append, List.map_map] at hnodup
    refine (List.nodup_append.mp hnodup).2.2 _ hmem (stageTypeToPoolId t') ?_ rfl
    exact List.mem_map.mpr ⟨stageTypeToPoolKey t', mem_requiredKeys.mpr ⟨t', ht', rfl⟩, rfl⟩
  refine ⟨hfails, fun type pool => ?_⟩
  rw [after, List.foldl_append]
  exact poolFor_of_error hfails

/-- Captured frames are preprocessed in the pool they were captured in. -/
theorem allocate_again_fails_capture :
    hasValue ((after [.allocate [.capture, .inference], .deallocate]).allocate
        [.preprocess]).1 = false ∧
      ∀ type pool, (after [.allocate [.capture, .inference], .deallocate,
        .allocate [.preprocess]]).poolFor type ≠ .ok pool :=
  @allocate_again_fails [] _ (by decide +kernel) [.deallocate] _ .capture .preprocess (by decide)
    (List.mem_singleton.mpr rfl) rfl

end Runs

end Scheduler

end SurfaceAi.Pipeline
