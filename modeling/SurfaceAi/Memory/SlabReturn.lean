import SurfaceAi.Memory.HandleLocks

/-! Every slab is on the free list, on the way with one thread, or held, and its count is the
number of live handles to it. -/

namespace SurfaceAi.Memory

namespace HandlePool

variable {T H : Type*} [DecidableEq T] [DecidableEq H] {region : SlabRegion}
variable {s : HandlePool T H}

omit [DecidableEq T] in
theorem holders_setHandle (h : H) (handle : Option PooledPtr) (node : ℕ) :
    (s.setHandle h handle).holders node =
      if PooledPtr.slab handle = some node then insert h (s.holders node)
      else s.holders node \ {h} := by
  ext x
  by_cases hx : x = h
  · subst hx
    split_ifs with hslab <;> simp [holders, HandlePool.setHandle, hslab]
  · split_ifs <;> simp [holders, HandlePool.setHandle, hx]

omit [DecidableEq T] in
theorem holders_setHandle_of_blank {h : H} {handle : Option PooledPtr}
    (hold : PooledPtr.slab (s.handles h) = none) (hnew : PooledPtr.slab handle = none) (node : ℕ) :
    (s.setHandle h handle).holders node = s.holders node := by
  have hmem : h ∉ s.holders node := by
    rw [holders, Set.mem_ofPred_eq, hold]
    exact fun hx => Option.some_ne_none node hx.symm
  rw [holders_setHandle, hnew, if_neg (fun hx => Option.some_ne_none node hx.symm),
    Set.sdiff_singleton_eq_self hmem]

omit [DecidableEq T] [DecidableEq H] in
theorem mem_holders {h : H} {node : ℕ} :
    h ∈ s.holders node ↔ PooledPtr.slab (s.handles h) = some node := Iff.rfl

omit [DecidableEq T] in
/-- A handle that takes a slab is a further holder of it. -/
theorem holders_setHandle_some {h : H} {handle : Option PooledPtr} {node : ℕ}
    (hold : PooledPtr.slab (s.handles h) = none) (hnew : PooledPtr.slab handle = some node) :
    (s.setHandle h handle).holders node = insert h (s.holders node) ∧
      ∀ x ≠ node, (s.setHandle h handle).holders x = s.holders x := by
  refine ⟨by rw [holders_setHandle, if_pos hnew], fun x hx => ?_⟩
  rw [holders_setHandle, hnew, if_neg fun heq => hx (Option.some.inj heq).symm,
    Set.sdiff_singleton_eq_self]
  rw [mem_holders, hold]
  exact fun heq => Option.some_ne_none x heq.symm

omit [DecidableEq T] in
/-- A handle that is cleared is a holder no more. -/
theorem holders_setHandle_none {h : H} {handle : Option PooledPtr} {node : ℕ}
    (hold : PooledPtr.slab (s.handles h) = some node) (hnew : PooledPtr.slab handle = none) :
    (s.setHandle h handle).holders node = s.holders node \ {h} ∧
      ∀ x ≠ node, (s.setHandle h handle).holders x = s.holders x := by
  have hif : ∀ x, (s.setHandle h handle).holders x = s.holders x \ {h} := fun x => by
    rw [holders_setHandle, hnew, if_neg fun heq => Option.some_ne_none x heq.symm]
  refine ⟨hif node, fun x hx => ?_⟩
  rw [hif, Set.sdiff_singleton_eq_self]
  rw [mem_holders, hold]
  exact fun heq => hx (Option.some.inj heq).symm

omit [DecidableEq T] [DecidableEq H] in
theorem setCount_refCount_self (node : ℕ) (count : Int32) :
    (s.setCount node count).refCount node = count := Function.update_self ..

omit [DecidableEq T] [DecidableEq H] in
theorem setCount_refCount_of_ne {node x : ℕ} (count : Int32) (h : x ≠ node) :
    (s.setCount node count).refCount x = s.refCount x := Function.update_of_ne h ..

end HandlePool

/-- Where a slab is. -/
inductive Place (T : Type*) where
  | free
  | carried (t : T)
  | held

namespace HandlePool

variable {T H : Type*} [DecidableEq T] [DecidableEq H] (region : SlabRegion)
variable (s : HandlePool T H)

/-- Every slab of the pool is in one place, and a count is that of the handles. -/
structure Placed (place : ℕ → Option (Place T)) : Prop where
  bound : ∀ node, place node ≠ none ↔ node < region.slabCount.toNat
  nodup : s.free.Nodup
  free : ∀ node, node ∈ s.free ↔ place node = some .free
  carried : ∀ t node, (s.phase t).carries = some node ↔ place node = some (.carried t)
  held : ∀ node, (s.holders node).Nonempty ↔ place node = some .held
  finite : ∀ node, (s.holders node).Finite
  count : ∀ node, (s.holders node).Nonempty →
    (s.refCount node).toInt = (s.holders node).ncard

variable {region s} {place : ℕ → Option (Place T)}

omit [DecidableEq H] in
theorem Placed.turn (hs : s.Placed region place) {t : T} {phase : HandlePhase H}
    (hphase : phase.carries = (s.phase t).carries) :
    (s.setPhase t phase).Placed region place where
  bound := hs.bound
  nodup := hs.nodup
  free := hs.free
  carried t' node := by
    rw [HandlePool.setPhase, ← hs.carried t' node]
    dsimp only
    rw [Function.update_apply]
    split_ifs with ht
    · rw [hphase, ht]
    · rfl
  held := hs.held
  finite := hs.finite
  count := hs.count

omit [DecidableEq T] in
theorem Placed.blank (hs : s.Placed region place) {h : H} {handle : Option PooledPtr}
    (hold : PooledPtr.slab (s.handles h) = none) (hnew : PooledPtr.slab handle = none) :
    (s.setHandle h handle).Placed region place where
  bound := hs.bound
  nodup := hs.nodup
  free := hs.free
  carried := hs.carried
  held node := by rw [holders_setHandle_of_blank hold hnew, hs.held]
  finite node := by rw [holders_setHandle_of_blank hold hnew]; exact hs.finite node
  count node := by rw [holders_setHandle_of_blank hold hnew]; exact hs.count node

omit [DecidableEq H] in
/-- A slab goes to another place in a step of one thread, or it stays held. -/
theorem Placed.relocate {s' : HandlePool T H} {node : ℕ} {old new : Place T} {t : T}
    {phase : HandlePhase H} {after : Set H} {count : Int32} (hs : s.Placed region place)
    (hplace : place node = some old) (hnodup : s'.free.Nodup)
    (hfree : ∀ x, x ∈ s'.free ↔ if x = node then new = .free else x ∈ s.free)
    (hphase : s'.phase = Function.update s.phase t phase)
    (hold : (s.phase t).carries = some node ∧ old = .carried t ∨
      (s.phase t).carries = none ∧ (old = .free ∨ old = .held))
    (hnew : phase.carries = some node ∧ new = .carried t ∨
      phase.carries = none ∧ (new = .free ∨ new = .held))
    (hafter : s'.holders node = after) (hholders : ∀ x ≠ node, s'.holders x = s.holders x)
    (hheld : after.Nonempty ↔ new = .held) (hfinite : after.Finite)
    (hself : s'.refCount node = count) (hcounts : ∀ x ≠ node, s'.refCount x = s.refCount x)
    (hcount : after.Nonempty → count.toInt = after.ncard) :
    s'.Placed region (Function.update place node (some new)) where
  bound x := by
    by_cases hx : x = node
    · simp [hx, ← hs.bound node, hplace]
    · rw [Function.update_of_ne hx]
      exact hs.bound x
  nodup := hnodup
  free x := by
    rw [hfree x]
    by_cases hx : x = node
    · simp [hx]
    · rw [if_neg hx, Function.update_of_ne hx]
      exact hs.free x
  carried t' x := by
    have hcarried := hs.carried t' x
    rw [hphase]
    grind [Function.update_apply]
  held x := by
    by_cases hx : x = node
    · rw [hx, hafter, hheld, Function.update_self, Option.some_inj]
    · rw [hholders x hx, Function.update_of_ne hx]
      exact hs.held x
  finite x := by
    by_cases hx : x = node
    · rw [hx, hafter]
      exact hfinite
    · rw [hholders x hx]
      exact hs.finite x
  count x := by
    by_cases hx : x = node
    · rw [hx, hafter, hself]
      exact hcount
    · rw [hholders x hx, hcounts x hx]
      exact hs.count x

omit [DecidableEq T] [DecidableEq H] in
theorem Placed.lt (hs : s.Placed region place) {node : ℕ} {old : Place T}
    (h : place node = some old) : node < region.slabCount.toNat :=
  (hs.bound node).mp fun hnone => Option.some_ne_none old (h.symm.trans hnone)

omit [DecidableEq T] [DecidableEq H] in
theorem Placed.holders_eq_empty (hs : s.Placed region place) {node : ℕ} {old : Place T}
    (h : place node = some old) (hne : old ≠ .held) : s.holders node = ∅ := by
  rw [← Set.not_nonempty_iff_eq_empty, hs.held, h]
  exact fun heq => hne (Option.some.inj heq)

omit [DecidableEq T] [DecidableEq H] in
theorem Placed.mem_free (hs : s.Placed region place) {node : ℕ} {old : Place T}
    (h : place node = some old) : node ∈ s.free ↔ old = .free := by
  rw [hs.free, h, Option.some_inj]

omit [DecidableEq T] [DecidableEq H] in
/-- The free list of a step that leaves it alone. -/
theorem Placed.mem_free_of_same (hs : s.Placed region place) {node : ℕ} {old new : Place T}
    (h : place node = some old) (hold : old ≠ .free) (hnew : new ≠ .free) (x : ℕ) :
    x ∈ s.free ↔ if x = node then new = .free else x ∈ s.free := by
  split_ifs with hx
  · rw [hx, hs.mem_free h]
    exact iff_of_false hold hnew
  · rfl

theorem toInt_add_one {count : Int32} (h : count ≠ Int32.maxValue) :
    (count + 1).toInt = count.toInt + 1 := by
  have hne : count.toInt ≠ 2 ^ 31 - 1 := fun heq => h (Int32.toInt_inj.mp heq)
  have hlt := count.toInt_lt
  have hle := count.le_toInt
  rw [Int32.toInt_add, show (1 : Int32).toInt = 1 from rfl, Int.bmod_eq_of_le] <;> omega

theorem toInt_sub_one {count : Int32} (h : 0 < count.toInt) :
    (count - 1).toInt = count.toInt - 1 := by
  have hlt := count.toInt_lt
  rw [Int32.toInt_sub, show (1 : Int32).toInt = 1 from rfl, Int.bmod_eq_of_le] <;> omega

omit [DecidableEq H] in
theorem Placed.pop (hs : s.Placed region place) {t : T} {h : H} {node : ℕ} {free : List ℕ}
    (hidle : s.phase t = .idle) (hfree : s.free = node :: free) :
    ({ s with free := free }.setPhase t (.popped h node)).Placed region
      (Function.update place node (some (.carried t))) := by
  have hnodup := hs.nodup
  rw [hfree, List.nodup_cons] at hnodup
  have hplace : place node = some .free := (hs.free node).mp (hfree ▸ List.mem_cons_self)
  have hempty := hs.holders_eq_empty hplace (by simp)
  refine hs.relocate hplace hnodup.2 (fun x => ?_) rfl
    (.inr ⟨by rw [hidle]; rfl, .inl rfl⟩) (.inl ⟨rfl, rfl⟩) hempty (fun _ _ => rfl)
    (iff_of_false Set.not_nonempty_empty (by simp)) Set.finite_empty rfl (fun _ _ => rfl)
    fun hne => absurd hne Set.not_nonempty_empty
  rw [hfree, List.mem_cons]
  by_cases hx : x = node <;> simp [hx, hnodup.1, HandlePool.setPhase]

omit [DecidableEq T] [DecidableEq H] in
/-- The number of free slabs is kept apart from the slabs. -/
theorem Placed.setAvailable (hs : s.Placed region place) (n : UInt64) :
    ({ s with available := n } : HandlePool T H).Placed region place :=
  ⟨hs.bound, hs.nodup, hs.free, hs.carried, hs.held, hs.finite, hs.count⟩

theorem Placed.give (hs : s.Placed region place) (hfits : region.Fits) {t : T} {h : H} {node : ℕ}
    (hphase : s.phase t = .counted h node) (hblank : PooledPtr.slab (s.handles h) = none) :
    (((s.setCount node 1).setHandle h (some (region.makeHandle node))).setPhase t .idle).Placed
      region (Function.update place node (some .held)) := by
  have hcarries : (s.phase t).carries = some node := by rw [hphase]; rfl
  have hplace := (hs.carried t node).mp hcarries
  obtain ⟨hnode, hothers⟩ := holders_setHandle_some hblank
    (hfits.slab_makeHandle (hs.lt hplace))
  rw [hs.holders_eq_empty hplace (by simp), insert_empty_eq] at hnode
  refine hs.relocate hplace hs.nodup (hs.mem_free_of_same hplace (by simp) (by simp)) rfl
    (.inl ⟨hcarries, rfl⟩) (.inr ⟨rfl, .inr rfl⟩) hnode hothers
    (iff_of_true (Set.singleton_nonempty h) rfl) (Set.finite_singleton h)
    (setCount_refCount_self node 1) (fun x hx => setCount_refCount_of_ne 1 hx) fun _ => ?_
  rw [Set.ncard_singleton]
  rfl

omit [DecidableEq H] in
/-- The count of a slab changes with its holders, and it stays in use. -/
theorem Placed.recount {s' : HandlePool T H} {node : ℕ} {t : T} {phase : HandlePhase H}
    {after : Set H} {count : Int32} (hs : s.Placed region place)
    (hheld : (s.holders node).Nonempty) (hfree : s'.free = s.free)
    (hphase : s'.phase = Function.update s.phase t phase)
    (hold : (s.phase t).carries = none) (hnew : phase.carries = none)
    (hafter : s'.holders node = after) (hholders : ∀ x ≠ node, s'.holders x = s.holders x)
    (hnonempty : after.Nonempty) (hfinite : after.Finite)
    (hself : s'.refCount node = count) (hcounts : ∀ x ≠ node, s'.refCount x = s.refCount x)
    (hcount : count.toInt = after.ncard) : s'.Placed region place := by
  have hplace := (hs.held node).mp hheld
  have hs' := hs.relocate hplace (hfree ▸ hs.nodup)
    (fun x => hfree ▸ hs.mem_free_of_same hplace (by simp) (by simp) x) hphase
    (.inr ⟨hold, .inr rfl⟩) (.inr ⟨hnew, .inr rfl⟩) hafter hholders
    (iff_of_true hnonempty rfl) hfinite hself hcounts fun _ => hcount
  rwa [Function.update_eq_self_iff.mpr hplace.symm] at hs'

theorem Placed.drop (hs : s.Placed region place) {t : T} {h : H} {rest : Rest H} {node : ℕ}
    (hphase : s.phase t = .dropping h rest) (hslab : PooledPtr.slab (s.handles h) = some node)
    (hcount : s.refCount node ≠ 1) :
    (((s.setCount node (s.refCount node - 1)).setHandle h (some .empty)).setPhase t
      (.resuming rest)).Placed region place := by
  have hmem : h ∈ s.holders node := hslab
  have hfinite := hs.finite node
  have hncard := hs.count node ⟨h, hmem⟩
  have hpos := (Set.ncard_pos hfinite).mpr ⟨h, hmem⟩
  have hone : (s.refCount node).toInt ≠ 1 := fun heq => hcount (Int32.toInt_inj.mp heq)
  have hdiff := Set.ncard_sdiff_singleton_of_mem hmem
  obtain ⟨hnode, hothers⟩ := holders_setHandle_none hslab PooledPtr.slab_empty
  refine hs.recount ⟨h, hmem⟩ rfl rfl (by rw [hphase]; rfl) rfl hnode hothers ?_ hfinite.sdiff
    (setCount_refCount_self node _) (fun x hx => setCount_refCount_of_ne _ hx) ?_
  · rw [← Set.ncard_pos hfinite.sdiff]
    omega
  · rw [toInt_sub_one (by omega)]
    omega

theorem Placed.dropLast (hs : s.Placed region place) {t : T} {h : H} {rest : Rest H} {node : ℕ}
    (hphase : s.phase t = .dropping h rest) (hslab : PooledPtr.slab (s.handles h) = some node)
    (hcount : s.refCount node = 1) :
    (((s.setCount node (s.refCount node - 1)).setHandle h (some .empty)).setPhase t
      (.pushing (some node) rest)).Placed region
        (Function.update place node (some (.carried t))) := by
  have hmem : h ∈ s.holders node := hslab
  have hfinite := hs.finite node
  have hncard := hs.count node ⟨h, hmem⟩
  rw [hcount, show (1 : Int32).toInt = 1 from rfl] at hncard
  have hplace := (hs.held node).mp ⟨h, hmem⟩
  have hdiff := Set.ncard_sdiff_singleton_of_mem hmem
  have hempty : s.holders node \ {h} = ∅ := by
    rw [← Set.ncard_eq_zero hfinite.sdiff]
    omega
  obtain ⟨hnode, hothers⟩ := holders_setHandle_none hslab PooledPtr.slab_empty
  rw [hempty] at hnode
  exact hs.relocate hplace hs.nodup (hs.mem_free_of_same hplace (by simp) (by simp)) rfl
    (.inr ⟨by rw [hphase]; rfl, .inr rfl⟩) (.inl ⟨rfl, rfl⟩) hnode hothers
    (iff_of_false Set.not_nonempty_empty (by simp)) Set.finite_empty
    (setCount_refCount_self node _) (fun x hx => setCount_refCount_of_ne _ hx)
    fun hne => absurd hne Set.not_nonempty_empty

omit [DecidableEq H] in
theorem Placed.push (hs : s.Placed region place) {t : T} {rest : Rest H} {node : ℕ}
    (hphase : s.phase t = .pushing (some node) rest) :
    ({ s with free := node :: s.free }.setPhase t (.adding rest)).Placed region
      (Function.update place node (some .free)) := by
  have hcarries : (s.phase t).carries = some node := by rw [hphase]; rfl
  have hplace := (hs.carried t node).mp hcarries
  have hempty := hs.holders_eq_empty hplace (by simp)
  have hnot : node ∉ s.free := (hs.mem_free hplace).not.mpr (by simp)
  refine hs.relocate hplace (List.nodup_cons.mpr ⟨hnot, hs.nodup⟩) (fun x => ?_) rfl
    (.inl ⟨hcarries, rfl⟩) (.inr ⟨rfl, .inl rfl⟩) hempty (fun _ _ => rfl)
    (iff_of_false Set.not_nonempty_empty (by simp)) Set.finite_empty rfl (fun _ _ => rfl)
    fun hne => absurd hne Set.not_nonempty_empty
  by_cases hx : x = node <;> simp [hx, HandlePool.setPhase]

theorem Placed.copy (hs : s.Placed region place) {t : T} {dst src : H} {node : ℕ}
    (hphase : s.phase t = .resuming (.copyFrom dst src))
    (hdst : PooledPtr.slab (s.handles dst) = none)
    (hsrc : PooledPtr.slab (s.handles src) = some node)
    (hcount : s.refCount node ≠ Int32.maxValue) :
    (((s.setCount node (s.refCount node + 1)).setHandle dst (s.handles src)).setPhase t
      .idle).Placed region place := by
  have hmem : src ∈ s.holders node := hsrc
  have hfinite := hs.finite node
  have hncard := hs.count node ⟨src, hmem⟩
  have hnot : dst ∉ s.holders node := fun h => Option.some_ne_none node (h.symm.trans hdst)
  obtain ⟨hnode, hothers⟩ := holders_setHandle_some hdst hsrc
  refine hs.recount ⟨src, hmem⟩ rfl rfl (by rw [hphase]; rfl) rfl hnode hothers
    (Set.insert_nonempty dst _) (hfinite.insert dst) (setCount_refCount_self node _)
    (fun x hx => setCount_refCount_of_ne _ hx) ?_
  rw [toInt_add_one hcount, Set.ncard_insert_of_notMem hnot hfinite]
  omega

theorem Placed.move (hs : s.Placed region place) {t : T} {dst src : H}
    (hphase : s.phase t = .resuming (.moveFrom dst src))
    (hdst : PooledPtr.slab (s.handles dst) = none) (hne : dst ≠ src) :
    (((s.setHandle dst (s.handles src)).setHandle src (some .empty)).setPhase t .idle).Placed
      region place := by
  have hcarries : (s.phase t).carries = none := by rw [hphase]; rfl
  have hsame : (s.setHandle dst (s.handles src)).handles src = s.handles src :=
    Function.update_of_ne hne.symm ..
  cases hsrc : PooledPtr.slab (s.handles src) with
  | none =>
    have hblank := (hs.blank hdst hsrc).blank (hsame ▸ hsrc) PooledPtr.slab_empty
    exact hblank.turn hcarries.symm
  | some node =>
    have hmem : src ∈ s.holders node := hsrc
    have hfinite := hs.finite node
    have hnot : dst ∉ s.holders node := fun h => Option.some_ne_none node (h.symm.trans hdst)
    obtain ⟨hinsert, hothers⟩ := holders_setHandle_some hdst hsrc
    obtain ⟨hdiff, hothers'⟩ := holders_setHandle_none (hsame ▸ hsrc) PooledPtr.slab_empty
    rw [hinsert] at hdiff
    refine hs.recount ⟨src, hmem⟩ rfl rfl hcarries rfl hdiff
      (fun x hx => (hothers' x hx).trans (hothers x hx)) ⟨dst, Set.mem_insert .., hne⟩
      (hfinite.insert dst).sdiff rfl (fun _ _ => rfl) ?_
    rw [Set.ncard_exchange' hnot hmem]
    exact hs.count node ⟨src, hmem⟩

theorem StepTo.placed {a : HandleAction T H} {s' : HandlePool T H} (h : StepTo region s a s')
    (hs : s.Placed region place) (hfits : region.Fits) (hguard : s.Countable a) :
    ∃ place', s'.Placed region place' := by
  cases h with
  | turn hcarries howes => exact ⟨_, hs.turn hcarries⟩
  | blank hold hnew hcarries howes => exact ⟨_, (hs.blank hold hnew).turn hcarries⟩
  | pop hidle hfree => exact ⟨_, hs.pop hidle hfree⟩
  | count hphase => exact ⟨_, (hs.setAvailable _).turn (congrArg HandlePhase.carries hphase).symm⟩
  | give hphase hblank => exact ⟨_, hs.give hfits hphase hblank⟩
  | drop hphase hslab hcount => exact ⟨_, hs.drop hphase hslab hcount⟩
  | dropLast hphase hslab hcount => exact ⟨_, hs.dropLast hphase hslab hcount⟩
  | push hphase => exact ⟨_, hs.push hphase⟩
  | add hphase => exact ⟨_, (hs.setAvailable _).turn (congrArg HandlePhase.carries hphase).symm⟩
  | @copy t dst src node hphase hdst hsrc =>
    refine ⟨_, hs.copy hphase hdst hsrc (hguard node ?_)⟩
    obtain ⟨p, hp, hcount⟩ := Option.bind_eq_some_iff.mp hsrc
    rw [adds, hphase]
    refine Option.bind_eq_some_iff.mpr ⟨p, hp, ?_⟩
    exact (Option.ite_none_left_eq_some.mp hcount).2
  | move hphase hdst hne => exact ⟨_, hs.move hphase hdst hne⟩

section Balance

variable [Fintype T]

variable (s) in
/-- The number of free slabs is that of the free list but for the threads between the two. -/
def Balanced : Prop :=
  (s.available.toNat : ℤ) ≡ s.free.length + ∑ t, (s.phase t).owes [ZMOD 2 ^ 64]

omit [DecidableEq H] in
theorem sum_owes_update (t : T) (phase : HandlePhase H) :
    ∑ t', (Function.update s.phase t phase t').owes =
      ∑ t', (s.phase t').owes + phase.owes - (s.phase t).owes := by
  have hcomp := Function.comp_update HandlePhase.owes s.phase t phase
  have hsum := Finset.sum_update_of_mem (Finset.mem_univ t) (HandlePhase.owes ∘ s.phase) phase.owes
  rw [← hcomp] at hsum
  have hall := Finset.add_sum_erase Finset.univ (HandlePhase.owes ∘ s.phase) (Finset.mem_univ t)
  rw [Finset.sdiff_singleton_eq_erase] at hsum
  simp only [Function.comp_apply] at hsum hall
  omega

omit [DecidableEq H] in
theorem Balanced.of_step {s' : HandlePool T H} {t : T} {phase : HandlePhase H} {d : ℤ}
    (hs : s.Balanced) (hphase : s'.phase = Function.update s.phase t phase)
    (havailable : (s'.available.toNat : ℤ) ≡ s.available.toNat + d [ZMOD 2 ^ 64])
    (hfree : (s'.free.length : ℤ) + phase.owes = s.free.length + (s.phase t).owes + d) :
    s'.Balanced := by
  refine havailable.trans ((hs.add_right d).trans ?_)
  rw [hphase, sum_owes_update]
  exact congrArg (· % 2 ^ 64) (by omega)

omit [DecidableEq H] in
theorem Balanced.of_same {s' : HandlePool T H} {t : T} {phase : HandlePhase H}
    (hs : s.Balanced) (hphase : s'.phase = Function.update s.phase t phase)
    (havailable : s'.available = s.available) (hfree : s'.free = s.free)
    (howes : phase.owes = (s.phase t).owes) : s'.Balanced := by
  refine hs.of_step (d := 0) hphase ?_ ?_
  · rw [havailable, add_zero]
  · rw [hfree, howes, add_zero]

theorem toNat_sub_one (n : UInt64) : ((n - 1).toNat : ℤ) ≡ n.toNat + -1 [ZMOD 2 ^ 64] := by
  rw [UInt64.toNat_sub, Int.ModEq]
  have := n.toNat_lt
  simp only [UInt64.toNat_one]
  omega

theorem toNat_add_one (n : UInt64) : ((n + 1).toNat : ℤ) ≡ n.toNat + 1 [ZMOD 2 ^ 64] := by
  rw [UInt64.toNat_add, Int.ModEq]
  simp only [UInt64.toNat_one]
  omega

theorem StepTo.balanced {a : HandleAction T H} {s' : HandlePool T H} (h : StepTo region s a s')
    (hs : s.Balanced) : s'.Balanced := by
  cases h with
  | turn hcarries howes => exact hs.of_same rfl rfl rfl howes
  | blank hold hnew hcarries howes => exact hs.of_same rfl rfl rfl howes
  | @pop a t h node free hidle hfree =>
    refine hs.of_step (d := 0) rfl (by rw [add_zero]; rfl) ?_
    change (free.length : ℤ) + 1 = s.free.length + (s.phase t).owes + 0
    rw [hfree, hidle, List.length_cons, Nat.cast_succ]
    rfl
  | @count t h node hphase =>
    refine hs.of_step rfl (toNat_sub_one s.available) ?_
    rw [hphase]
    change (s.free.length : ℤ) + 0 = s.free.length + 1 + -1
    omega
  | give hphase hblank => exact hs.of_same rfl rfl rfl (congrArg HandlePhase.owes hphase).symm
  | drop hphase hslab hcount =>
    exact hs.of_same rfl rfl rfl (congrArg HandlePhase.owes hphase).symm
  | dropLast hphase hslab hcount =>
    exact hs.of_same rfl rfl rfl (congrArg HandlePhase.owes hphase).symm
  | @push t rest node hphase =>
    refine hs.of_step (d := 0) rfl (by rw [add_zero]; rfl) ?_
    rw [hphase]
    change ((node :: s.free).length : ℤ) + -1 = s.free.length + 0 + 0
    rw [List.length_cons]
    omega
  | @add t rest hphase =>
    refine hs.of_step rfl (toNat_add_one s.available) ?_
    rw [hphase]
    change (s.free.length : ℤ) + 0 = s.free.length + -1 + 1
    omega
  | copy hphase hdst hsrc => exact hs.of_same rfl rfl rfl (congrArg HandlePhase.owes hphase).symm
  | move hphase hdst hne => exact hs.of_same rfl rfl rfl (congrArg HandlePhase.owes hphase).symm

variable (region s) in
/-- What every guarded step keeps. -/
structure Kept : Prop where
  locked : s.Locked region
  placed : ∃ place, s.Placed region place
  balanced : s.Balanced

omit [DecidableEq T] in
theorem Kept.create (region : SlabRegion) : (create region : HandlePool T H).Kept region where
  locked := ⟨fun _ _ h => (by cases h), fun _ => trivial,
    fun _ _ _ h => absurd h List.not_mem_nil⟩
  placed := by
    have hempty : ∀ node, (HandlePool.create region : HandlePool T H).holders node = ∅ :=
      fun node => Set.eq_empty_of_forall_notMem fun h hh => Option.some_ne_none node hh.symm
    refine ⟨fun node => if node < region.slabCount.toNat then some .free else none,
      fun node => ?_, List.nodup_range, fun node => ?_, fun t node => ?_, fun node => ?_,
      fun node => ?_, fun node h => ?_⟩
    · simp
    · simp [HandlePool.create]
    · simp [HandlePool.create, HandlePhase.carries]
    · simp [hempty]
    · rw [hempty]
      exact Set.finite_empty
    · rw [hempty] at h
      exact absurd h Set.not_nonempty_empty
  balanced := by
    simp [Balanced, HandlePool.create, HandlePhase.owes, Int.ModEq]

theorem Kept.progress (hs : s.Kept region) (hfits : region.Fits) {t : T}
    (hbusy : s.phase t ≠ .idle) : ∃ s', s.advance region t = some s' ∧
      s'.Locked region ∧ StepTo region s (.advance t) s' := by
  obtain ⟨place, hplace⟩ := hs.placed
  exact hs.locked.advance hfits (fun node h => hplace.lt ((hplace.carried t node).mp h)) hbusy

theorem Kept.stepTo (hs : s.Kept region) (hfits : region.Fits) {a : HandleAction T H}
    {s' : HandlePool T H} (h : step region s a = some s') :
    s'.Locked region ∧ StepTo region s a s' := by
  cases a with
  | call t op =>
    obtain ⟨hpermits, hs'⟩ := Option.ite_none_right_eq_some.mp h
    obtain rfl := Option.some.inj hs'
    exact ⟨hs.locked.enter hpermits, hpermits.stepTo⟩
  | advance t =>
    have hbusy : s.phase t ≠ .idle := by
      intro hidle
      rw [step, advance, hidle] at h
      cases h
    obtain ⟨s'', hs'', hrest⟩ := hs.progress hfits hbusy
    obtain rfl := Option.some.inj (hs''.symm.trans h)
    exact hrest

theorem Kept.step (hs : s.Kept region) (hfits : region.Fits) {a : HandleAction T H}
    {s' : HandlePool T H} (hguard : s.Countable a) (h : step region s a = some s') :
    s'.Kept region := by
  obtain ⟨hlocked, hto⟩ := hs.stepTo hfits h
  obtain ⟨place, hplace⟩ := hs.placed
  exact ⟨hlocked, hto.placed hplace hfits hguard, hto.balanced hs.balanced⟩

omit [DecidableEq T] [DecidableEq H] [Fintype T] in
/-- Between operations every slab is free or held. -/
theorem Placed.ncard_held (hs : s.Placed region place) (hidle : ∀ t, s.phase t = .idle) :
    {node | (s.holders node).Nonempty}.ncard = region.slabCount.toNat - s.free.length := by
  have hheld : {node | (s.holders node).Nonempty} =
      ↑(Finset.range region.slabCount.toNat \ s.free.toFinset) := by
    ext node
    have hbound := hs.bound node
    have hfree := hs.free node
    have hcarried : ∀ t, place node ≠ some (.carried t) := fun t h => by
      rw [← hs.carried, hidle] at h
      cases h
    rw [Set.mem_ofPred_eq, hs.held, Finset.mem_coe, Finset.mem_sdiff, Finset.mem_range,
      List.mem_toFinset, hfree, ← hbound]
    match hplace : place node with
    | none => simp
    | some .free => simp
    | some .held => simp
    | some (.carried t) => exact absurd hplace (hcarried t)
  have hsub : s.free.toFinset ⊆ Finset.range region.slabCount.toNat := fun node h =>
    Finset.mem_range.mpr (hs.lt ((hs.free node).mp (List.mem_toFinset.mp h)))
  rw [hheld, Set.ncard_coe_finset, Finset.card_sdiff_of_subset hsub, Finset.card_range,
    List.toFinset_card_of_nodup hs.nodup]

omit [DecidableEq T] [DecidableEq H] [Fintype T] in
theorem Placed.length_free_le (hs : s.Placed region place) :
    s.free.length ≤ region.slabCount.toNat := by
  have hsub : s.free.toFinset ⊆ Finset.range region.slabCount.toNat := fun node h =>
    Finset.mem_range.mpr (hs.lt ((hs.free node).mp (List.mem_toFinset.mp h)))
  simpa [List.toFinset_card_of_nodup hs.nodup] using Finset.card_le_card hsub

omit [DecidableEq T] in
theorem Kept.accurate (hs : s.Kept region) : s.Accurate region := by
  obtain ⟨hlocked, ⟨place, hplace⟩, hbalanced⟩ := hs
  refine ⟨fun node h => ⟨hplace.finite node, hplace.count node h⟩, hplace.nodup,
    fun node h => hplace.holders_eq_empty ((hplace.free node).mp h) (by simp), ?_, ?_⟩
  · intro t index rest hphase
    have hready := hlocked.ready t
    rw [hphase] at hready
    obtain ⟨node, rfl⟩ := Option.isSome_iff_exists.mp hready.1
    have hnode := (hplace.carried t node).mp (by rw [hphase]; rfl)
    refine ⟨node, (hplace.mem_free hnode).not.mpr (by simp), rfl, hplace.lt hnode,
      hplace.holders_eq_empty hnode (by simp), fun t' rest' hphase' => ?_⟩
    have hnode' := (hplace.carried t' node).mp (by rw [hphase']; rfl)
    simpa using hnode'.symm.trans hnode
  · intro hidle
    have howes : ∑ t, (s.phase t).owes = 0 :=
      Finset.sum_eq_zero fun t _ => by rw [hidle]; rfl
    rw [Balanced, howes, add_zero, Int.ModEq] at hbalanced
    have hle := hplace.length_free_le
    have hlt := region.slabCount.toNat_lt
    have havailable := s.available.toNat_lt
    rw [hplace.ncard_held hidle]
    omega

theorem Kept.returns (hs : s.Kept region) (hfits : region.Fits) {a : HandleAction T H}
    {s' : HandlePool T H} (hto : StepTo region s a s') : s.Returns a s' := by
  obtain ⟨-, ⟨place, hplace⟩, -⟩ := hs
  constructor
  · intro x hne hempty
    -- every step but the last drop leaves a slab in use held
    have hkeeps : (s'.holders x).Nonempty → ∃ t rest, a = .advance t ∧
        s'.phase t = .pushing (some x) rest := fun h =>
      absurd h (Set.not_nonempty_iff_eq_empty.mpr hempty)
    cases hto with
    | turn hcarries howes => exact hkeeps hne
    | blank hold hnew hcarries howes =>
      exact hkeeps (((hplace.blank hold hnew).held x).mpr ((hplace.held x).mp hne))
    | pop hidle hfree => exact hkeeps hne
    | count hphase => exact hkeeps hne
    | @give t h node hphase hblank =>
      have hcarried := (hplace.carried t node).mp (by rw [hphase]; rfl)
      obtain ⟨hnode, hothers⟩ := holders_setHandle_some hblank
        (hfits.slab_makeHandle (hplace.lt hcarried))
      have hinsert := Set.insert_nonempty h (s.holders node)
      rw [← hnode] at hinsert
      by_cases hx : x = node
      · exact hkeeps (hx ▸ hinsert)
      · exact hkeeps (hothers x hx ▸ hne)
    | drop hphase hslab hcount =>
      exact hkeeps (((hplace.drop hphase hslab hcount).held x).mpr ((hplace.held x).mp hne))
    | @dropLast t h rest node hphase hslab hcount =>
      by_cases hx : x = node
      · exact ⟨t, rest, rfl, hx ▸ Function.update_self ..⟩
      · obtain ⟨-, hothers⟩ := holders_setHandle_none hslab PooledPtr.slab_empty
        exact hkeeps (hothers x hx ▸ hne)
    | push hphase => exact hkeeps hne
    | add hphase => exact hkeeps hne
    | @copy t dst src node hphase hdst hsrc =>
      obtain ⟨hnode, hothers⟩ := holders_setHandle_some hdst hsrc
      have hinsert := Set.insert_nonempty dst (s.holders node)
      rw [← hnode] at hinsert
      by_cases hx : x = node
      · exact hkeeps (hx ▸ hinsert)
      · exact hkeeps (hothers x hx ▸ hne)
    | move hphase hdst hne' =>
      exact hkeeps (((hplace.move hphase hdst hne').held x).mpr ((hplace.held x).mp hne))
  · intro x hx hnot
    cases hto with
    | pop hidle hfree => exact absurd (hfree ▸ List.mem_cons_of_mem _ hx) hnot
    | @push t rest node hphase =>
      obtain rfl | hx := List.mem_cons.mp hx
      · have hcarried := (hplace.carried t x).mp (by rw [hphase]; rfl)
        exact ⟨hplace.holders_eq_empty hcarried (by simp), t, rest, rfl, hphase⟩
      · exact absurd hx hnot
    | _ => exact absurd hx hnot

theorem Kept.of_guarded (hfits : region.Fits) {actions : List (HandleAction T H)}
    (h : Transition.Guarded (HandlePool.step region) Countable (HandlePool.create region)
      actions s) : s.Kept region := by
  induction h with
  | start => exact Kept.create region
  | next _ hguard hstep ih => exact ih.step hfits hguard hstep

/-- Where the offsets of the slabs fit and no copy is taken of a handle whose count is full, the
counts are those of the live handles, a slab comes back as the last of them goes, and the
number of free slabs is right between operations. No thread is stuck. -/
theorem returned_once (hfits : region.Fits) {actions : List (HandleAction T H)}
    (h : Transition.Guarded (step region) Countable (create region) actions s) :
    s.Accurate region ∧ (∀ t, s.phase t ≠ .idle → (s.advance region t).isSome) ∧
      ∀ a s', step region s a = some s' → s.Returns a s' := by
  have hs := Kept.of_guarded hfits h
  refine ⟨hs.accurate, fun t hbusy => ?_, fun a s' hstep => ?_⟩
  · obtain ⟨s', hs', -⟩ := hs.progress hfits hbusy
    exact Option.isSome_iff_exists.mpr ⟨s', hs'⟩
  · exact hs.returns hfits (hs.stepTo hfits hstep).2

end Balance

/-- Two handles to the first slab of a pool, and both are destroyed. -/
def lifecycle : List (HandleAction Unit ℕ) :=
  [.call () (.acquire 0 1), .advance (), .advance (), .call () (.copyConstruct 1 0), .advance (),
    .call () (.destroy 0), .advance (), .advance (), .call () (.destroy 1), .advance (),
    .advance (), .advance (), .advance ()]

theorem returned_once_lifecycle : ∃ s : HandlePool Unit ℕ, s.free = [0, 1] ∧
    s.Accurate ⟨⟨4096, 2⟩, 65536⟩ := by
  have hrun : (Transition.run
      (fun s a => if s.Countable a then step ⟨⟨4096, 2⟩, 65536⟩ s a else none)
      (create ⟨⟨4096, 2⟩, 65536⟩) lifecycle).map (·.free) = some [0, 1] := by decide
  obtain ⟨s, hs, hfree⟩ := Option.map_eq_some_iff.mp hrun
  exact ⟨s, hfree, (returned_once (by decide) (Transition.Guarded.of_run _ hs)).1⟩

/-- Five slabs of a pool of eight are handed out, and the fifth comes back. -/
def fifthReleased : List (HandleAction Unit ℕ) :=
  [0, 1, 2, 3, 4].flatMap (fun h => [.call () (.acquire h 1), .advance (), .advance ()]) ++
    [.call () (.release 4), .advance (), .advance ()]

/-- The offset of the fifth slab wraps to one in the first, which is pushed while in use. -/
theorem pushed_while_held : ¬∀ (region : SlabRegion) (actions : List (HandleAction Unit ℕ))
    (s : HandlePool Unit ℕ),
    Transition.run (step region) (create region) actions = some s → s.Accurate region := by
  intro h
  have hrun : (Transition.run (step ⟨⟨2 ^ 62 + 1, 8⟩, 65536⟩)
      (create ⟨⟨2 ^ 62 + 1, 8⟩, 65536⟩) fifthReleased).map
        (fun s => (s.free, PooledPtr.slab (s.handles 0))) = some ([0, 5, 6, 7], some 0) := by
    decide +kernel
  obtain ⟨s, hs, hresult⟩ := Option.map_eq_some_iff.mp hrun
  obtain ⟨hfree, hheld⟩ := Prod.mk.injEq .. ▸ hresult
  have hempty := (h _ _ s hs).unheld 0 (hfree ▸ List.mem_cons_self)
  exact Set.eq_empty_iff_forall_notMem.mp hempty 0 hheld

end HandlePool

end SurfaceAi.Memory
