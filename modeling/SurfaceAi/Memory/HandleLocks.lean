import SurfaceAi.Memory.PooledPtr

/-! Threads keep to the handles they are using, so a thread finds them as it left them, and each
step does one of a few things to the slabs. -/

namespace SurfaceAi.Memory

namespace SlabRegion

variable {region : SlabRegion}

theorem Fits.index_slabPtr (h : region.Fits) {node : ℕ} (hnode : node < region.slabCount.toNat) :
    region.index (region.slabPtr node) = some node := by
  obtain ⟨hsize, hoffset, -⟩ := h node hnode
  have hne : region.slabSize ≠ 0 := by
    rintro h0
    rw [h0] at hsize
    exact absurd hsize (by decide)
  have hword : node < 2 ^ 64 := hnode.trans region.slabCount.toNat_lt
  rw [index, if_neg hne, slabPtr, UInt64.add_comm, UInt64.add_sub_cancel, UInt64.toNat_div,
    UInt64.toNat_mul, UInt64.toNat_ofNat_of_lt' hword, Nat.mod_eq_of_lt hoffset,
    Nat.mul_div_cancel _ hsize]

theorem Fits.slab_makeHandle (h : region.Fits) {node : ℕ} (hnode : node < region.slabCount.toNat) :
    PooledPtr.slab (some (region.makeHandle node)) = some node :=
  if_neg (h node hnode).2.2

end SlabRegion

section Ready

variable {H : Type*} [DecidableEq H]

/-- The target has let go of its slab; the source is alive and another handle. -/
structure Transfers (handles : H → Option PooledPtr) (dst src : H) : Prop where
  target : PooledPtr.slab (handles dst) = none
  source : (handles src).isSome
  ne : dst ≠ src

omit [DecidableEq H] in
theorem Transfers.of_fresh {handles : H → Option PooledPtr} {dst src : H}
    (hdst : handles dst = none) (hsrc : (handles src).isSome) : Transfers handles dst src := by
  refine ⟨congrArg PooledPtr.slab hdst, hsrc, ?_⟩
  rintro rfl
  rw [hdst] at hsrc
  exact absurd hsrc Bool.false_ne_true

theorem Transfers.of_cleared {handles : H → Option PooledPtr} {dst src : H}
    (hsrc : (handles src).isSome) (hne : dst ≠ src) :
    Transfers (Function.update handles dst (some .empty)) dst src where
  target := by rw [Function.update_self, PooledPtr.slab_empty]
  source := by rwa [Function.update_of_ne hne.symm]
  ne := hne

def Rest.Ready (handles : H → Option PooledPtr) : Rest H → Prop
  | .done => True
  | .destroy h => PooledPtr.slab (handles h) = none
  | .copyFrom dst src => Transfers handles dst src
  | .moveFrom dst src => Transfers handles dst src

/-- What a thread relies on about the handles it is using. -/
def HandlePhase.Ready (handles : H → Option PooledPtr) : HandlePhase H → Prop
  | .idle => True
  | .popped h _ => PooledPtr.slab (handles h) = none
  | .counted h _ => PooledPtr.slab (handles h) = none
  | .dropping h rest =>
    (handles h).isSome ∧ rest.Ready (Function.update handles h (some .empty))
  | .pushing index rest => index.isSome ∧ rest.Ready handles
  | .adding rest => rest.Ready handles
  | .resuming rest => rest.Ready handles

omit [DecidableEq H] in
theorem Transfers.congr {f g : H → Option PooledPtr} {dst src : H} (h : Transfers f dst src)
    (hfg : ∀ x ∈ [dst, src], g x = f x) : Transfers g dst src where
  target := by
    rw [hfg dst List.mem_cons_self]
    exact h.target
  source := by
    rw [hfg src (List.mem_cons_of_mem _ List.mem_cons_self)]
    exact h.source
  ne := h.ne

omit [DecidableEq H] in
theorem Rest.Ready.congr {rest : Rest H} {f g : H → Option PooledPtr} (h : rest.Ready f)
    (hfg : ∀ x ∈ rest.handles, g x = f x) : rest.Ready g := by
  cases rest with
  | done => trivial
  | destroy x => exact (congrArg PooledPtr.slab (hfg x List.mem_cons_self)).trans h
  | copyFrom dst src => exact Transfers.congr h hfg
  | moveFrom dst src => exact Transfers.congr h hfg

theorem HandlePhase.Ready.congr {phase : HandlePhase H} {f g : H → Option PooledPtr}
    (h : phase.Ready f) (hfg : ∀ x ∈ phase.handles, g x = f x) : phase.Ready g := by
  cases phase with
  | idle => trivial
  | popped x node => exact (congrArg PooledPtr.slab (hfg x (by simp [handles]))).trans h
  | counted x node => exact (congrArg PooledPtr.slab (hfg x (by simp [handles]))).trans h
  | dropping x rest =>
    refine ⟨(hfg x (by simp [handles])).symm ▸ h.1, h.2.congr fun y hy => ?_⟩
    rw [Function.update_apply, Function.update_apply, hfg y (by simp [handles, hy])]
  | pushing index rest => exact ⟨h.1, h.2.congr hfg⟩
  | adding rest => exact Rest.Ready.congr h hfg
  | resuming rest => exact Rest.Ready.congr h hfg

end Ready

namespace HandlePool

variable {T H : Type*} [DecidableEq T] [DecidableEq H] (region : SlabRegion)
variable (s : HandlePool T H)

/-- Every handle is null or the one its slab was handed out with; every thread can rely on what
it does about its handles, and no two threads use one. -/
structure Locked : Prop where
  form : ∀ h handle, s.handles h = some handle →
    handle = .empty ∨ ∃ node < region.slabCount.toNat, handle = region.makeHandle node
  ready : ∀ t, (s.phase t).Ready s.handles
  apart : ∀ t t', ∀ h ∈ (s.phase t).handles, h ∈ (s.phase t').handles → t = t'

variable {region s}

theorem Locked.of_step {s' : HandlePool T H} {t : T} {phase : HandlePhase H}
    (hs : s.Locked region) (hphase : s'.phase = Function.update s.phase t phase)
    (hform : ∀ h handle, s'.handles h = some handle →
      handle = .empty ∨ ∃ node < region.slabCount.toNat, handle = region.makeHandle node)
    (hframe : ∀ h, s'.handles h ≠ s.handles h → ∀ t' ≠ t, h ∉ (s.phase t').handles)
    (hready : phase.Ready s'.handles)
    (hapart : ∀ h ∈ phase.handles, ∀ t' ≠ t, h ∉ (s.phase t').handles) : s'.Locked region where
  form := hform
  ready t' := by
    rw [hphase, Function.update_apply]
    split_ifs with ht
    · exact hready
    · exact (hs.ready t').congr fun h hh => by_contra fun hne => hframe h hne t' ht hh
  apart t₁ t₂ h h₁ h₂ := by
    rw [hphase, Function.update_apply] at h₁ h₂
    split_ifs at h₁ h₂ with ht₁ ht₂ ht₂
    · rw [ht₁, ht₂]
    · exact absurd h₂ (hapart h h₁ t₂ ht₂)
    · exact absurd h₁ (hapart h h₂ t₁ ht₁)
    · exact hs.apart t₁ t₂ h h₁ h₂


/-- A handle changes in the hands of the thread that takes the step. -/
theorem Locked.of_setHandle {s' : HandlePool T H} {t : T} {phase : HandlePhase H} {h : H}
    {handle : Option PooledPtr} (hs : s.Locked region)
    (hphase : s'.phase = Function.update s.phase t phase)
    (hhandles : s'.handles = Function.update s.handles h handle)
    (hform : ∀ p, handle = some p →
      p = .empty ∨ ∃ node < region.slabCount.toNat, p = region.makeHandle node)
    (hused : ∀ t' ≠ t, h ∉ (s.phase t').handles)
    (hready : phase.Ready s'.handles)
    (hapart : ∀ h ∈ phase.handles, ∀ t' ≠ t, h ∉ (s.phase t').handles) : s'.Locked region := by
  refine hs.of_step hphase (fun x p hp => ?_) (fun x hx => ?_) hready hapart
  · rw [hhandles, Function.update_apply] at hp
    split_ifs at hp
    · exact hform p hp
    · exact hs.form x p hp
  · rw [hhandles, Function.update_apply] at hx
    split_ifs at hx with hxh
    · exact hxh ▸ hused
    · exact absurd rfl hx

/-- Only the phase of a thread changes. -/
theorem Locked.of_setPhase {s' : HandlePool T H} {t : T} {phase : HandlePhase H}
    (hs : s.Locked region) (hphase : s'.phase = Function.update s.phase t phase)
    (hhandles : s'.handles = s.handles) (hready : phase.Ready s.handles)
    (hapart : ∀ h ∈ phase.handles, ∀ t' ≠ t, h ∉ (s.phase t').handles) : s'.Locked region :=
  hs.of_step hphase (fun h p hp => hs.form h p (hhandles ▸ hp))
    (fun h hne => absurd (congrFun hhandles h) hne) (hhandles ▸ hready) hapart

omit [DecidableEq T] in
/-- The thread keeps to the handles it has in use. -/
theorem Locked.mine (hs : s.Locked region) {t : T} {h : H} (hh : h ∈ (s.phase t).handles) :
    ∀ t' ≠ t, h ∉ (s.phase t').handles :=
  fun t' hne hh' => hne (hs.apart t' t h hh' hh)

omit [DecidableEq H] in
theorem acquire_eq_ok {t : T} {h : H} {bytes : UInt64} {s' : HandlePool T H} :
    s.acquire region t h bytes = .ok s' ↔ ¬region.slabSize < bytes ∧
      ∃ node free, s.free = node :: free ∧
        s' = { s with free := free }.setPhase t (.popped h node) := by
  unfold acquire
  split_ifs with hbytes
  · exact ⟨fun h => (by cases h), fun h => absurd hbytes h.1⟩
  · cases s.free with
    | nil => exact ⟨fun h => (by cases h), fun ⟨_, _, _, h, _⟩ => (by cases h)⟩
    | cons node free =>
      constructor
      · rintro h
        cases h
        exact ⟨hbytes, node, free, rfl, rfl⟩
      · rintro ⟨-, node', free', hfree, rfl⟩
        cases hfree
        rfl

/-- A thread starts to use handles that no thread is using. -/
theorem Locked.setPhase (hs : s.Locked region) {t : T} {phase : HandlePhase H} {used : List H}
    (hready : phase.Ready s.handles) (hsub : phase.handles ⊆ used)
    (hunused : ∀ h ∈ used, ∀ t', h ∉ (s.phase t').handles) :
    (s.setPhase t phase).Locked region :=
  hs.of_setPhase rfl rfl hready fun h hh t' _ => hunused h (hsub hh) t'

theorem Locked.assign (hs : s.Locked region) {t : T} {dst src : H} {rest : Rest H}
    (hdst : (s.handles dst).isSome)
    (hready : dst ≠ src → rest.Ready (Function.update s.handles dst (some .empty)))
    (hsub : rest.handles ⊆ [dst, src])
    (hunused : ∀ h ∈ [dst, src], ∀ t', h ∉ (s.phase t').handles) :
    (s.assign t dst src rest).Locked region := by
  unfold HandlePool.assign
  split_ifs with heq
  · exact hs
  · exact hs.setPhase ⟨hdst, hready heq⟩ (List.cons_subset.mpr ⟨List.mem_cons_self, hsub⟩) hunused

theorem Locked.enter [Fintype T] (hs : s.Locked region) {t : T} {op : HandleOp H}
    (h : s.Permits t op) : (s.enter region t op).Locked region := by
  obtain ⟨hidle, hmakes, huses, hunused⟩ := h
  cases op with
  | construct x =>
    have hphase : (s.setHandle x (some .empty)).phase = Function.update s.phase t .idle := by
      rw [← hidle, Function.update_eq_self]
      rfl
    exact hs.of_setHandle hphase rfl (fun p hp => .inl (Option.some.inj hp).symm)
      (fun t' _ => hunused x List.mem_cons_self t') trivial fun _ h => absurd h List.not_mem_nil
  | acquire x bytes =>
    cases hacquire : s.acquire region t x bytes with
    | error e =>
      rw [HandlePool.enter, hacquire]
      exact hs
    | ok s' =>
      rw [HandlePool.enter, hacquire]
      obtain ⟨-, node, free, -, rfl⟩ := acquire_eq_ok.mp hacquire
      refine hs.of_setPhase rfl rfl ?_ fun y hy t' _ => hunused y hy t'
      exact congrArg PooledPtr.slab (hmakes x List.mem_cons_self)
  | copyConstruct dst src =>
    exact hs.setPhase (Transfers.of_fresh (hmakes dst List.mem_cons_self)
      (huses src List.mem_cons_self)) (List.Subset.refl _) hunused
  | moveConstruct dst src =>
    exact hs.setPhase (Transfers.of_fresh (hmakes dst List.mem_cons_self)
      (huses src List.mem_cons_self)) (List.Subset.refl _) hunused
  | copyAssign dst src =>
    exact hs.assign (huses dst List.mem_cons_self)
      (fun hne => .of_cleared (huses src (List.mem_cons_of_mem _ List.mem_cons_self)) hne)
      (List.Subset.refl _) hunused
  | moveAssign dst src =>
    exact hs.assign (huses dst List.mem_cons_self)
      (fun hne => .of_cleared (huses src (List.mem_cons_of_mem _ List.mem_cons_self)) hne)
      (List.Subset.refl _) hunused
  | release x =>
    exact hs.setPhase ⟨huses x List.mem_cons_self, trivial⟩ (List.Subset.refl _) hunused
  | destroy x =>
    refine hs.setPhase ⟨huses x List.mem_cons_self, ?_⟩
      (List.cons_subset.mpr ⟨List.mem_cons_self, List.Subset.refl _⟩) hunused
    rw [Rest.Ready, Function.update_self, PooledPtr.slab_empty]

variable (region s)

/-- What a step can do to the slabs and their handles. -/
inductive StepTo : HandleAction T H → HandlePool T H → Prop where
  | turn {a : HandleAction T H} {t : T} {phase : HandlePhase H} :
      phase.carries = (s.phase t).carries → phase.owes = (s.phase t).owes →
      StepTo a (s.setPhase t phase)
  | blank {a : HandleAction T H} {t : T} {phase : HandlePhase H} {h : H}
      {handle : Option PooledPtr} :
      PooledPtr.slab (s.handles h) = none → PooledPtr.slab handle = none →
      phase.carries = (s.phase t).carries → phase.owes = (s.phase t).owes →
      StepTo a ((s.setHandle h handle).setPhase t phase)
  | pop {a : HandleAction T H} {t : T} {h : H} {node : ℕ} {free : List ℕ} :
      s.phase t = .idle → s.free = node :: free →
      StepTo a ({ s with free := free }.setPhase t (.popped h node))
  | count {t : T} {h : H} {node : ℕ} :
      s.phase t = .popped h node →
      StepTo (.advance t)
        ({ s with available := s.available - 1 }.setPhase t (.counted h node))
  | give {t : T} {h : H} {node : ℕ} :
      s.phase t = .counted h node → PooledPtr.slab (s.handles h) = none →
      StepTo (.advance t)
        (((s.setCount node 1).setHandle h (some (region.makeHandle node))).setPhase t .idle)
  | drop {t : T} {h : H} {rest : Rest H} {node : ℕ} :
      s.phase t = .dropping h rest → PooledPtr.slab (s.handles h) = some node →
      s.refCount node ≠ 1 →
      StepTo (.advance t) (((s.setCount node (s.refCount node - 1)).setHandle h
        (some .empty)).setPhase t (.resuming rest))
  | dropLast {t : T} {h : H} {rest : Rest H} {node : ℕ} :
      s.phase t = .dropping h rest → PooledPtr.slab (s.handles h) = some node →
      s.refCount node = 1 →
      StepTo (.advance t) (((s.setCount node (s.refCount node - 1)).setHandle h
        (some .empty)).setPhase t (.pushing (some node) rest))
  | push {t : T} {rest : Rest H} {node : ℕ} :
      s.phase t = .pushing (some node) rest →
      StepTo (.advance t) ({ s with free := node :: s.free }.setPhase t (.adding rest))
  | add {t : T} {rest : Rest H} :
      s.phase t = .adding rest →
      StepTo (.advance t)
        ({ s with available := s.available + 1 }.setPhase t (.resuming rest))
  | copy {t : T} {dst src : H} {node : ℕ} :
      s.phase t = .resuming (.copyFrom dst src) → PooledPtr.slab (s.handles dst) = none →
      PooledPtr.slab (s.handles src) = some node →
      StepTo (.advance t) (((s.setCount node (s.refCount node + 1)).setHandle dst
        (s.handles src)).setPhase t .idle)
  | move {t : T} {dst src : H} :
      s.phase t = .resuming (.moveFrom dst src) → PooledPtr.slab (s.handles dst) = none →
      dst ≠ src →
      StepTo (.advance t) (((s.setHandle dst (s.handles src)).setHandle src
        (some .empty)).setPhase t .idle)

variable {region s}

omit [DecidableEq H] in
theorem setPhase_self (t : T) : s.setPhase t (s.phase t) = s := by
  rw [HandlePool.setPhase, Function.update_eq_self]

theorem drop_empty {t : T} {h : H} {rest : Rest H} (hp : s.handles h = some .empty) :
    s.drop region t h rest = some (s.setPhase t (.resuming rest)) := by
  rw [drop, hp]
  rfl

theorem drop_makeHandle (hfits : region.Fits) {t : T} {h : H} {rest : Rest H} {node : ℕ}
    (hnode : node < region.slabCount.toNat) (hp : s.handles h = some (region.makeHandle node)) :
    s.drop region t h rest =
      some (((s.setCount node (s.refCount node - 1)).setHandle h (some .empty)).setPhase t
        (if s.refCount node = 1 then .pushing (some node) rest else .resuming rest)) := by
  have hdata : (region.makeHandle node).data ≠ 0 := (hfits node hnode).2.2
  rw [drop, hp]
  dsimp only
  rw [if_neg hdata]
  exact congrArg (fun index => some (((s.setCount node (s.refCount node - 1)).setHandle h
    (some .empty)).setPhase t (if s.refCount node = 1 then .pushing index rest
      else .resuming rest))) (hfits.index_slabPtr hnode)

theorem Locked.drop (hs : s.Locked region) (hfits : region.Fits) {t : T} {h : H} {rest : Rest H}
    (hphase : s.phase t = .dropping h rest) : ∃ s', s.drop region t h rest = some s' ∧
      s'.Locked region ∧ StepTo region s (.advance t) s' := by
  have hready := hs.ready t
  have hmine := fun x hx => hs.mine (t := t) (h := x) hx
  rw [hphase] at hready hmine
  obtain ⟨hsome, hrest⟩ := hready
  obtain ⟨p, hp⟩ := Option.isSome_iff_exists.mp hsome
  obtain rfl | ⟨node, hnode, rfl⟩ := hs.form h p hp
  · refine ⟨_, drop_empty hp, hs.of_setPhase rfl rfl ?_ fun x hx =>
      hmine x (List.mem_cons_of_mem _ hx), .turn ?_ ?_⟩
    · rwa [← hp, Function.update_eq_self] at hrest
    · exact (congrArg HandlePhase.carries hphase).symm
    · exact (congrArg HandlePhase.owes hphase).symm
  · have hslab : PooledPtr.slab (s.handles h) = some node := hp ▸ hfits.slab_makeHandle hnode
    refine ⟨_, drop_makeHandle hfits hnode hp, ?_⟩
    split_ifs with hlast
    · exact ⟨hs.of_setHandle (h := h) rfl rfl (fun p hp => .inl (Option.some.inj hp).symm)
        (hmine h List.mem_cons_self) ⟨rfl, hrest⟩ fun x hx => hmine x (List.mem_cons_of_mem _ hx),
        .dropLast hphase hslab hlast⟩
    · exact ⟨hs.of_setHandle (h := h) rfl rfl (fun p hp => .inl (Option.some.inj hp).symm)
        (hmine h List.mem_cons_self) hrest fun x hx => hmine x (List.mem_cons_of_mem _ hx),
        .drop hphase hslab hlast⟩


omit [DecidableEq T] [DecidableEq H] in
@[simp] theorem addReference_handles {handle : PooledPtr} :
    (s.addReference handle).handles = s.handles := by
  unfold addReference
  split <;> rfl

omit [DecidableEq T] [DecidableEq H] in
@[simp] theorem addReference_phase {handle : PooledPtr} :
    (s.addReference handle).phase = s.phase := by
  unfold addReference
  split <;> rfl

theorem Locked.resume (hs : s.Locked region) (hfits : region.Fits) {t : T} {rest : Rest H}
    (hphase : s.phase t = .resuming rest) : ∃ s', s.resume t rest = some s' ∧
      s'.Locked region ∧ StepTo region s (.advance t) s' := by
  have hready := hs.ready t
  have hmine := fun x hx => hs.mine (t := t) (h := x) hx
  have hcarries : (.idle : HandlePhase H).carries = (s.phase t).carries := by rw [hphase]; rfl
  have howes : (.idle : HandlePhase H).owes = (s.phase t).owes := by rw [hphase]; rfl
  have hidle : ∀ x ∈ (HandlePhase.idle : HandlePhase H).handles, ∀ t' ≠ t,
      x ∉ (s.phase t').handles := fun x hx => absurd hx List.not_mem_nil
  rw [hphase] at hready hmine
  cases rest with
  | done => exact ⟨_, rfl, hs.of_setPhase rfl rfl trivial hidle, .turn hcarries howes⟩
  | destroy h =>
    exact ⟨_, rfl, hs.of_setHandle (h := h) rfl rfl (fun p hp => (by cases hp))
      (hmine h List.mem_cons_self) trivial hidle, .blank hready rfl hcarries howes⟩
  | copyFrom dst src =>
    obtain ⟨hdst, hsome, hne⟩ := hready
    obtain ⟨p, hp⟩ := Option.isSome_iff_exists.mp hsome
    refine ⟨((s.addReference p).setHandle dst (some p)).setPhase t .idle,
      by rw [HandlePool.resume, hp], ?_, ?_⟩
    · have hphase' : (((s.addReference p).setHandle dst (some p)).setPhase t .idle).phase =
          Function.update s.phase t .idle := by
        simp [HandlePool.setPhase, HandlePool.setHandle]
      have hhandles : (((s.addReference p).setHandle dst (some p)).setPhase t .idle).handles =
          Function.update s.handles dst (some p) := by
        simp [HandlePool.setPhase, HandlePool.setHandle]
      exact hs.of_setHandle hphase' hhandles
        (fun q hq => Option.some.inj hq ▸ hs.form src p hp) (hmine dst List.mem_cons_self)
        trivial hidle
    · obtain rfl | ⟨node, hnode, rfl⟩ := hs.form src p hp
      · exact .blank hdst rfl hcarries howes
      · rw [← hp]
        exact .copy hphase hdst (hp ▸ hfits.slab_makeHandle hnode)
  | moveFrom dst src =>
    obtain ⟨hdst, hsome, hne⟩ := hready
    obtain ⟨p, hp⟩ := Option.isSome_iff_exists.mp hsome
    refine ⟨((s.setHandle dst (some p)).setHandle src (some .empty)).setPhase t .idle,
      by rw [HandlePool.resume, hp], ?_, ?_⟩
    · refine hs.of_step (t := t) rfl (fun x q hq => ?_) (fun x hx => ?_) trivial hidle
      · simp only [HandlePool.setPhase, HandlePool.setHandle, Function.update_apply] at hq
        split_ifs at hq with hsrc hdst
        · exact .inl (Option.some.inj hq).symm
        · exact Option.some.inj hq ▸ hs.form src p hp
        · exact hs.form x q hq
      · simp only [HandlePool.setPhase, HandlePool.setHandle, Function.update_apply] at hx
        split_ifs at hx with hsrc hdst
        · exact hsrc ▸ hmine src (List.mem_cons_of_mem _ List.mem_cons_self)
        · exact hdst ▸ hmine dst List.mem_cons_self
        · exact absurd rfl hx
    · rw [← hp]
      exact .move hphase hdst hne

theorem Locked.advance (hs : s.Locked region) (hfits : region.Fits) {t : T}
    (hcarried : ∀ node, (s.phase t).carries = some node → node < region.slabCount.toNat)
    (hbusy : s.phase t ≠ .idle) : ∃ s', s.advance region t = some s' ∧
      s'.Locked region ∧ StepTo region s (.advance t) s' := by
  have hready := hs.ready t
  have hmine := fun x hx => hs.mine (t := t) (h := x) hx
  unfold HandlePool.advance
  cases hphase : s.phase t with
  | idle => exact absurd hphase hbusy
  | popped h node =>
    rw [hphase] at hready hmine
    exact ⟨_, rfl, hs.of_setPhase rfl rfl hready hmine, .count hphase⟩
  | counted h node =>
    rw [hphase] at hready hmine hcarried
    refine ⟨_, rfl, hs.of_setHandle (h := h) rfl rfl (fun p hp => ?_)
      (hmine h List.mem_cons_self) trivial fun x hx => absurd hx List.not_mem_nil,
      .give hphase hready⟩
    exact .inr ⟨node, hcarried node rfl, (Option.some.inj hp).symm⟩
  | dropping h rest => exact hs.drop hfits hphase
  | pushing index rest =>
    rw [hphase] at hready hmine hcarried
    obtain ⟨node, rfl⟩ := Option.isSome_iff_exists.mp hready.1
    exact ⟨_, if_pos (hcarried node rfl), hs.of_setPhase rfl rfl hready.2 hmine, .push hphase⟩
  | adding rest =>
    rw [hphase] at hready hmine
    exact ⟨_, rfl, hs.of_setPhase rfl rfl hready hmine, .add hphase⟩
  | resuming rest => exact hs.resume hfits hphase


theorem Permits.stepTo [Fintype T] {t : T} {op : HandleOp H} (h : s.Permits t op) :
    StepTo region s (.call t op) (s.enter region t op) := by
  obtain ⟨hidle, hmakes, -, -⟩ := h
  have hcarries : none = (s.phase t).carries := by rw [hidle]; rfl
  have howes : 0 = (s.phase t).owes := by rw [hidle]; rfl
  have hstay : StepTo region s (.call t op) s := by
    have hturn : StepTo region s (.call t op) (s.setPhase t (s.phase t)) := .turn rfl rfl
    rwa [setPhase_self] at hturn
  have hassign : ∀ dst src rest, StepTo region s (.call t op) (s.assign t dst src rest) := by
    intro dst src rest
    unfold assign
    split_ifs
    · exact hstay
    · exact .turn hcarries howes
  cases op with
  | construct x =>
    have hnone : PooledPtr.slab (s.handles x) = none := by
      rw [hmakes x List.mem_cons_self, PooledPtr.slab_none]
    have hblank : StepTo region s (.call t (.construct x))
        ((s.setHandle x (some .empty)).setPhase t ((s.setHandle x (some .empty)).phase t)) :=
      .blank hnone PooledPtr.slab_empty rfl rfl
    rwa [setPhase_self] at hblank
  | acquire x bytes =>
    unfold HandlePool.enter
    cases hacquire : s.acquire region t x bytes with
    | error e => simpa only [hacquire] using hstay
    | ok s' =>
      obtain ⟨-, node, free, hfree, rfl⟩ := acquire_eq_ok.mp hacquire
      simpa only [hacquire] using .pop hidle hfree
  | copyConstruct dst src => exact .turn hcarries howes
  | moveConstruct dst src => exact .turn hcarries howes
  | copyAssign dst src => exact hassign dst src _
  | moveAssign dst src => exact hassign dst src _
  | release x => exact .turn hcarries howes
  | destroy x => exact .turn hcarries howes

end HandlePool

end SurfaceAi.Memory
