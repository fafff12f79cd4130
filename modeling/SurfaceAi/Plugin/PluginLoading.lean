import SurfaceAi.Plugin.PluginManager
import SurfaceAi.Library.DepthFirst
import SurfaceAi.Library.Exchanges

/-! What can be resolved after a run of loads. An instance is registered before its hooks
are called, and nothing takes it back when a hook fails: it is resolved from then on, the
next load of it reports success, and what depends on it is loaded on top of it. So what
can be resolved is what is fully started exactly as long as no hook fails. -/

namespace SurfaceAi.Plugin

open Exchanges PluginManager

/-- `a` stands before `b`. -/
def Earlier {α : Type*} (l : List α) (a b : α) : Prop :=
  ∃ front back, l = front ++ b :: back ∧ a ∈ front

theorem Earlier.append {α : Type*} {l : List α} {a b : α} (h : Earlier l a b) (l' : List α) :
    Earlier (l ++ l') a b := by
  obtain ⟨front, back, rfl, ha⟩ := h
  exact ⟨front, back ++ l', by simp, ha⟩

theorem earlier_concat {α : Type*} {l : List α} {a : α} (h : a ∈ l) (b : α) :
    Earlier (l ++ [b]) a b := ⟨l, [], rfl, h⟩

/-- What can be resolved is what was started, once each and after what it depends on. -/
structure FullyStarted (m : PluginManager) : Prop where
  resolvable : ∀ id, hasValue (m.resolve id) = true ↔ id ∈ m.loadOrder
  nodup : m.loadOrder.Nodup
  dependencies : ∀ name manifest, m.findManifest name = .ok manifest →
    fnv1aHash name ∈ m.loadOrder →
      ∀ d ∈ manifest.dependencies, Earlier m.loadOrder (fnv1aHash d.pluginName) (fnv1aHash name)

/-- No two plugins in the index have the same type id. -/
def NoCollisions (index : List PluginManifest) : Prop :=
  ∀ x ∈ index, ∀ y ∈ index, fnv1aHash x.name = fnv1aHash y.name → x.name = y.name

section Managers

variable {m : PluginManager}

theorem hasValue_resolve (m : PluginManager) (id : TypeId) :
    hasValue (m.resolve id) = true ↔ id ∈ m.registered := by
  unfold resolve registered
  induction m.registry with
  | nil => simp [fail]
  | cons entry entries ih =>
    obtain ⟨id', inst⟩ := entry
    rw [List.lookup_cons, List.map_cons, List.mem_cons, ← ih]
    by_cases h : id = id'
    · simp [h]
    · simp [h, beq_false_of_ne h]

theorem findManifest_eq_ok {name : String} {manifest : PluginManifest}
    (h : m.findManifest name = .ok manifest) :
    manifest ∈ m.manifestIndex ∧ manifest.name = name := by
  unfold findManifest at h
  split at h
  next manifest' hfind =>
    obtain rfl := Except.ok.inj h
    exact ⟨List.mem_of_find?_eq_some hfind, by simpa using List.find?_some hfind⟩
  next => cases h

theorem findManifest_congr {m' : PluginManager} (h : m'.manifestIndex = m.manifestIndex)
    (name : String) : m'.findManifest name = m.findManifest name := by
  unfold findManifest
  rw [h]

/-- The manager once an instance is registered and the hooks were called. -/
def withInstance (m : PluginManager) (id : TypeId) (inst : Instance) (calls : List HookCall) :
    PluginManager :=
  { m with registry := m.registry ++ [(id, inst)], hooks := m.hooks ++ calls }

/-- How starting an instance ends. -/
inductive Started (m : PluginManager) (name : String) (inst : Instance) : Step → Prop where
  | registered (e : ErrorInfo) : fnv1aHash name ∈ m.registered → Started m name inst (.error e, m)
  | failed (e : ErrorInfo) {calls : List HookCall} : fnv1aHash name ∉ m.registered →
      (∃ c ∈ calls, c.ok = false) →
        Started m name inst (.error e, withInstance m (fnv1aHash name) inst calls)
  | started {calls : List HookCall} : fnv1aHash name ∉ m.registered →
      (∀ c ∈ calls, c.ok = true) →
        Started m name inst (.ok (), { withInstance m (fnv1aHash name) inst calls with
          loadOrder := m.loadOrder ++ [fnv1aHash name] })

theorem startInstance_started (lib : Library) (name : String) (inst : Instance)
    (m : PluginManager) : Started m name inst (startInstance lib name inst m) := by
  unfold startInstance register
  split_ifs with hreg
  · exact .registered _ hreg
  · simp only [Step.andThen, callHook]
    cases hinit : lib.onInitialize with
    | error e =>
      exact .failed e hreg ⟨⟨name, .onInitialize, false⟩, List.mem_singleton.mpr rfl, rfl⟩
    | ok u =>
      cases hstart : lib.onStart with
      | error e =>
        simp only [List.append_assoc]
        exact .failed e hreg ⟨⟨name, .onStart, false⟩, by simp, rfl⟩
      | ok u =>
        simp only [List.append_assoc]
        exact .started hreg (by simp)

/-- Loading one plugin fails before it has an instance, or starts one. -/
theorem loadSingle_cases (libs : String → Library) (manifest : PluginManifest)
    (m : PluginManager) :
    ∃ handles, (∃ e, loadSingle libs manifest m = (.error e, { m with libraryHandles := handles })) ∨
      ∃ inst, loadSingle libs manifest m =
        startInstance (libs manifest.name) manifest.name inst
          { m with libraryHandles := handles } := by
  unfold loadSingle
  split
  · exact ⟨_, .inl ⟨_, rfl⟩⟩
  · split
    · exact ⟨_, .inl ⟨_, rfl⟩⟩
    · dsimp only
      split
      · exact ⟨_, .inl ⟨_, rfl⟩⟩
      · split
        · exact ⟨_, .inl ⟨_, rfl⟩⟩
        · exact ⟨_, .inr ⟨_, rfl⟩⟩

/-- What a step of a load comes to: no hook failed and everything is still fully started,
or a hook failed, the step with it, and an instance is registered that was not started. -/
inductive Progress (m : PluginManager) (r : Result Unit) (m' : PluginManager) : Prop where
  | sound {calls : List HookCall} : m'.hooks = m.hooks ++ calls → (∀ c ∈ calls, c.ok = true) →
      FullyStarted m' → m.loadOrder ⊆ m'.loadOrder → Progress m r m'
  | broken {calls : List HookCall} : m'.hooks = m.hooks ++ calls →
      (∃ c ∈ calls, c.ok = false) → hasValue r = false →
      (∃ id ∈ m'.registered, id ∉ m'.loadOrder) → Progress m r m'

theorem Progress.refl (h : FullyStarted m) (r : Result Unit) : Progress m r m :=
  .sound (List.append_nil _).symm (by simp) h (fun _ hid => hid)

theorem Progress.trans {m' m'' : PluginManager} {r r' : Result Unit} (h : Progress m r m')
    (hr : hasValue r = true) (h' : Progress m' r' m'') : Progress m r' m'' := by
  cases h with
  | broken _ _ herror _ => rw [hr] at herror; cases herror
  | sound hhooks hok _ hsub =>
    cases h' with
    | sound hhooks' hok' hstarted hsub' =>
      refine .sound (by rw [hhooks', hhooks, List.append_assoc]) ?_ hstarted
        (fun id hid => hsub' (hsub hid))
      exact fun c hc => (List.mem_append.mp hc).elim (hok c) (hok' c)
    | broken hhooks' hfailed herror hleft =>
      obtain ⟨c, hc, hcok⟩ := hfailed
      refine .broken (by rw [hhooks', hhooks, List.append_assoc]) ?_ herror hleft
      exact ⟨c, List.mem_append_right _ hc, hcok⟩

theorem FullyStarted.registered_iff (h : FullyStarted m) (id : TypeId) :
    id ∈ m.registered ↔ id ∈ m.loadOrder := by
  rw [← hasValue_resolve, h.resolvable]

theorem FullyStarted.withHandles (h : FullyStarted m) (handles : List String) :
    FullyStarted { m with libraryHandles := handles } :=
  ⟨h.resolvable, h.nodup, h.dependencies⟩

theorem registered_withInstance (id : TypeId) (inst : Instance) (calls : List HookCall) :
    (withInstance m id inst calls).registered = m.registered ++ [id] := by
  simp [withInstance, registered]

/-- Starting an instance whose dependencies were started keeps everything fully started. -/
theorem FullyStarted.start (h : FullyStarted m) (hindex : NoCollisions m.manifestIndex)
    {manifest : PluginManifest} (hmanifest : m.findManifest manifest.name = .ok manifest)
    (hdeps : ∀ d ∈ manifest.dependencies, fnv1aHash d.pluginName ∈ m.loadOrder)
    (hnew : fnv1aHash manifest.name ∉ m.registered) (inst : Instance) (calls : List HookCall) :
    FullyStarted { withInstance m (fnv1aHash manifest.name) inst calls with
      loadOrder := m.loadOrder ++ [fnv1aHash manifest.name] } where
  resolvable id := by
    rw [hasValue_resolve]
    have hreg := registered_withInstance (m := m) (fnv1aHash manifest.name) inst calls
    show id ∈ (withInstance m (fnv1aHash manifest.name) inst calls).registered ↔ _
    rw [hreg, List.mem_append, List.mem_append, h.registered_iff]
  nodup := by
    refine List.nodup_append.mpr ⟨h.nodup, List.nodup_singleton _, ?_⟩
    rintro id hid _ hid' rfl
    obtain rfl := List.mem_singleton.mp hid'
    exact hnew ((h.registered_iff _).mpr hid)
  dependencies name manifest' hfind hid := by
    have hfind' : m.findManifest name = .ok manifest' := hfind
    by_cases hold : fnv1aHash name ∈ m.loadOrder
    · intro d hd
      exact (h.dependencies name manifest' hfind' hold d hd).append _
    · have hhash : fnv1aHash name = fnv1aHash manifest.name :=
        List.mem_singleton.mp ((List.mem_append.mp hid).resolve_left hold)
      obtain ⟨hmem', hname'⟩ := findManifest_eq_ok hfind'
      obtain ⟨hmem, -⟩ := findManifest_eq_ok hmanifest
      have hname : name = manifest.name := by
        rw [← hname']
        exact hindex _ hmem' _ hmem (by rw [hname', hhash])
      subst hname
      obtain rfl : manifest = manifest' := Except.ok.inj (hmanifest.symm.trans hfind')
      exact fun d hd => earlier_concat (hdeps d hd) _

/-- What a part of a walk that loads `name` comes to. -/
structure Loads (m : PluginManager) (name : String) (r : Result Unit) (m' : PluginManager) :
    Prop where
  index_eq : m'.manifestIndex = m.manifestIndex
  progress : Progress m r m'
  loaded : r = .ok () → fnv1aHash name ∈ m'.loadOrder

theorem loadSingle_loads (libs : String → Library) {manifest : PluginManifest}
    (h : FullyStarted m) (hindex : NoCollisions m.manifestIndex)
    (hmanifest : m.findManifest manifest.name = .ok manifest)
    (hdeps : ∀ d ∈ manifest.dependencies, fnv1aHash d.pluginName ∈ m.loadOrder) :
    Loads m manifest.name (loadSingle libs manifest m).1 (loadSingle libs manifest m).2 := by
  obtain ⟨handles, ⟨e, heq⟩ | ⟨inst, heq⟩⟩ := loadSingle_cases libs manifest m
  · rw [heq]
    exact ⟨rfl, .sound (List.append_nil _).symm (by simp) (h.withHandles handles)
      (fun _ hid => hid), by simp⟩
  · rw [heq]
    have h' := h.withHandles handles
    have hstarted := startInstance_started (libs manifest.name) manifest.name inst
      { m with libraryHandles := handles }
    revert hstarted
    generalize startInstance (libs manifest.name) manifest.name inst
      { m with libraryHandles := handles } = r
    intro hstarted
    cases hstarted with
    | registered e hreg =>
      exact ⟨rfl, .sound (List.append_nil _).symm (by simp) h' (fun _ hid => hid), by simp⟩
    | failed e hnew hfailed =>
      refine ⟨rfl, .broken rfl hfailed rfl ⟨fnv1aHash manifest.name, ?_, ?_⟩, by simp⟩
      · rw [registered_withInstance]
        exact List.mem_append_right _ (List.mem_singleton.mpr rfl)
      · exact fun hid => hnew ((h'.registered_iff _).mpr hid)
    | started hnew hok =>
      refine ⟨rfl, .sound rfl hok (h'.start hindex hmanifest hdeps hnew inst _) ?_, fun _ => ?_⟩
      · exact fun id hid => List.mem_append_left _ hid
      · exact List.mem_append_right _ (List.mem_singleton.mpr rfl)

/-- Loading each dependency, given what loading one of them comes to. -/
theorem resolveEach_progress {ensure : String → PluginManager → List String → Option Walk}
    (hensure : ∀ name m visiting w, FullyStarted m → NoCollisions m.manifestIndex →
      ensure name m visiting = some w → Loads m name w.result w.manager)
    {deps : List PluginDependency} {m : PluginManager} {visiting : List String} {w : Walk}
    (h : FullyStarted m) (hindex : NoCollisions m.manifestIndex)
    (hw : resolveEach ensure deps m visiting = some w) :
    w.manager.manifestIndex = m.manifestIndex ∧ Progress m w.result w.manager ∧
      (w.result = .ok () → FullyStarted w.manager ∧
        ∀ d ∈ deps, fnv1aHash d.pluginName ∈ w.manager.loadOrder) := by
  induction deps generalizing m visiting with
  | nil =>
    obtain rfl := Option.some.inj hw
    exact ⟨rfl, .refl h _, fun _ => ⟨h, by simp⟩⟩
  | cons head rest ih =>
    unfold resolveEach at hw
    split at hw
    · cases hw
    next w' hw' =>
      obtain ⟨hindex', hprogress, hloaded⟩ := hensure _ _ _ _ h hindex hw'
      split at hw
      next e hresult =>
        obtain rfl := Option.some.inj hw
        rw [hresult] at hprogress
        exact ⟨hindex', hprogress, by simp⟩
      next hresult =>
        have hok : hasValue w'.result = true := by rw [hresult]; rfl
        have hstarted : FullyStarted w'.manager := by
          cases hprogress with
          | sound _ _ hstarted _ => exact hstarted
          | broken _ _ herror _ => rw [hok] at herror; cases herror
        split at hw
        · obtain rfl := Option.some.inj hw
          exact ⟨hindex', hprogress.trans hok (.refl hstarted _), by simp⟩
        · obtain ⟨hindex'', hprogress', hrest⟩ := ih hstarted (hindex' ▸ hindex) hw
          refine ⟨hindex''.trans hindex', hprogress.trans hok hprogress', fun hresult' => ?_⟩
          obtain ⟨hstarted', hmem⟩ := hrest hresult'
          refine ⟨hstarted', fun d hd => ?_⟩
          rcases List.mem_cons.mp hd with rfl | hd
          · cases hprogress' with
            | sound _ _ _ hsub => exact hsub (hloaded hresult)
            | broken _ _ herror _ => rw [hresult'] at herror; cases herror
          · exact hmem d hd

/-- What loading a plugin with everything it depends on comes to. -/
theorem ensureLoaded_loads (libs : String → Library) (depth : ℕ) (name : String)
    (m : PluginManager) (visiting : List String) (w : Walk) (h : FullyStarted m)
    (hindex : NoCollisions m.manifestIndex)
    (hw : ensureLoaded libs depth name m visiting = some w) :
    Loads m name w.result w.manager := by
  induction depth generalizing name m visiting w with
  | zero => cases hw
  | succ depth ih =>
    unfold ensureLoaded at hw
    split_ifs at hw with hresolves hvisiting
    · obtain rfl := Option.some.inj hw
      exact ⟨rfl, .refl h _, fun _ => (h.resolvable _).mp hresolves⟩
    · obtain rfl := Option.some.inj hw
      exact ⟨rfl, .refl h _, by simp [fail]⟩
    · split at hw
      · obtain rfl := Option.some.inj hw
        exact ⟨rfl, .refl h _, by simp⟩
      next manifest hmanifest =>
        split at hw
        · cases hw
        next w' hw' =>
          obtain ⟨hindex', hprogress, hdone⟩ := resolveEach_progress ih h hindex hw'
          split at hw
          next e hresult =>
            obtain rfl := Option.some.inj hw
            rw [hresult] at hprogress
            exact ⟨hindex', hprogress, by simp⟩
          next hresult =>
            obtain rfl := Option.some.inj hw
            obtain ⟨hstarted, hdeps⟩ := hdone hresult
            obtain ⟨-, rfl⟩ := findManifest_eq_ok hmanifest
            have hfind : w'.manager.findManifest manifest.name = .ok manifest := by
              rw [findManifest_congr hindex', hmanifest]
            obtain ⟨hindex'', hprogress', hloaded⟩ :=
              loadSingle_loads libs hstarted (hindex' ▸ hindex) hfind hdeps
            exact ⟨hindex''.trans hindex',
              hprogress.trans (by rw [hresult]; rfl) hprogress', hloaded⟩

end Managers

section Depth

open Descent

/-- A part of a walk ends: it keeps the index and forgets no name being resolved. -/
def Ends (m : PluginManager) (visiting : List String) (r : Option Walk) : Prop :=
  ∃ w, r = some w ∧ w.manager.manifestIndex = m.manifestIndex ∧ visiting ⊆ w.visiting

theorem resolveEach_ends {ensure : String → PluginManager → List String → Option Walk}
    {index : List PluginManifest} {depth : ℕ}
    (hensure : ∀ name m visiting, m.manifestIndex = index →
      remaining (index.map PluginManifest.name) visiting < depth → Ends m visiting (ensure name m visiting))
    (deps : List PluginDependency) {m : PluginManager} {visiting : List String}
    (hm : m.manifestIndex = index)
    (hdepth : remaining (index.map PluginManifest.name) visiting < depth) :
    Ends m visiting (resolveEach ensure deps m visiting) := by
  induction deps generalizing m visiting with
  | nil => exact ⟨_, rfl, rfl, List.Subset.refl _⟩
  | cons head rest ih =>
    obtain ⟨w, hw, hindex, hsub⟩ := hensure head.pluginName m visiting hm hdepth
    unfold resolveEach
    simp only [hw]
    split
    · exact ⟨_, rfl, hindex, hsub⟩
    · split
      · exact ⟨_, rfl, hindex, hsub⟩
      · have hdepth' := Nat.lt_of_le_of_lt (remaining_mono _ hsub) hdepth
        obtain ⟨w', hw', hindex', hsub'⟩ := ih (hindex.trans hm) hdepth'
        exact ⟨w', hw', hindex'.trans hindex, fun x hx => hsub' (hsub hx)⟩

theorem loadSingle_index (libs : String → Library) (manifest : PluginManifest)
    (m : PluginManager) : (loadSingle libs manifest m).2.manifestIndex = m.manifestIndex := by
  obtain ⟨handles, ⟨e, heq⟩ | ⟨inst, heq⟩⟩ := loadSingle_cases libs manifest m
  · rw [heq]
  · rw [heq]
    have hstarted := startInstance_started (libs manifest.name) manifest.name inst
      { m with libraryHandles := handles }
    revert hstarted
    generalize startInstance (libs manifest.name) manifest.name inst
      { m with libraryHandles := handles } = r
    intro hstarted
    cases hstarted <;> rfl

/-- A walk that may go deeper than there are plugins not being resolved yet ends. -/
theorem ensureLoaded_ends (libs : String → Library) {index : List PluginManifest} (depth : ℕ)
    (name : String) (m : PluginManager) (visiting : List String) (hm : m.manifestIndex = index)
    (hdepth : remaining (index.map PluginManifest.name) visiting < depth) :
    Ends m visiting (ensureLoaded libs depth name m visiting) := by
  induction depth generalizing name m visiting with
  | zero => cases hdepth
  | succ depth ih =>
    unfold ensureLoaded
    split_ifs with hresolves hvisiting
    · exact ⟨_, rfl, rfl, List.Subset.refl _⟩
    · exact ⟨_, rfl, rfl, List.Subset.refl _⟩
    · split
      · exact ⟨_, rfl, rfl, List.subset_cons_self _ _⟩
      next manifest hmanifest =>
        obtain ⟨hmem, hname⟩ := findManifest_eq_ok hmanifest
        have hkey : name ∈ index.map PluginManifest.name :=
          List.mem_map.mpr ⟨manifest, hm ▸ hmem, hname⟩
        have hlt := remaining_cons_lt hkey hvisiting
        have hdepth' : remaining (index.map PluginManifest.name) (name :: visiting) < depth := by
          omega
        obtain ⟨w, hw, hindex, hsub⟩ := resolveEach_ends ih manifest.dependencies hm hdepth'
        have hsub' : visiting ⊆ w.visiting := fun x hx => hsub (List.mem_cons_of_mem _ hx)
        simp only [hw]
        split
        · exact ⟨_, rfl, hindex, hsub'⟩
        · exact ⟨_, rfl, (loadSingle_index ..).trans hindex, hsub'⟩

theorem ensureLoaded_isSome (libs : String → Library) (name : String) (m : PluginManager) :
    (ensureLoaded libs (m.manifestIndex.length + 1) name m []).isSome = true := by
  have hle := remaining_le (m.manifestIndex.map PluginManifest.name) []
  rw [List.length_map] at hle
  obtain ⟨w, hw, -⟩ := ensureLoaded_ends libs (m.manifestIndex.length + 1) name m [] rfl
    (by omega)
  rw [hw]
  rfl

end Depth

/-- `Load`: the walk never goes deeper than there are plugins. -/
def load (libs : String → Library) (name : String) (m : PluginManager) : Step :=
  let w := (ensureLoaded libs (m.manifestIndex.length + 1) name m []).get
    (ensureLoaded_isSome libs name m)
  (w.result, w.manager)

theorem load_loads (libs : String → Library) (name : String) {m : PluginManager}
    (h : FullyStarted m) (hindex : NoCollisions m.manifestIndex) :
    Loads m name (load libs name m).1 (load libs name m).2 :=
  ensureLoaded_loads libs _ name m [] _ h hindex (Option.some_get _).symm

/-- A call of `Load`, with what the libraries do during it. -/
structure LoadCall where
  name : String
  libs : String → Library

def serve (c : LoadCall) (m : PluginManager) : Result Unit × PluginManager := load c.libs c.name m

abbrev Served := Exchange PluginManager LoadCall (Result Unit)

/-- A manager that has loaded nothing. -/
def discovered (knownCapabilities : List String) (index : List PluginManifest) : PluginManager :=
  ⟨knownCapabilities, index, [], [], [], []⟩

/-- After the call what can be resolved is fully started, and the call reports success only
for a plugin that is. -/
structure Trustworthy (x : Served) : Prop where
  started : FullyStarted x.after
  reported : x.reply = .ok () → fnv1aHash x.call.name ∈ x.after.loadOrder

/-- No hook that the call calls fails. -/
def HooksSucceed (x : Served) : Prop :=
  ∀ c ∈ x.after.hooks.drop x.before.hooks.length, c.ok = true

theorem fullyStarted_discovered (knownCapabilities : List String) (index : List PluginManifest) :
    FullyStarted (discovered knownCapabilities index) where
  resolvable id := by simp [discovered, resolve, fail]
  nodup := List.nodup_nil
  dependencies _ _ _ hid := by cases hid

/-- One load is trustworthy exactly if no hook fails in it. -/
theorem trustworthy_iff (m : PluginManager) (c : LoadCall)
    (h : FullyStarted m ∧ NoCollisions m.manifestIndex) :
    Trustworthy (exchange serve m c) ↔ HooksSucceed (exchange serve m c) := by
  obtain ⟨hindex, hprogress, hloaded⟩ := load_loads c.libs c.name h.1 h.2
  have hdrop : ∀ {calls : List HookCall}, (load c.libs c.name m).2.hooks = m.hooks ++ calls →
      (exchange serve m c).after.hooks.drop (exchange serve m c).before.hooks.length = calls := by
    intro calls hhooks
    show (load c.libs c.name m).2.hooks.drop m.hooks.length = calls
    rw [hhooks, List.drop_left]
  cases hprogress with
  | sound hhooks hok hstarted _ =>
    refine iff_of_true ⟨hstarted, hloaded⟩ fun call hcall => ?_
    rw [hdrop hhooks] at hcall
    exact hok call hcall
  | broken hhooks hfailed _ hleft =>
    obtain ⟨id, hid, hnot⟩ := hleft
    obtain ⟨call, hcall, hcallok⟩ := hfailed
    refine iff_of_false (fun ht => ?_) (fun hs => ?_)
    · exact hnot ((ht.started.registered_iff id).mp hid)
    · have := hs call ((hdrop hhooks).symm ▸ hcall)
      rw [hcallok] at this
      cases this

/-- In every run of loads what can be resolved is fully started, and every reported success
true, after every call exactly if no hook fails. -/
theorem loads_trustworthy_iff (knownCapabilities : List String) {index : List PluginManifest}
    (hindex : NoCollisions index) (calls : List LoadCall) :
    (∀ x ∈ exchanges serve (discovered knownCapabilities index) calls, Trustworthy x) ↔
      ∀ x ∈ exchanges serve (discovered knownCapabilities index) calls, HooksSucceed x :=
  forall_iff trustworthy_iff
    (fun _ c h ht => ⟨ht.started, (load_loads c.libs c.name h.1 h.2).index_eq ▸ h.2⟩)
    ⟨fullyStarted_discovered knownCapabilities index, hindex⟩ calls

/-- A plugin without dependencies. -/
def camera : PluginManifest := ⟨"camera", "libcamera.so", ⟨1, 0, 0⟩, [], [], "token"⟩

/-- Libraries whose hooks succeed, but for `OnStart`. -/
def cannotStart (_ : String) : Library :=
  ⟨none, true, true, some ⟨⟨1, 0, 0⟩⟩, .ok (), fail .coreConstructionFailed "no device"⟩

theorem loads_trustworthy_camera :
    (∀ x ∈ exchanges serve (discovered [] [camera]) [⟨"camera", cannotStart⟩],
      Trustworthy x) ↔
    ∀ x ∈ exchanges serve (discovered [] [camera]) [⟨"camera", cannotStart⟩], HooksSucceed x :=
  loads_trustworthy_iff [] (by
    intro x hx y hy _
    rw [List.mem_singleton.mp hx, List.mem_singleton.mp hy]) _

/-- A plugin whose `OnStart` failed is resolved all the same, and loading it again reports
success. -/
theorem loads_not_trustworthy :
    ¬∀ x ∈ exchanges serve (discovered [] [camera])
      [⟨"camera", cannotStart⟩, ⟨"camera", cannotStart⟩], Trustworthy x := by
  intro h
  have hagain := h _ (List.mem_cons_of_mem _ (List.mem_cons_self ..))
  exact absurd (hagain.reported (by decide)) (by decide)

end SurfaceAi.Plugin
