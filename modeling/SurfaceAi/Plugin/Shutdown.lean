import SurfaceAi.Plugin.PluginLoading

/-! Stopping and destroying what was loaded. Plugins whose hooks fail stay registered, and what
depends on them is loaded on top of them; the order in which plugins are stopped is right all the
same. -/

namespace SurfaceAi.Plugin

open Exchanges PluginManager

namespace PluginManager

variable (m : PluginManager)

/-- `ShutdownFrom`, with the plugins whose `OnStop` it calls, in order. -/
def shutdownFrom (onStop : TypeId → Result Unit) :
    (remaining : ℕ) → remaining ≤ m.loadOrder.length → Result Unit → Result Unit × List TypeId
  | 0, _, firstError => (firstError, [])
  | remaining + 1, h, firstError =>
    let id := m.loadOrder.get ⟨remaining, h⟩
    let nextError := m.resolve id >>= fun _ => onStop id
    let r := shutdownFrom onStop remaining (Nat.le_of_succ_le h)
      (if hasValue firstError then nextError else firstError)
    (r.1, if hasValue (m.resolve id) then id :: r.2 else r.2)

def shutdown (onStop : TypeId → Result Unit) : Result Unit × List TypeId :=
  m.shutdownFrom onStop m.loadOrder.length (Nat.le_refl _) (.ok ())

end PluginManager

/-- What the destructor of the manager does. -/
inductive Teardown where
  | destroy (id : TypeId)
  | close (name : String)
  deriving DecidableEq, Repr

namespace Teardown

def destroyed : Teardown → Option TypeId
  | .destroy id => some id
  | .close _ => none

end Teardown

/-- The destructor, for the libraries in the order of the table they are kept in. -/
def destruct (hasDestroy : String → Bool) (handles : List String) (m : PluginManager) :
    List Teardown :=
  handles.flatMap fun name =>
    (if hasValue (m.resolve (fnv1aHash name)) && hasDestroy name then
      [.destroy (fnv1aHash name)] else []) ++ [.close name]

/-- The plugins whose `OnStart` succeeded, in order. -/
def started (hooks : List HookCall) : List TypeId :=
  hooks.filterMap fun c =>
    if c.hook = .onStart ∧ c.ok = true then some (fnv1aHash c.name) else none

/-- The plugin with the first id declares the second one as a dependency. -/
def Requires (m : PluginManager) (x y : TypeId) : Prop :=
  ∃ manifest, m.findManifest manifest.name = .ok manifest ∧ fnv1aHash manifest.name = x ∧
    ∃ d ∈ manifest.dependencies, fnv1aHash d.pluginName = y

/-- What every load keeps, whether its hooks fail or not. -/
structure Layered (m : PluginManager) : Prop where
  nodup : m.registered.Nodup
  closed : ∀ x y, Requires m x y → x ∈ m.registered → y ∈ m.registered
  layers : m.registered.Pairwise fun x y => ¬Requires m x y
  sublist : m.loadOrder.Sublist m.registered
  hooks : started m.hooks = m.loadOrder
  handles : ∀ id ∈ m.registered, ∃ name ∈ m.libraryHandles, fnv1aHash name = id
  indexed : ∀ name ∈ m.libraryHandles, ∃ manifest ∈ m.manifestIndex, manifest.name = name
  opened : m.libraryHandles.Nodup

section Loading

variable {m m' : PluginManager}

theorem requires_congr (h : m'.manifestIndex = m.manifestIndex) (x y : TypeId) :
    Requires m' x y ↔ Requires m x y := by
  simp only [Requires, findManifest_congr h]

theorem started_append (hooks calls : List HookCall) :
    started (hooks ++ calls) = started hooks ++ started calls := List.filterMap_append ..

theorem Layered.withHandle (h : Layered m) {manifest : PluginManifest}
    (hmanifest : manifest ∈ m.manifestIndex) :
    Layered { m with libraryHandles := m.libraryHandles.insert manifest.name } where
  nodup := h.nodup
  closed := h.closed
  layers := h.layers
  sublist := h.sublist
  hooks := h.hooks
  handles id hid := by
    obtain ⟨name, hname, hhash⟩ := h.handles id hid
    exact ⟨name, List.mem_insert_of_mem hname, hhash⟩
  indexed name hname := by
    rcases List.mem_insert_iff.mp hname with rfl | hname
    · exact ⟨manifest, hmanifest, rfl⟩
    · exact h.indexed name hname
  opened := h.opened.insert

/-- An instance is registered on top of what it depends on. -/
theorem Layered.withInstance (h : Layered m) (hindex : NoCollisions m.manifestIndex)
    {manifest : PluginManifest} (hmanifest : m.findManifest manifest.name = .ok manifest)
    (hdeps : ∀ d ∈ manifest.dependencies, fnv1aHash d.pluginName ∈ m.registered)
    (hnew : fnv1aHash manifest.name ∉ m.registered) (hhandle : manifest.name ∈ m.libraryHandles)
    (inst : Instance) {calls : List HookCall} {ids : List TypeId}
    (hids : ids.Sublist [fnv1aHash manifest.name]) (hcalls : started calls = ids) :
    Layered { withInstance m (fnv1aHash manifest.name) inst calls with
      loadOrder := m.loadOrder ++ ids } := by
  have hreg := registered_withInstance (m := m) (fnv1aHash manifest.name) inst calls
  refine ⟨?_, ?_, ?_, ?_, ?_, ?_, h.indexed, h.opened⟩
  · show (Plugin.withInstance m (fnv1aHash manifest.name) inst calls).registered.Nodup
    rw [hreg]
    refine List.nodup_append.mpr ⟨h.nodup, List.nodup_singleton _, ?_⟩
    rintro id hid _ hid' rfl
    obtain rfl := List.mem_singleton.mp hid'
    exact hnew hid
  · intro x y hxy hx
    show y ∈ (Plugin.withInstance m (fnv1aHash manifest.name) inst calls).registered
    have hxy : Requires m x y := hxy
    have hx : x ∈ (Plugin.withInstance m (fnv1aHash manifest.name) inst calls).registered := hx
    rw [hreg] at hx ⊢
    apply List.mem_append_left
    rcases List.mem_append.mp hx with hx | hx
    · exact h.closed x y hxy hx
    · obtain ⟨manifest', hfind, hhash, d, hd, rfl⟩ := hxy
      have hname : manifest'.name = manifest.name :=
        hindex _ (findManifest_eq_ok hfind).1 _ (findManifest_eq_ok hmanifest).1
          (hhash.trans (List.mem_singleton.mp hx))
      rw [hname, hmanifest] at hfind
      obtain rfl := Except.ok.inj hfind
      exact hdeps d hd
  · show (Plugin.withInstance m (fnv1aHash manifest.name) inst calls).registered.Pairwise _
    rw [hreg]
    refine List.pairwise_append.mpr ⟨h.layers, List.pairwise_singleton .., ?_⟩
    intro x hx y hy hxy
    obtain rfl := List.mem_singleton.mp hy
    exact hnew (h.closed x _ hxy hx)
  · show (m.loadOrder ++ ids).Sublist
      (Plugin.withInstance m (fnv1aHash manifest.name) inst calls).registered
    rw [hreg]
    exact h.sublist.append hids
  · show started (m.hooks ++ calls) = m.loadOrder ++ ids
    rw [started_append, h.hooks, hcalls]
  · intro id hid
    have hid : id ∈ (Plugin.withInstance m (fnv1aHash manifest.name) inst calls).registered := hid
    rw [hreg] at hid
    rcases List.mem_append.mp hid with hid | hid
    · exact h.handles id hid
    · exact ⟨manifest.name, hhandle, (List.mem_singleton.mp hid).symm⟩

/-- What a part of a walk that loads `name` comes to, whatever the hooks do. -/
structure Builds (m : PluginManager) (name : String) (r : Result Unit) (m' : PluginManager) :
    Prop where
  index_eq : m'.manifestIndex = m.manifestIndex
  layered : Layered m'
  subset : m.registered ⊆ m'.registered
  loaded : r = .ok () → fnv1aHash name ∈ m'.registered

theorem Layered.startInstance (h : Layered m) (hindex : NoCollisions m.manifestIndex)
    {manifest : PluginManifest} (hmanifest : m.findManifest manifest.name = .ok manifest)
    (hdeps : ∀ d ∈ manifest.dependencies, fnv1aHash d.pluginName ∈ m.registered)
    (hhandle : manifest.name ∈ m.libraryHandles) (lib : Library) (inst : Instance) :
    Builds m manifest.name (startInstance lib manifest.name inst m).1
      (startInstance lib manifest.name inst m).2 := by
  unfold Plugin.startInstance register
  split_ifs with hreg
  · exact ⟨rfl, h, List.Subset.refl _, by simp [Step.andThen, fail]⟩
  · have hbuild : ∀ {r : Result Unit} {calls : List HookCall} {ids : List TypeId},
        ids.Sublist [fnv1aHash manifest.name] → started calls = ids →
          Builds m manifest.name r
            { Plugin.withInstance m (fnv1aHash manifest.name) inst calls with
              loadOrder := m.loadOrder ++ ids } := by
      intro r calls ids hids hcalls
      have hregistered := registered_withInstance (m := m) (fnv1aHash manifest.name) inst calls
      refine ⟨rfl, h.withInstance hindex hmanifest hdeps hreg hhandle inst hids hcalls, ?_, ?_⟩
      · show m.registered ⊆ (Plugin.withInstance m _ inst calls).registered
        rw [hregistered]
        exact List.subset_append_left ..
      · intro _
        show _ ∈ (Plugin.withInstance m _ inst calls).registered
        rw [hregistered]
        exact List.mem_append_right _ (List.mem_singleton.mpr rfl)
    simp only [Step.andThen, callHook]
    cases hinit : lib.onInitialize with
    | error e =>
      have hfailed := @hbuild (.error e) [⟨manifest.name, .onInitialize, false⟩] []
        (List.nil_sublist _) rfl
      rw [List.append_nil] at hfailed
      exact hfailed
    | ok u =>
      cases hstart : lib.onStart with
      | error e =>
        have hfailed := @hbuild (.error e)
          [⟨manifest.name, .onInitialize, true⟩, ⟨manifest.name, .onStart, false⟩] []
          (List.nil_sublist _) rfl
        rw [List.append_nil] at hfailed
        simp only [List.append_assoc]
        exact hfailed
      | ok u =>
        simp only [List.append_assoc]
        exact @hbuild (.ok ())
          [⟨manifest.name, .onInitialize, true⟩, ⟨manifest.name, .onStart, true⟩] _
          (List.Sublist.refl _) rfl

theorem Builds.refused {name : String} {e : ErrorInfo} (h : Layered m) :
    Builds m name (.error e) m := ⟨rfl, h, List.Subset.refl _, by simp⟩

theorem loadSingle_builds (libs : String → Library) (h : Layered m)
    (hindex : NoCollisions m.manifestIndex) {manifest : PluginManifest}
    (hmanifest : m.findManifest manifest.name = .ok manifest)
    (hdeps : ∀ d ∈ manifest.dependencies, fnv1aHash d.pluginName ∈ m.registered) :
    Builds m manifest.name (loadSingle libs manifest m).1 (loadSingle libs manifest m).2 := by
  unfold loadSingle
  split
  · exact .refused h
  · split
    · exact .refused h
    · dsimp only
      split
      · exact .refused h
      · have h' := h.withHandle (findManifest_eq_ok hmanifest).1
        split
        · exact ⟨rfl, h', List.Subset.refl _, by simp⟩
        · have hstart := h'.startInstance hindex hmanifest hdeps
            (List.mem_insert_iff.mpr (.inl rfl)) (libs manifest.name) ‹_›
          exact ⟨hstart.index_eq, hstart.layered, hstart.subset, hstart.loaded⟩

/-- Loading each dependency, given what loading one of them comes to. -/
theorem resolveEach_builds {ensure : String → PluginManager → List String → Option Walk}
    (hensure : ∀ name m visiting w, Layered m → NoCollisions m.manifestIndex →
      ensure name m visiting = some w → Builds m name w.result w.manager)
    {deps : List PluginDependency} {m : PluginManager} {visiting : List String} {w : Walk}
    (h : Layered m) (hindex : NoCollisions m.manifestIndex)
    (hw : resolveEach ensure deps m visiting = some w) :
    w.manager.manifestIndex = m.manifestIndex ∧ Layered w.manager ∧
      m.registered ⊆ w.manager.registered ∧
        (w.result = .ok () → ∀ d ∈ deps, fnv1aHash d.pluginName ∈ w.manager.registered) := by
  induction deps generalizing m visiting with
  | nil =>
    obtain rfl := Option.some.inj hw
    exact ⟨rfl, h, List.Subset.refl _, by simp⟩
  | cons head rest ih =>
    unfold resolveEach at hw
    split at hw
    · cases hw
    next w' hw' =>
      have hhead := hensure _ _ _ _ h hindex hw'
      split at hw
      next e hresult =>
        obtain rfl := Option.some.inj hw
        exact ⟨hhead.index_eq, hhead.layered, hhead.subset, by simp⟩
      next hresult =>
        split at hw
        · obtain rfl := Option.some.inj hw
          exact ⟨hhead.index_eq, hhead.layered, hhead.subset, by simp⟩
        · obtain ⟨hindex', hlayered, hsub, hrest⟩ :=
            ih hhead.layered (hhead.index_eq ▸ hindex) hw
          refine ⟨hindex'.trans hhead.index_eq, hlayered,
            List.Subset.trans hhead.subset hsub, fun hok d hd => ?_⟩
          rcases List.mem_cons.mp hd with rfl | hd
          · exact hsub (hhead.loaded hresult)
          · exact hrest hok d hd

theorem ensureLoaded_builds (libs : String → Library) (depth : ℕ) (name : String)
    (m : PluginManager) (visiting : List String) (w : Walk) (h : Layered m)
    (hindex : NoCollisions m.manifestIndex)
    (hw : ensureLoaded libs depth name m visiting = some w) :
    Builds m name w.result w.manager := by
  induction depth generalizing name m visiting w with
  | zero => cases hw
  | succ depth ih =>
    unfold ensureLoaded at hw
    split_ifs at hw with hresolves hvisiting
    · obtain rfl := Option.some.inj hw
      exact ⟨rfl, h, List.Subset.refl _, fun _ => (hasValue_resolve m _).mp hresolves⟩
    · obtain rfl := Option.some.inj hw
      exact .refused h
    · split at hw
      · obtain rfl := Option.some.inj hw
        exact .refused h
      next manifest hmanifest =>
        split at hw
        · cases hw
        next w' hw' =>
          obtain ⟨hindex', hlayered, hsub, hdone⟩ := resolveEach_builds ih h hindex hw'
          split at hw
          next e hresult =>
            obtain rfl := Option.some.inj hw
            exact ⟨hindex', hlayered, hsub, by simp⟩
          next hresult =>
            obtain rfl := Option.some.inj hw
            obtain ⟨-, rfl⟩ := findManifest_eq_ok hmanifest
            have hfind : w'.manager.findManifest manifest.name = .ok manifest := by
              rw [findManifest_congr hindex', hmanifest]
            have hsingle := loadSingle_builds libs hlayered (hindex' ▸ hindex) hfind
              (hdone hresult)
            exact ⟨hsingle.index_eq.trans hindex', hsingle.layered,
              List.Subset.trans hsub hsingle.subset, hsingle.loaded⟩

theorem load_builds (libs : String → Library) (name : String) (h : Layered m)
    (hindex : NoCollisions m.manifestIndex) :
    Builds m name (load libs name m).1 (load libs name m).2 :=
  ensureLoaded_builds libs _ name m [] _ h hindex (Option.some_get _).symm

end Loading

/-! ### Stopping -/

section Stopping

variable {m : PluginManager}

/-- The first error that the plugins answer, in the order in which they are stopped. -/
def firstError (onStop : TypeId → Result Unit) : List TypeId → Result Unit
  | [] => .ok ()
  | id :: ids => if hasValue (onStop id) then firstError onStop ids else onStop id

theorem resolve_of_registered {id : TypeId} (h : id ∈ m.registered) :
    ∃ inst, m.resolve id = .ok inst := by
  have hvalue := (hasValue_resolve m id).mpr h
  cases hresolve : m.resolve id with
  | error e =>
    rw [hresolve] at hvalue
    cases hvalue
  | ok inst => exact ⟨inst, rfl⟩

/-- What was started last is stopped first, and an error stops nothing. -/
theorem shutdownFrom_eq (h : Layered m) (onStop : TypeId → Result Unit) (remaining : ℕ)
    (hle : remaining ≤ m.loadOrder.length) (first : Result Unit) :
    m.shutdownFrom onStop remaining hle first =
      (if hasValue first then firstError onStop (m.loadOrder.take remaining).reverse else first,
        (m.loadOrder.take remaining).reverse) := by
  induction remaining generalizing first with
  | zero =>
    cases first with
    | error e => rfl
    | ok u => rfl
  | succ remaining ih =>
    have hid : m.loadOrder[remaining] ∈ m.registered := h.sublist.subset (List.getElem_mem hle)
    obtain ⟨inst, hinst⟩ := resolve_of_registered hid
    have htake : (m.loadOrder.take (remaining + 1)).reverse =
        m.loadOrder[remaining] :: (m.loadOrder.take remaining).reverse := by
      rw [List.take_add_one, List.getElem?_eq_getElem hle, List.reverse_append]
      rfl
    rw [shutdownFrom, htake, ih (Nat.le_of_succ_le hle)]
    simp only [List.get_eq_getElem, hinst, firstError]
    cases first with
    | error e => rfl
    | ok u =>
      have hbind : (Except.ok inst >>= fun _ => onStop m.loadOrder[remaining]) =
          onStop m.loadOrder[remaining] := rfl
      rw [hbind]
      cases onStop m.loadOrder[remaining] with
      | error e => rfl
      | ok u => rfl

theorem shutdown_eq (h : Layered m) (onStop : TypeId → Result Unit) :
    m.shutdown onStop = (firstError onStop m.loadOrder.reverse, m.loadOrder.reverse) := by
  rw [shutdown, shutdownFrom_eq h, List.take_length]
  rfl

end Stopping

/-! ### Every run -/

/-- A call of the manager, with what the plugins do during it. -/
inductive ManagerCall where
  | load (c : LoadCall)
  | shutdown (onStop : TypeId → Result Unit)

/-- What a call returns, and the plugins whose `OnStop` it called. -/
structure ManagerReply where
  result : Result Unit
  stopped : List TypeId

def serveCall : ManagerCall → PluginManager → ManagerReply × PluginManager
  | .load c, m => (⟨(serve c m).1, []⟩, (serve c m).2)
  | .shutdown onStop, m => (⟨(m.shutdown onStop).1, (m.shutdown onStop).2⟩, m)

theorem layered_discovered (knownCapabilities : List String) (index : List PluginManifest) :
    Layered (discovered knownCapabilities index) where
  nodup := List.nodup_nil
  closed _ _ _ hx := by cases hx
  layers := .nil
  sublist := List.Sublist.refl _
  hooks := rfl
  handles _ hid := by cases hid
  indexed _ hname := by cases hname
  opened := List.nodup_nil

theorem serveCall_layered (m : PluginManager) (c : ManagerCall)
    (h : Layered m ∧ NoCollisions m.manifestIndex) :
    Layered (serveCall c m).2 ∧ NoCollisions (serveCall c m).2.manifestIndex := by
  cases c with
  | load c =>
    have hbuild := load_builds c.libs c.name h.1 h.2
    exact ⟨hbuild.layered, hbuild.index_eq ▸ h.2⟩
  | shutdown onStop => exact h

abbrev ManagerServed := Exchange PluginManager ManagerCall ManagerReply

/-- What a call of `Shutdown` comes to. -/
structure StopsInOrder (x : ManagerServed) (onStop : TypeId → Result Unit) : Prop where
  stopped : x.reply.stopped = (started x.before.hooks).reverse
  once : x.reply.stopped.Nodup
  dependents : x.reply.stopped.Pairwise fun first second => ¬Requires x.before second first
  result : x.reply.result = firstError onStop x.reply.stopped

/-- Every shutdown stops what was started and nothing else, each plugin once and none after one
that it depends on, and reports the first error. -/
theorem shutdown_stops_in_order (knownCapabilities : List String) {index : List PluginManifest}
    (hindex : NoCollisions index) (calls : List ManagerCall) :
    ∀ x ∈ exchanges serveCall (discovered knownCapabilities index) calls,
      ∀ onStop, x.call = .shutdown onStop → StopsInOrder x onStop := by
  apply forall_of_invariant (I := fun m => Layered m ∧ NoCollisions m.manifestIndex)
    (P := fun x : ManagerServed => ∀ onStop, x.call = .shutdown onStop → StopsInOrder x onStop)
  · rintro m c ⟨h, -⟩ onStop hcall
    obtain rfl : c = .shutdown onStop := hcall
    have hreply : (exchange serveCall m (.shutdown onStop)).reply =
        ⟨firstError onStop m.loadOrder.reverse, m.loadOrder.reverse⟩ := by
      show ManagerReply.mk (m.shutdown onStop).1 (m.shutdown onStop).2 = _
      rw [shutdown_eq h]
    constructor
    · rw [hreply]
      show _ = (started m.hooks).reverse
      rw [h.hooks]
    · rw [hreply]
      exact List.nodup_reverse.mpr (h.nodup.sublist h.sublist)
    · rw [hreply]
      exact List.pairwise_reverse.mpr (h.layers.sublist h.sublist)
    · rw [hreply]
  · exact serveCall_layered
  · exact ⟨layered_discovered knownCapabilities index, hindex⟩

/-- A plugin that depends on the camera's. -/
def lights : PluginManifest :=
  ⟨"lights", "liblights.so", ⟨1, 0, 0⟩, [],
    [⟨"camera", ⟨⟨1, 0, 0⟩, ⟨2, 0, 0⟩⟩⟩], "token"⟩

/-- Libraries whose hooks succeed. -/
def canStart (_ : String) : Library :=
  ⟨none, true, true, some ⟨⟨1, 0, 0⟩⟩, .ok (), .ok ()⟩

theorem noCollisions_lights : NoCollisions [camera, lights] := by
  unfold NoCollisions
  decide +kernel

/-- Both are loaded, and the one that is stopped first fails. -/
theorem shutdown_stops_in_order_lights :
    ∃ x ∈ exchanges serveCall (discovered [] [camera, lights])
        [.load ⟨"lights", canStart⟩, .shutdown fun _ => fail .coreConstructionFailed "busy"],
      x.call = .shutdown (fun _ => fail .coreConstructionFailed "busy") ∧
        StopsInOrder x fun _ => fail .coreConstructionFailed "busy" := by
  refine ⟨_, List.mem_cons_of_mem _ List.mem_cons_self, rfl, ?_⟩
  apply shutdown_stops_in_order [] noCollisions_lights
    [.load ⟨"lights", canStart⟩, .shutdown fun _ => fail .coreConstructionFailed "busy"]
  · exact List.mem_cons_of_mem _ List.mem_cons_self
  · rfl

/-! ### The destructor -/

section Destroying

variable {m : PluginManager}

theorem destroyed_destruct (hasDestroy : String → Bool) (handles : List String)
    (m : PluginManager) (hdestroy : ∀ name ∈ handles, fnv1aHash name ∈ m.registered →
      hasDestroy name = true) :
    (destruct hasDestroy handles m).filterMap Teardown.destroyed =
      (handles.map fnv1aHash).filter (· ∈ m.registered) := by
  induction handles with
  | nil => rfl
  | cons name rest ih =>
    have hrest := ih fun n hn => hdestroy n (List.mem_cons_of_mem _ hn)
    rw [destruct, List.flatMap_cons, List.filterMap_append, List.map_cons, ← destruct, hrest]
    by_cases hname : fnv1aHash name ∈ m.registered
    · have hvalue := (hasValue_resolve m _).mpr hname
      simp [hvalue, hdestroy name List.mem_cons_self hname, hname, Teardown.destroyed]
    · have hvalue : hasValue (m.resolve (fnv1aHash name)) = false :=
        Bool.eq_false_iff.mpr fun hc => hname ((hasValue_resolve m _).mp hc)
      simp [hvalue, hname, Teardown.destroyed]

/-- The libraries are of different plugins, and so are their type ids. -/
theorem Layered.handles_injective (h : Layered m) (hindex : NoCollisions m.manifestIndex)
    {x y : String} (hx : x ∈ m.libraryHandles) (hy : y ∈ m.libraryHandles)
    (hhash : fnv1aHash x = fnv1aHash y) : x = y := by
  obtain ⟨first, hfirst, rfl⟩ := h.indexed x hx
  obtain ⟨second, hsecond, rfl⟩ := h.indexed y hy
  exact hindex first hfirst second hsecond hhash

theorem destroyed_perm (h : Layered m) (hindex : NoCollisions m.manifestIndex)
    {handles : List String} (hperm : handles.Perm m.libraryHandles) :
    ((handles.map fnv1aHash).filter (· ∈ m.registered)).Perm m.registered := by
  have hnodup : (handles.map fnv1aHash).Nodup := by
    apply List.Nodup.map_on
    · intro x hx y hy
      exact h.handles_injective hindex (hperm.mem_iff.mp hx) (hperm.mem_iff.mp hy)
    · exact hperm.nodup_iff.mpr h.opened
  apply (List.perm_ext_iff_of_nodup (hnodup.filter _) h.nodup).mpr
  intro id
  rw [List.mem_filter, decide_eq_true_iff]
  constructor
  · exact And.right
  · intro hid
    obtain ⟨name, hname, hhash⟩ := h.handles id hid
    exact ⟨List.mem_map.mpr ⟨name, hperm.mem_iff.mpr hname, hhash⟩, hid⟩

/-- An instance is destroyed while its library is open. -/
theorem earlier_destruct {hasDestroy : String → Bool} {handles : List String} {name : String}
    (hname : name ∈ handles) (hreg : fnv1aHash name ∈ m.registered)
    (hdestroy : hasDestroy name = true) :
    Earlier (destruct hasDestroy handles m) (.destroy (fnv1aHash name)) (.close name) := by
  obtain ⟨front, back, rfl⟩ := List.append_of_mem hname
  have hvalue := (hasValue_resolve m _).mpr hreg
  refine ⟨destruct hasDestroy front m ++ [.destroy (fnv1aHash name)],
    destruct hasDestroy back m, ?_, ?_⟩
  · simp [destruct, hvalue, hdestroy]
  · exact List.mem_append_right _ List.mem_cons_self

end Destroying

/-- What the destructor comes to if the libraries still have the symbols they were loaded for. -/
def DestroysOnce (m : PluginManager) : Prop :=
  ∀ hasDestroy handles, handles.Perm m.libraryHandles →
    (∀ name ∈ handles, fnv1aHash name ∈ m.registered → hasDestroy name = true) →
      m.registered.Nodup ∧
      ((destruct hasDestroy handles m).filterMap Teardown.destroyed).Perm m.registered ∧
      ∀ name ∈ handles, fnv1aHash name ∈ m.registered →
        Earlier (destruct hasDestroy handles m) (.destroy (fnv1aHash name)) (.close name)

/-- After any run of calls and in whatever order the libraries are closed, each registered
instance is destroyed once, before its library is closed. -/
theorem destruct_destroys_once (knownCapabilities : List String) {index : List PluginManifest}
    (hindex : NoCollisions index) (calls : List ManagerCall) :
    ∀ x ∈ exchanges serveCall (discovered knownCapabilities index) calls,
      DestroysOnce x.after := by
  apply forall_of_invariant (I := fun m => Layered m ∧ NoCollisions m.manifestIndex)
    (P := fun x : ManagerServed => DestroysOnce x.after)
  · intro m c hm hasDestroy handles hperm hdestroy
    obtain ⟨h, hnocoll⟩ := serveCall_layered m c hm
    refine ⟨h.nodup, ?_, fun name hname hreg => ?_⟩
    · rw [destroyed_destruct hasDestroy handles _ hdestroy]
      exact destroyed_perm h hnocoll hperm
    · exact earlier_destruct hname hreg (hdestroy name hname hreg)
  · exact serveCall_layered
  · exact ⟨layered_discovered knownCapabilities index, hindex⟩

/-- The camera's plugin fails to start. -/
theorem destruct_destroys_once_lights :
    ∃ x ∈ exchanges serveCall (discovered [] [camera, lights])
        [.load ⟨"camera", cannotStart⟩, .load ⟨"lights", canStart⟩],
      x.call = .load ⟨"lights", canStart⟩ ∧ DestroysOnce x.after := by
  refine ⟨_, List.mem_cons_of_mem _ List.mem_cons_self, rfl, ?_⟩
  apply destruct_destroys_once [] noCollisions_lights
    [.load ⟨"camera", cannotStart⟩, .load ⟨"lights", canStart⟩]
  exact List.mem_cons_of_mem _ List.mem_cons_self

end SurfaceAi.Plugin
