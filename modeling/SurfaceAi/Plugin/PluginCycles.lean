import SurfaceAi.Plugin.PluginLoading
import SurfaceAi.Library.Kahn

/-! Cycles among the plugins. The set of names being resolved is never shrunk, so it holds what
is in progress and what is done; but what is done is registered, and that is asked first. A
name that is met again and is not registered is therefore in progress, and it depends on itself.
When nothing else fails, a load reports a cycle exactly if it meets one. -/

namespace SurfaceAi.Plugin

open Relation PluginManager

def DependsOn (m : PluginManager) (a b : String) : Prop :=
  ∃ manifest, m.findManifest a = .ok manifest ∧ ∃ d ∈ manifest.dependencies, d.pluginName = b

/-- No plugin of this name's type id is loaded. -/
def NotLoaded (m : PluginManager) (name : String) : Prop := fnv1aHash name ∉ m.registered

instance (m : PluginManager) (name : String) : Decidable (NotLoaded m name) :=
  inferInstanceAs (Decidable (_ ∉ _))

/-- A dependency between plugins that are both not loaded. -/
def Pending (m : PluginManager) (a b : String) : Prop :=
  NotLoaded m a ∧ NotLoaded m b ∧ DependsOn m a b

/-- The plugin leads, by plugins that are not loaded, to a cycle of such plugins. -/
def LeadsToCycle (m : PluginManager) (name : String) : Prop :=
  ∃ c, ReflTransGen (Pending m) name c ∧ TransGen (Pending m) c c

/-- Everything a load does with the plugins of the index succeeds, but for the cycles: the
validations, the libraries and the hooks; and what they depend on is in the index. -/
structure AllSucceed (libs : String → Library) (m : PluginManager) : Prop where
  capabilities : ∀ manifest ∈ m.manifestIndex,
    m.validateCapabilities manifest.capabilities = .ok ()
  license : ∀ manifest ∈ m.manifestIndex, validateLicense manifest.licenseToken = .ok ()
  opens : ∀ manifest ∈ m.manifestIndex,
    dlOpen (libs manifest.name) manifest.libraryPath = .ok ()
  creates : ∀ manifest ∈ m.manifestIndex,
    hasValue (createInstance (libs manifest.name) manifest) = true
  hooks : ∀ manifest ∈ m.manifestIndex,
    (libs manifest.name).onInitialize = .ok () ∧ (libs manifest.name).onStart = .ok ()
  found : ∀ manifest ∈ m.manifestIndex, ∀ d ∈ manifest.dependencies,
    hasValue (m.findManifest d.pluginName) = true
  versions : ∀ manifest ∈ m.manifestIndex, ∀ d ∈ manifest.dependencies, ∀ inst,
    m.resolve (fnv1aHash d.pluginName) = .ok inst ∨
        NotLoaded m d.pluginName ∧ (libs d.pluginName).create = some inst →
      checkVersion d.requiredVersion inst.version = .ok ()

section Managers

variable {libs : String → Library} {m m₀ : PluginManager}

theorem LeadsToCycle.notLoaded {name : String} (h : LeadsToCycle m name) : NotLoaded m name := by
  obtain ⟨c, hreach, hcycle⟩ := h
  rcases ReflTransGen.cases_head hreach with rfl | ⟨_, hpending, -⟩
  · obtain ⟨_, hpending, -⟩ := TransGen.head'_iff.mp hcycle
    exact hpending.1
  · exact hpending.1

theorem leadsToCycle_of_self {name : String} (h : TransGen (Pending m) name name) :
    LeadsToCycle m name := ⟨name, .refl, h⟩

theorem LeadsToCycle.head {a b : String} (hab : Pending m a b) (h : LeadsToCycle m b) :
    LeadsToCycle m a := by
  obtain ⟨c, hreach, hcycle⟩ := h
  exact ⟨c, hreach.head hab, hcycle⟩

/-- A plugin that leads to a cycle has a dependency that does. -/
theorem LeadsToCycle.dependency {name : String} (h : LeadsToCycle m name) :
    ∃ b, Pending m name b ∧ LeadsToCycle m b := by
  obtain ⟨c, hreach, hcycle⟩ := h
  rcases ReflTransGen.cases_head hreach with rfl | ⟨b, hpending, hrest⟩
  · obtain ⟨b, hpending, hb⟩ := Cycles.exists_succ_on_cycle hcycle
    exact ⟨b, hpending, leadsToCycle_of_self hb⟩
  · exact ⟨b, hpending, c, hrest, hcycle⟩

theorem resolve_eq_ok {id : TypeId} {inst : Instance} :
    m.resolve id = .ok inst ↔ m.registry.lookup id = some inst := by
  unfold resolve
  cases m.registry.lookup id with
  | some inst' => simp
  | none => simp [fail]

theorem mem_registry_of_resolve {id : TypeId} {inst : Instance} (h : m.resolve id = .ok inst) :
    (id, inst) ∈ m.registry := by
  obtain ⟨front, back, hsplit, -⟩ := List.lookup_eq_some_iff.mp (resolve_eq_ok.mp h)
  rw [hsplit]
  simp

theorem validateCapabilities_congr (h : m.knownCapabilities = m₀.knownCapabilities)
    (declared : List String) :
    m.validateCapabilities declared = m₀.validateCapabilities declared := by
  unfold validateCapabilities
  rw [h]

theorem create_of_createInstance {lib : Library} {manifest : PluginManifest} {inst : Instance}
    (h : createInstance lib manifest = .ok inst) : lib.create = some inst := by
  unfold createInstance at h
  simp only [seq_eq_ok] at h
  obtain ⟨-, -, hcreate⟩ := h
  split at hcreate
  next inst' heq => rw [heq, Except.ok.inj hcreate]
  next => cases hcreate

/-- An instance of a new type id whose hooks succeed. -/
theorem startInstance_of_ok {lib : Library} {name : String} (hnew : NotLoaded m name)
    (hinit : lib.onInitialize = .ok ()) (hstart : lib.onStart = .ok ()) (inst : Instance) :
    startInstance lib name inst m = (.ok (), { m with
      registry := m.registry ++ [(fnv1aHash name, inst)]
      hooks := m.hooks ++ [⟨name, .onInitialize, true⟩] ++ [⟨name, .onStart, true⟩]
      loadOrder := m.loadOrder ++ [fnv1aHash name] }) := by
  unfold startInstance register
  rw [if_neg hnew]
  simp only [Step.andThen, callHook, hinit, hstart, hasValue_ok]

/-- Loading a plugin of the index that is not loaded registers the instance it creates. -/
theorem loadSingle_of_allSucceed (h : AllSucceed libs m₀)
    (hknown : m.knownCapabilities = m₀.knownCapabilities) {manifest : PluginManifest}
    (hmem : manifest ∈ m₀.manifestIndex) (hnew : NotLoaded m manifest.name) :
    ∃ inst, (libs manifest.name).create = some inst ∧
      (loadSingle libs manifest m).1 = .ok () ∧
      (loadSingle libs manifest m).2.registry = m.registry ++ [(fnv1aHash manifest.name, inst)] ∧
      (loadSingle libs manifest m).2.manifestIndex = m.manifestIndex ∧
      (loadSingle libs manifest m).2.knownCapabilities = m.knownCapabilities := by
  obtain ⟨inst, hinst⟩ := hasValue_iff.mp (h.creates manifest hmem)
  obtain ⟨hinit, hstart⟩ := h.hooks manifest hmem
  have hcapabilities := h.capabilities manifest hmem
  rw [← validateCapabilities_congr hknown] at hcapabilities
  have hnew' : NotLoaded { m with libraryHandles := m.libraryHandles.insert manifest.name }
      manifest.name := hnew
  have hload : loadSingle libs manifest m = startInstance (libs manifest.name) manifest.name inst
      { m with libraryHandles := m.libraryHandles.insert manifest.name } := by
    simp only [loadSingle, hcapabilities, h.license manifest hmem, h.opens manifest hmem, hinst]
  rw [hload, startInstance_of_ok hnew' hinit hstart]
  exact ⟨inst, create_of_createInstance hinst, rfl, rfl, rfl, rfl⟩

/-! ### The walk -/

/-- The manager midway in a walk from `m₀`, while the plugins `stack` are being resolved: what
is marked is in progress or loaded, and what was loaded on the way leads to no cycle. -/
structure Midway (libs : String → Library) (m₀ m : PluginManager) (visiting stack : List String) :
    Prop where
  index_eq : m.manifestIndex = m₀.manifestIndex
  known_eq : m.knownCapabilities = m₀.knownCapabilities
  grows : ∀ id ∈ m₀.registered, id ∈ m.registered
  progress : ∀ s ∈ stack, NotLoaded m s ∧ s ∈ visiting ∧ s ∈ m₀.manifestIndex.map PluginManifest.name
  marked : ∀ s ∈ visiting, s ∈ stack ∨ fnv1aHash s ∈ m.registered
  loaded : ∀ name, fnv1aHash name ∈ m.registered →
    fnv1aHash name ∈ m₀.registered ∨ ¬LeadsToCycle m₀ name
  instances : ∀ id inst, m.resolve id = .ok inst → m₀.resolve id = .ok inst ∨
    id ∉ m₀.registered ∧ ∃ manifest ∈ m₀.manifestIndex, fnv1aHash manifest.name = id ∧
      (libs manifest.name).create = some inst

/-- How a part of the walk that is to load `goals` ends, from the manager `m`: they are all
loaded, or one of them leads to a cycle and the error says so. -/
inductive Resolved (libs : String → Library) (m₀ m : PluginManager) (stack goals : List String) :
    Walk → Prop where
  | loaded {m' : PluginManager} {visiting : List String} : Midway libs m₀ m' visiting stack →
      m.registered ⊆ m'.registered → (∀ g ∈ goals, fnv1aHash g ∈ m'.registered) →
        Resolved libs m₀ m stack goals ⟨.ok (), m', visiting⟩
  | cyclic {m' : PluginManager} {visiting : List String} {e : ErrorInfo} :
      e.code = .pluginCircularDependency → (∃ g ∈ goals, LeadsToCycle m₀ g) →
        Resolved libs m₀ m stack goals ⟨.error e, m', visiting⟩

variable {visiting stack : List String}

theorem Midway.start (libs : String → Library) (m : PluginManager) : Midway libs m m [] [] where
  index_eq := rfl
  known_eq := rfl
  grows _ hid := hid
  progress _ hs := by cases hs
  marked _ hs := by cases hs
  loaded _ hid := .inl hid
  instances _ _ hinst := .inl hinst

theorem Midway.findManifest (h : Midway libs m₀ m visiting stack) (name : String) :
    m.findManifest name = m₀.findManifest name := findManifest_congr h.index_eq name

theorem Midway.notLoaded (h : Midway libs m₀ m visiting stack) {name : String}
    (hnew : NotLoaded m name) : NotLoaded m₀ name := fun hid => hnew (h.grows _ hid)

/-- A plugin whose resolution begins. -/
theorem Midway.push (h : Midway libs m₀ m visiting stack) {name : String} (hnew : NotLoaded m name)
    (hname : name ∈ m₀.manifestIndex.map PluginManifest.name) :
    Midway libs m₀ m (name :: visiting) (name :: stack) where
  index_eq := h.index_eq
  known_eq := h.known_eq
  grows := h.grows
  progress s hs := by
    rcases List.mem_cons.mp hs with rfl | hs
    · exact ⟨hnew, List.mem_cons_self, hname⟩
    · obtain ⟨hnot, hvisiting, hindex⟩ := h.progress s hs
      exact ⟨hnot, List.mem_cons_of_mem _ hvisiting, hindex⟩
  marked s hs := by
    rcases List.mem_cons.mp hs with rfl | hs
    · exact .inl List.mem_cons_self
    · exact (h.marked s hs).imp_left (List.mem_cons_of_mem _)
  loaded := h.loaded
  instances := h.instances

/-- A plugin whose dependencies are loaded and that leads to no cycle is loaded itself. -/
theorem Midway.pop {name : String} (h : Midway libs m₀ m visiting (name :: stack))
    (hall : AllSucceed libs m₀)
    (hindex : NoCollisions m₀.manifestIndex) {manifest : PluginManifest}
    (hmem : manifest ∈ m₀.manifestIndex) (hname : manifest.name = name)
    (hacyclic : ¬LeadsToCycle m₀ name) (hnot : name ∉ stack) :
    (loadSingle libs manifest m).1 = .ok () ∧
      Midway libs m₀ (loadSingle libs manifest m).2 visiting stack ∧
        (loadSingle libs manifest m).2.registered = m.registered ++ [fnv1aHash name] := by
  subst hname
  have hnew : NotLoaded m manifest.name := (h.progress _ List.mem_cons_self).1
  obtain ⟨inst, hcreate, hok, hregistry, hindex', hknown⟩ :=
    loadSingle_of_allSucceed hall h.known_eq hmem hnew
  generalize hm' : (loadSingle libs manifest m).2 = m' at hregistry hindex' hknown ⊢
  have hregistered : m'.registered = m.registered ++ [fnv1aHash manifest.name] := by
    simp [registered, hregistry]
  have hhash : ∀ x ∈ m₀.manifestIndex.map PluginManifest.name,
      fnv1aHash x = fnv1aHash manifest.name → x = manifest.name := by
    intro x hx heq
    obtain ⟨other, hother, rfl⟩ := List.mem_map.mp hx
    exact hindex other hother manifest hmem heq
  refine ⟨hok, ?_, hregistered⟩
  refine ⟨hindex'.trans h.index_eq, hknown.trans h.known_eq, ?_, ?_, ?_, ?_, ?_⟩
  · intro id hid
    rw [hregistered]
    exact List.mem_append_left _ (h.grows id hid)
  · intro s hs
    obtain ⟨hnotLoaded, hvisiting, hs'⟩ := h.progress s (List.mem_cons_of_mem _ hs)
    refine ⟨?_, hvisiting, hs'⟩
    rw [NotLoaded, hregistered, List.mem_append, List.mem_singleton]
    rintro (hid | hid)
    · exact hnotLoaded hid
    · exact hnot (hhash s hs' hid ▸ hs)
  · intro s hs
    rw [hregistered, List.mem_append, List.mem_singleton]
    rcases h.marked s hs with hs | hs
    · rcases List.mem_cons.mp hs with rfl | hs
      · exact .inr (.inr rfl)
      · exact .inl hs
    · exact .inr (.inl hs)
  · intro x hx
    rw [hregistered, List.mem_append, List.mem_singleton] at hx
    rcases hx with hx | hx
    · exact h.loaded x hx
    · by_cases hin : x ∈ m₀.manifestIndex.map PluginManifest.name
      · exact .inr (hhash x hin hx ▸ hacyclic)
      · -- a name without a manifest depends on nothing
        refine .inr fun hcycle => hin ?_
        obtain ⟨_, ⟨-, -, found, hfound, -⟩, -⟩ := hcycle.dependency
        obtain ⟨hmem', hname'⟩ := findManifest_eq_ok hfound
        exact List.mem_map.mpr ⟨found, hmem', hname'⟩
  · intro id inst' hinst
    have hlookup := resolve_eq_ok.mp hinst
    rw [hregistry, List.lookup_append] at hlookup
    cases hold : m.registry.lookup id with
    | some old =>
      rw [hold] at hlookup
      obtain rfl : old = inst' := by simpa using hlookup
      exact h.instances id old (resolve_eq_ok.mpr hold)
    | none =>
      rw [hold, Option.none_or, List.lookup_cons] at hlookup
      by_cases hid : id = fnv1aHash manifest.name
      · subst hid
        obtain rfl : inst = inst' := by simpa using hlookup
        exact .inr ⟨h.notLoaded hnew, manifest, hmem, rfl, hcreate⟩
      · simp [beq_false_of_ne hid] at hlookup

/-- A version check of a dependency that is loaded succeeds. -/
theorem Midway.resolve_and_check (h : Midway libs m₀ m visiting stack) (hall : AllSucceed libs m₀)
    (hindex : NoCollisions m₀.manifestIndex) {manifest : PluginManifest}
    (hmem : manifest ∈ m₀.manifestIndex) {d : PluginDependency} (hd : d ∈ manifest.dependencies)
    (hloaded : fnv1aHash d.pluginName ∈ m.registered) :
    (m.resolve (fnv1aHash d.pluginName) >>= fun inst =>
      checkVersion d.requiredVersion inst.version) = .ok () := by
  obtain ⟨inst, hinst⟩ := hasValue_iff.mp ((hasValue_resolve m _).mpr hloaded)
  refine bind_eq_ok.mpr ⟨inst, hinst, hall.versions manifest hmem d hd inst ?_⟩
  rcases h.instances _ inst hinst with hold | ⟨hnew, other, hother, hhash, hcreate⟩
  · exact .inl hold
  · obtain ⟨found, hfound⟩ := hasValue_iff.mp (hall.found manifest hmem d hd)
    obtain ⟨hfound, hname⟩ := findManifest_eq_ok hfound
    have heq : other.name = d.pluginName := by
      rw [← hname]
      exact hindex other hother found hfound (by rw [hname, hhash])
    exact .inr ⟨hnew, heq ▸ hcreate⟩

/-- Loading the dependencies of a plugin, given how loading one of them ends. -/
theorem resolveEach_resolved {ensure : String → PluginManager → List String → Option Walk}
    (hall : AllSucceed libs m₀) (hindex : NoCollisions m₀.manifestIndex)
    {manifest : PluginManifest} (hmem : manifest ∈ m₀.manifestIndex)
    (hensure : ∀ name m visiting w, Midway libs m₀ m visiting stack →
      (∃ d ∈ manifest.dependencies, d.pluginName = name) → ensure name m visiting = some w →
        Resolved libs m₀ m stack [name] w)
    {deps : List PluginDependency} (hdeps : deps ⊆ manifest.dependencies)
    (h : Midway libs m₀ m visiting stack) {w : Walk}
    (hw : resolveEach ensure deps m visiting = some w) :
    Resolved libs m₀ m stack (deps.map PluginDependency.pluginName) w := by
  induction deps generalizing m visiting with
  | nil =>
    obtain rfl := Option.some.inj hw
    exact .loaded h (List.Subset.refl _) (by simp)
  | cons head rest ih =>
    have hhead : head ∈ manifest.dependencies := hdeps List.mem_cons_self
    unfold resolveEach at hw
    split at hw
    · cases hw
    next w' hw' =>
      cases hensure _ _ _ _ h ⟨head, hhead, rfl⟩ hw' with
      | @cyclic _ _ _ hcode hcycle =>
        obtain rfl := Option.some.inj hw
        obtain ⟨g, hg, hcycle⟩ := hcycle
        exact .cyclic hcode ⟨g, by simp [List.mem_singleton.mp hg], hcycle⟩
      | @loaded m' visiting' h' hgrows hloaded =>
        have hloaded' := hloaded _ (List.mem_singleton.mpr rfl)
        rw [h'.resolve_and_check hall hindex hmem hhead hloaded'] at hw
        cases ih (fun d hd => hdeps (List.mem_cons_of_mem _ hd)) h' hw with
        | cyclic hcode hcycle =>
          obtain ⟨g, hg, hcycle⟩ := hcycle
          exact .cyclic hcode ⟨g, List.mem_cons_of_mem _ hg, hcycle⟩
        | @loaded m'' visiting'' h'' hgrows' hrest =>
          refine .loaded h'' (fun id hid => hgrows' (hgrows hid)) fun g hg => ?_
          rcases List.mem_cons.mp hg with rfl | hg
          · exact hgrows' hloaded'
          · exact hrest g hg

/-- Loading a plugin with everything it depends on: the walk meets a plugin that is in progress
only if that plugin leads to itself. -/
theorem ensureLoaded_resolved (hall : AllSucceed libs m₀) (hindex : NoCollisions m₀.manifestIndex)
    (depth : ℕ) (name : String) (m : PluginManager) (visiting stack : List String) (w : Walk)
    (h : Midway libs m₀ m visiting stack) (hfound : hasValue (m₀.findManifest name) = true)
    (hstack : NotLoaded m₀ name → ∀ s ∈ stack, TransGen (Pending m₀) s name)
    (hw : ensureLoaded libs depth name m visiting = some w) :
    Resolved libs m₀ m stack [name] w := by
  induction depth generalizing name m visiting stack w with
  | zero => cases hw
  | succ depth ih =>
    unfold ensureLoaded at hw
    split_ifs at hw with hresolves hvisiting
    · obtain rfl := Option.some.inj hw
      refine .loaded h (List.Subset.refl _) fun g hg => ?_
      rw [List.mem_singleton.mp hg]
      exact (hasValue_resolve m _).mp hresolves
    · obtain rfl := Option.some.inj hw
      have hnew : NotLoaded m name := fun hid => hresolves ((hasValue_resolve m _).mpr hid)
      have hprogress : name ∈ stack := (h.marked name hvisiting).resolve_right hnew
      have hself := hstack (h.notLoaded hnew) name hprogress
      exact .cyclic rfl ⟨name, List.mem_singleton_self name, leadsToCycle_of_self hself⟩
    · have hnew : NotLoaded m name := fun hid => hresolves ((hasValue_resolve m _).mpr hid)
      have hnew₀ := h.notLoaded hnew
      obtain ⟨manifest, hmanifest⟩ := hasValue_iff.mp hfound
      obtain ⟨hmem, hname⟩ := findManifest_eq_ok hmanifest
      rw [h.findManifest, hmanifest] at hw
      dsimp only at hw
      have hpush := h.push hnew (List.mem_map.mpr ⟨manifest, hmem, hname⟩)
      have hpending : ∀ d ∈ manifest.dependencies, NotLoaded m₀ d.pluginName →
          Pending m₀ name d.pluginName :=
        fun d hd hd₀ => ⟨hnew₀, hd₀, manifest, hmanifest, d, hd, rfl⟩
      have hensure : ∀ name' m' visiting' w', Midway libs m₀ m' visiting' (name :: stack) →
          (∃ d ∈ manifest.dependencies, d.pluginName = name') →
          ensureLoaded libs depth name' m' visiting' = some w' →
            Resolved libs m₀ m' (name :: stack) [name'] w' := by
        rintro _ m' visiting' w' h' ⟨d, hd, rfl⟩ hw'
        refine ih _ m' visiting' (name :: stack) w' h' (hall.found manifest hmem d hd) ?_ hw'
        intro hd₀ s hs
        rcases List.mem_cons.mp hs with rfl | hs
        · exact .single (hpending d hd hd₀)
        · exact (hstack hnew₀ s hs).tail (hpending d hd hd₀)
      split at hw
      · cases hw
      next w' hw' =>
        have hresolved := resolveEach_resolved hall hindex hmem hensure (List.Subset.refl _) hpush hw'
        cases hresolved with
        | @cyclic _ _ _ hcode hcycle =>
          obtain rfl := Option.some.inj hw
          obtain ⟨g, hg, hcycle⟩ := hcycle
          obtain ⟨d, hd, rfl⟩ := List.mem_map.mp hg
          exact .cyclic hcode ⟨name, List.mem_singleton_self name,
            hcycle.head (hpending d hd hcycle.notLoaded)⟩
        | @loaded m' visiting' h' hgrows hdeps =>
          obtain rfl := Option.some.inj hw
          have hacyclic : ¬LeadsToCycle m₀ name := by
            intro hcycle
            obtain ⟨b, ⟨-, hb₀, found, hfound', d, hd, rfl⟩, hcycle'⟩ := hcycle.dependency
            obtain rfl : manifest = found := Except.ok.inj (hmanifest.symm.trans hfound')
            have hloaded := hdeps d.pluginName (List.mem_map.mpr ⟨d, hd, rfl⟩)
            exact (h'.loaded _ hloaded).elim hb₀ (fun hnot => hnot hcycle')
          have hnot : name ∉ stack := fun hs => hvisiting (h.progress name hs).2.1
          obtain ⟨hok, hpop, hregistered⟩ := h'.pop hall hindex hmem hname hacyclic hnot
          dsimp only
          rw [hok]
          refine .loaded hpop ?_ fun g hg => ?_
          · rw [hregistered]
            exact fun id hid => List.mem_append_left _ (hgrows hid)
          · rw [hregistered, List.mem_singleton.mp hg]
            exact List.mem_append_right _ (List.mem_singleton_self _)

end Managers

/-! ### Loads -/

def isCircular (r : Result Unit) : Bool :=
  match r with
  | .ok () => false
  | .error e => e.code = .pluginCircularDependency

/-- A load ends, whatever is in the index and in the registry. If nothing else fails and no two
plugins share a type id, it reports a cycle exactly if the plugin leads to one, and succeeds
otherwise. -/
theorem load_reports_cycles_exactly (libs : String → Library) (name : String) (m : PluginManager) :
    (ensureLoaded libs (m.manifestIndex.length + 1) name m []).isSome = true ∧
      (NoCollisions m.manifestIndex → AllSucceed libs m →
        (isCircular (load libs name m).1 = true ↔ LeadsToCycle m name) ∧
          (hasValue (m.findManifest name) = true → ¬LeadsToCycle m name →
            (load libs name m).1 = .ok ())) := by
  have hsome := ensureLoaded_isSome libs name m
  refine ⟨hsome, fun hindex hall => ?_⟩
  obtain ⟨w, hw⟩ := Option.isSome_iff_exists.mp hsome
  have hload : (load libs name m).1 = w.result := by simp [load, hw]
  rw [hload]
  by_cases hfound : hasValue (m.findManifest name) = true
  · have hresolved := ensureLoaded_resolved hall hindex _ name m [] [] w (.start libs m) hfound
      (by simp) hw
    cases hresolved with
    | @loaded m' visiting' h' _ hloaded =>
      have hacyclic : ¬LeadsToCycle m name := fun hcycle =>
        (h'.loaded name (hloaded name (List.mem_singleton_self name))).elim hcycle.notLoaded
          (fun hnot => hnot hcycle)
      exact ⟨iff_of_false Bool.false_ne_true hacyclic, fun _ _ => rfl⟩
    | @cyclic _ _ _ hcode hcycle =>
      obtain ⟨g, hg, hcycle⟩ := hcycle
      obtain rfl := List.mem_singleton.mp hg
      exact ⟨iff_of_true (by simp [isCircular, hcode]) hcycle, fun _ hnot => absurd hcycle hnot⟩
  · refine ⟨iff_of_false ?_ ?_, fun h => absurd h hfound⟩
    · unfold ensureLoaded at hw
      split_ifs at hw with hresolves hvisiting
      · obtain rfl := Option.some.inj hw
        exact Bool.false_ne_true
      · cases hvisiting
      · unfold PluginManager.findManifest at hw hfound
        split at hfound
        · exact absurd rfl hfound
        next hnone =>
          rw [hnone] at hw
          obtain rfl := Option.some.inj hw
          exact Bool.false_ne_true
    · intro hcycle
      obtain ⟨_, ⟨-, -, found, hfound', -⟩, -⟩ := hcycle.dependency
      rw [hfound'] at hfound
      exact hfound rfl

/-- Any version below `9.0.0`. -/
def anyVersion : VersionRange := ⟨⟨0, 0, 0⟩, ⟨9, 0, 0⟩⟩

/-- A plugin that depends on the plugins of these names. -/
def dependentOn (name : String) (names : List String) : PluginManifest :=
  ⟨name, name ++ ".so", ⟨1, 0, 0⟩, [], names.map fun n => ⟨n, anyVersion⟩, "token"⟩

/-- Libraries with which nothing fails. -/
def wellBehaved (_ : String) : Library :=
  ⟨none, true, true, some ⟨⟨1, 0, 0⟩⟩, .ok (), .ok ()⟩

/-- A manager whose index holds only plugins that depend on the plugins of given names. -/
theorem allSucceed_wellBehaved {m : PluginManager}
    (hindex : ∀ manifest ∈ m.manifestIndex, manifest.capabilities = [] ∧
      manifest.licenseToken = "token" ∧ ∀ d ∈ manifest.dependencies,
        hasValue (m.findManifest d.pluginName) = true ∧ d.requiredVersion = anyVersion)
    (hregistry : ∀ entry ∈ m.registry, entry.2 = ⟨⟨1, 0, 0⟩⟩) :
    AllSucceed wellBehaved m where
  capabilities manifest hmem := by
    rw [(hindex manifest hmem).1]
    rfl
  license manifest hmem := by
    rw [(hindex manifest hmem).2.1]
    rfl
  opens _ _ := rfl
  creates _ _ := rfl
  hooks _ _ := ⟨rfl, rfl⟩
  found manifest hmem d hd := ((hindex manifest hmem).2.2 d hd).1
  versions manifest hmem d hd inst hinst := by
    rw [((hindex manifest hmem).2.2 d hd).2]
    rcases hinst with hold | ⟨-, hcreate⟩
    · obtain rfl : inst = _ := hregistry _ (mem_registry_of_resolve hold)
      rfl
    · obtain rfl := Option.some.inj hcreate
      rfl

/-- Two plugins that depend on the same third one, and one on both. -/
def diamond : PluginManager :=
  discovered [] [dependentOn "top" ["left", "right"], dependentOn "left" ["base"],
    dependentOn "right" ["base"], dependentOn "base" []]

theorem load_diamond :
    (isCircular (load wellBehaved "top" diamond).1 = true ↔ LeadsToCycle diamond "top") ∧
      (hasValue (diamond.findManifest "top") = true → ¬LeadsToCycle diamond "top" →
        (load wellBehaved "top" diamond).1 = .ok ()) :=
  (load_reports_cycles_exactly wellBehaved "top" diamond).2
    (by unfold NoCollisions; decide +kernel)
    (allSucceed_wellBehaved (by decide +kernel) (by decide))

/-- Two plugins of one type id; the second depends on itself. -/
def sharedId : PluginManager :=
  discovered [] [dependentOn "top" ["8yn0iYCKYHlIj4-BwPqk", "GReLUrM4wMqfg9yzV3KQ"],
    dependentOn "8yn0iYCKYHlIj4-BwPqk" [],
    dependentOn "GReLUrM4wMqfg9yzV3KQ" ["GReLUrM4wMqfg9yzV3KQ"]]

/-- A loaded plugin, before one that depends on itself. -/
def loadedBefore : PluginManager :=
  { discovered [] [dependentOn "loaded" ["loop"], dependentOn "loop" ["loop"]] with
    registry := [(fnv1aHash "loaded", ⟨⟨1, 0, 0⟩⟩)] }

/-- A plugin that depends on itself and is not loaded can be reached, and the load succeeds:
because its type id is taken, or because a loaded plugin stands before it. -/
theorem load_passes_cycles :
    (¬∀ libs name m, m.registry = [] → AllSucceed libs m →
      (isCircular (load libs name m).1 = true ↔
        ∃ c, ReflTransGen (DependsOn m) name c ∧ TransGen (Pending m) c c)) ∧
    ¬∀ libs name m, NoCollisions m.manifestIndex → AllSucceed libs m →
      (isCircular (load libs name m).1 = true ↔
        ∃ c, ReflTransGen (DependsOn m) name c ∧ TransGen (Pending m) c c) := by
  constructor
  · intro h
    have hall : AllSucceed wellBehaved sharedId :=
      allSucceed_wellBehaved (by decide +kernel) (by decide)
    have htop : DependsOn sharedId "top" "GReLUrM4wMqfg9yzV3KQ" :=
      ⟨_, rfl, ⟨"GReLUrM4wMqfg9yzV3KQ", anyVersion⟩, by decide, rfl⟩
    have hself : Pending sharedId "GReLUrM4wMqfg9yzV3KQ" "GReLUrM4wMqfg9yzV3KQ" :=
      ⟨nofun, nofun, _, rfl, ⟨"GReLUrM4wMqfg9yzV3KQ", anyVersion⟩, by decide, rfl⟩
    have hreported := (h wellBehaved "top" sharedId rfl hall).mpr
      ⟨_, .single htop, .single hself⟩
    exact absurd hreported (by decide +kernel)
  · intro h
    have hall : AllSucceed wellBehaved loadedBefore :=
      allSucceed_wellBehaved (by decide +kernel) (by decide)
    have hloaded : DependsOn loadedBefore "loaded" "loop" :=
      ⟨_, rfl, ⟨"loop", anyVersion⟩, by decide, rfl⟩
    have hnew : NotLoaded loadedBefore "loop" := by decide +kernel
    have hself : Pending loadedBefore "loop" "loop" :=
      ⟨hnew, hnew, _, rfl, ⟨"loop", anyVersion⟩, by decide, rfl⟩
    have hreported := (h wellBehaved "loaded" loadedBefore
      (by unfold NoCollisions; decide +kernel) hall).mpr ⟨_, .single hloaded, .single hself⟩
    exact absurd hreported (by decide +kernel)

end SurfaceAi.Plugin
