import SurfaceAi.Core.Error
import SurfaceAi.Core.TypeId
import Mathlib.Data.List.Nodup
import Mathlib.Data.Prod.Lex

/-! The plugin manager: loading a plugin loads what it depends on first, depth first, then
checks its manifest, opens its library, creates and registers the instance, and only then
initializes and starts it. What a plugin's library does when it is loaded is a parameter
of each call. -/

namespace SurfaceAi.Plugin

structure SemVer where
  major : ℕ
  minor : ℕ
  patch : ℕ
  deriving DecidableEq, Repr

structure VersionRange where
  minInclusive : SemVer
  maxExclusive : SemVer
  deriving DecidableEq, Repr

structure PluginDependency where
  pluginName : String
  requiredVersion : VersionRange
  deriving DecidableEq, Repr

structure PluginManifest where
  name : String
  libraryPath : String
  version : SemVer
  capabilities : List String
  dependencies : List PluginDependency
  licenseToken : String
  deriving DecidableEq, Repr

/-- An instance, as far as the manager looks at it: the version its manifest gives. -/
structure Instance where
  version : SemVer
  deriving DecidableEq, Repr

/-- What a plugin's library does in one call of `Load`: whether it opens, which symbols it
has, what `CreatePlugin` returns, and how the two hooks end. -/
structure Library where
  dlopenError : Option String
  hasCreate : Bool
  hasDestroy : Bool
  create : Option Instance
  onInitialize : Result Unit
  onStart : Result Unit

inductive Hook where
  | onInitialize
  | onStart
  deriving DecidableEq, Repr

/-- A call of a plugin's hook, and whether it succeeded. -/
structure HookCall where
  name : String
  hook : Hook
  ok : Bool
  deriving DecidableEq, Repr

/-- The manager, with the hooks it has called so far. -/
structure PluginManager where
  knownCapabilities : List String
  manifestIndex : List PluginManifest
  registry : List (TypeId × Instance)
  libraryHandles : List String
  loadOrder : List TypeId
  hooks : List HookCall

def checkVersion (required : VersionRange) (actual : SemVer) : Result Unit :=
  failIf (actual.major < required.minInclusive.major ||
      (actual.major = required.minInclusive.major &&
        actual.minor < required.minInclusive.minor) ||
      actual.major > required.maxExclusive.major ||
      (actual.major = required.maxExclusive.major &&
        actual.minor ≥ required.maxExclusive.minor))
    .pluginVersionIncompatible "plugin version incompatible with required range"

def validateLicense (token : String) : Result Unit :=
  failIf token.isEmpty .pluginLicenseInvalid "plugin license token is empty"

namespace PluginManager

variable (m : PluginManager)

def validateCapabilities (declared : List String) : Result Unit :=
  checkAll (fun cap => failIf (cap ∉ m.knownCapabilities) .pluginCapabilityUnsupported
    ("declared capability '" ++ cap ++ "' is not registered as known")) declared

def findManifest (pluginName : String) : Result PluginManifest :=
  match m.manifestIndex.find? fun manifest => manifest.name = pluginName with
  | some manifest => .ok manifest
  | none =>
    fail .coreTypeNotFound ("no manifest discovered for plugin '" ++ pluginName ++ "'")

/-- `Registry::Resolve`. -/
def resolve (id : TypeId) : Result Instance :=
  match m.registry.lookup id with
  | some inst => .ok inst
  | none => fail .coreTypeNotFound "type not found"

def registered : List TypeId := m.registry.map Prod.fst

end PluginManager

def dlOpen (lib : Library) (libraryPath : String) : Result Unit :=
  match lib.dlopenError with
  | some msg =>
    fail .coreConstructionFailed ("dlopen failed for '" ++ libraryPath ++ "': " ++ msg)
  | none => .ok ()

def createInstance (lib : Library) (manifest : PluginManifest) : Result Instance := do
  failIf (!lib.hasCreate) .coreConstructionFailed
    ("dlsym(\"CreatePlugin\") failed for plugin '" ++ manifest.name ++ "'")
  failIf (!lib.hasDestroy) .coreConstructionFailed
    ("dlsym(\"DestroyPlugin\") failed for plugin '" ++ manifest.name ++ "'")
  match lib.create with
  | some inst => .ok inst
  | none =>
    fail .coreConstructionFailed
      ("CreatePlugin() returned nullptr for plugin '" ++ manifest.name ++ "'")

/-- The result of a load step with the manager it leaves behind. -/
abbrev Step := Result Unit × PluginManager

/-- Go on if the step succeeded. -/
def Step.andThen (r : Step) (next : PluginManager → Step) : Step :=
  match r.1 with
  | .ok () => next r.2
  | .error e => (.error e, r.2)

/-- Call a hook. -/
def callHook (name : String) (hook : Hook) (answer : Result Unit) (m : PluginManager) : Step :=
  (answer, { m with hooks := m.hooks ++ [⟨name, hook, hasValue answer⟩] })

/-- `Registry::Register`. -/
def register (id : TypeId) (inst : Instance) (m : PluginManager) : Step :=
  if id ∈ m.registered then
    (fail .coreTypeAlreadyRegistered "type already registered", m)
  else (.ok (), { m with registry := m.registry ++ [(id, inst)] })

/-- The instance is in the registry before its hooks are called. -/
def startInstance (lib : Library) (name : String) (inst : Instance) (m : PluginManager) : Step :=
  (register (fnv1aHash name) inst m).andThen fun m =>
    (callHook name .onInitialize lib.onInitialize m).andThen fun m =>
      (callHook name .onStart lib.onStart m).andThen fun m =>
        (.ok (), { m with loadOrder := m.loadOrder ++ [fnv1aHash name] })

def loadSingle (libs : String → Library) (manifest : PluginManifest) (m : PluginManager) : Step :=
  let lib := libs manifest.name
  match m.validateCapabilities manifest.capabilities with
  | .error e => (.error e, m)
  | .ok () =>
    match validateLicense manifest.licenseToken with
    | .error e => (.error e, m)
    | .ok () =>
      match dlOpen lib manifest.libraryPath with
      | .error e => (.error e, m)
      | .ok () =>
        let m := { m with libraryHandles := m.libraryHandles.insert manifest.name }
        match createInstance lib manifest with
        | .error e => (.error e, m)
        | .ok inst => startInstance lib manifest.name inst m

/-- The set of names being resolved is shared by the whole walk. -/
structure Walk where
  result : Result Unit
  manager : PluginManager
  visiting : List String

/-- `ResolveEach`, given how to load one dependency. -/
def resolveEach (ensureLoaded : String → PluginManager → List String → Option Walk) :
    List PluginDependency → PluginManager → List String → Option Walk
  | [], m, visiting => some ⟨.ok (), m, visiting⟩
  | head :: rest, m, visiting =>
    match ensureLoaded head.pluginName m visiting with
    | none => none
    | some w =>
      match w.result with
      | .error e => some ⟨.error e, w.manager, w.visiting⟩
      | .ok () =>
        match w.manager.resolve (fnv1aHash head.pluginName) >>= fun inst =>
            checkVersion head.requiredVersion inst.version with
        | .error e => some ⟨.error e, w.manager, w.visiting⟩
        | .ok () => resolveEach ensureLoaded rest w.manager w.visiting

/-- `EnsureLoaded`, with a bound on how deep the walk goes. -/
def ensureLoaded (libs : String → Library) :
    ℕ → String → PluginManager → List String → Option Walk
  | 0, _, _, _ => none
  | depth + 1, pluginName, m, visiting =>
    if hasValue (m.resolve (fnv1aHash pluginName)) then some ⟨.ok (), m, visiting⟩
    else if pluginName ∈ visiting then
      some ⟨fail .pluginCircularDependency
        ("circular dependency detected while resolving '" ++ pluginName ++ "'"), m, visiting⟩
    else
      match m.findManifest pluginName with
      | .error e => some ⟨.error e, m, pluginName :: visiting⟩
      | .ok manifest =>
        match resolveEach (ensureLoaded libs depth) manifest.dependencies m
            (pluginName :: visiting) with
        | none => none
        | some w =>
          match w.result with
          | .error e => some ⟨.error e, w.manager, w.visiting⟩
          | .ok () =>
            let r := loadSingle libs manifest w.manager
            some ⟨r.1, r.2, w.visiting⟩

/-! Version ranges as half-open intervals of versions. The check compares the major and the
minor number with each bound and never looks at the patch number: it takes the range between
the bounds with their patch numbers left out. -/

namespace SemVer

/-- A version as a point of the order by major, then minor, then patch number. -/
def key (v : SemVer) : ℕ ×ₗ ℕ ×ₗ ℕ := toLex (v.major, toLex (v.minor, v.patch))

/-- The version with its patch number left out. -/
def release (v : SemVer) : ℕ ×ₗ ℕ := toLex (v.major, v.minor)

theorem key_lt_iff (v w : SemVer) :
    v.key < w.key ↔ v.release < w.release ∨ v.release = w.release ∧ v.patch < w.patch := by
  simp only [key, release, Prod.Lex.toLex_lt_toLex, EmbeddingLike.apply_eq_iff_eq, Prod.mk.injEq]
  omega

end SemVer

namespace VersionRange

/-- `[min_inclusive, max_exclusive)`. -/
def Contains (r : VersionRange) (v : SemVer) : Prop :=
  r.minInclusive.key ≤ v.key ∧ v.key < r.maxExclusive.key

instance (r : VersionRange) (v : SemVer) : Decidable (r.Contains v) :=
  inferInstanceAs (Decidable (_ ∧ _))

/-- The version is below the lower bound by its patch number only. -/
def BelowByPatch (r : VersionRange) (v : SemVer) : Prop :=
  v.release = r.minInclusive.release ∧ v.patch < r.minInclusive.patch ∧
    v.release < r.maxExclusive.release

/-- The version is below the upper bound by its patch number only. -/
def WithinByPatch (r : VersionRange) (v : SemVer) : Prop :=
  r.minInclusive.key ≤ v.key ∧ v.release = r.maxExclusive.release ∧
    v.patch < r.maxExclusive.patch

end VersionRange

open VersionRange

theorem hasValue_checkVersion (required : VersionRange) (actual : SemVer) :
    hasValue (checkVersion required actual) = true ↔
      required.minInclusive.release ≤ actual.release ∧
        actual.release < required.maxExclusive.release := by
  have hlower : required.minInclusive.release ≤ actual.release ↔
      ¬actual.release < required.minInclusive.release := not_lt.symm
  rw [hlower]
  rw [checkVersion, hasValue_failIf]
  simp only [SemVer.release, Prod.Lex.toLex_lt_toLex, Bool.or_eq_false_iff,
    Bool.and_eq_false_iff, decide_eq_false_iff_not]
  omega

/-- The check is the half-open interval exactly for versions that no bound's patch number
decides. -/
theorem hasValue_checkVersion_iff_contains (required : VersionRange) (actual : SemVer) :
    (hasValue (checkVersion required actual) = true ↔ required.Contains actual) ↔
      ¬required.BelowByPatch actual ∧ ¬required.WithinByPatch actual := by
  rw [hasValue_checkVersion]
  have hmin := SemVer.key_lt_iff actual required.minInclusive
  have hmax := SemVer.key_lt_iff actual required.maxExclusive
  unfold Contains BelowByPatch WithinByPatch
  rw [← not_lt, ← not_lt, hmin, hmax]
  by_cases hlow : actual.release < required.minInclusive.release
  · have hne : actual.release ≠ required.minInclusive.release := hlow.ne
    simp [hlow, hne]
  · by_cases hhigh : actual.release < required.maxExclusive.release
    · have hne : actual.release ≠ required.maxExclusive.release := hhigh.ne
      simp [hlow, hhigh, hne]
    · simp [hlow, hhigh]

/-- What `ResolveEach` does with a dependency once it is loaded. -/
theorem resolveEach_of_loaded {ensure : String → PluginManager → List String → Option Walk}
    {head : PluginDependency} {m : PluginManager} {visiting : List String} {w : Walk}
    {inst : Instance} (hw : ensure head.pluginName m visiting = some w) (hok : w.result = .ok ())
    (hinst : w.manager.resolve (fnv1aHash head.pluginName) = .ok inst)
    (rest : List PluginDependency) :
    resolveEach ensure (head :: rest) m visiting =
      match checkVersion head.requiredVersion inst.version with
      | .error e => some ⟨.error e, w.manager, w.visiting⟩
      | .ok () => resolveEach ensure rest w.manager w.visiting := by
  rw [resolveEach, hw]
  simp only [hok, hinst]
  rfl

/-- The walk loads the dependency and goes on past it. -/
def Accepts (libs : String → Library) (depth : ℕ) (dependency : PluginDependency)
    (m : PluginManager) (visiting : List String) : Prop :=
  ∃ w, resolveEach (ensureLoaded libs depth) [dependency] m visiting = some w ∧
    w.result = .ok ()

/-- The plugin depended on is loaded, with an instance of version `actual`. -/
def LoadedWith (libs : String → Library) (depth : ℕ) (dependency : PluginDependency)
    (m : PluginManager) (visiting : List String) (actual : SemVer) : Prop :=
  ∃ w inst, ensureLoaded libs depth dependency.pluginName m visiting = some w ∧
    w.result = .ok () ∧ w.manager.resolve (fnv1aHash dependency.pluginName) = .ok inst ∧
      inst.version = actual

theorem LoadedWith.accepts_iff {libs : String → Library} {depth : ℕ}
    {dependency : PluginDependency} {m : PluginManager} {visiting : List String} {actual : SemVer}
    (h : LoadedWith libs depth dependency m visiting actual) :
    Accepts libs depth dependency m visiting ↔
      hasValue (checkVersion dependency.requiredVersion actual) = true := by
  obtain ⟨w, inst, hw, hok, hinst, rfl⟩ := h
  unfold Accepts
  rw [resolveEach_of_loaded hw hok hinst]
  cases checkVersion dependency.requiredVersion inst.version with
  | error e => simp [hasValue]
  | ok u => simp [hasValue, resolveEach]

/-- A version is taken exactly if it lies in the declared interval, by the check and by the
walk over the dependencies, exactly if no bound's patch number decides. -/
theorem accepts_iff_contains (required : VersionRange) (actual : SemVer) :
    ((hasValue (checkVersion required actual) = true ↔ required.Contains actual) ∧
      ∀ libs depth dependency m visiting, dependency.requiredVersion = required →
        LoadedWith libs depth dependency m visiting actual →
          (Accepts libs depth dependency m visiting ↔ required.Contains actual)) ↔
      ¬required.BelowByPatch actual ∧ ¬required.WithinByPatch actual := by
  rw [← hasValue_checkVersion_iff_contains]
  refine ⟨And.left, fun h => ⟨h, ?_⟩⟩
  rintro libs depth dependency m visiting rfl hloaded
  rw [hloaded.accepts_iff, h]

/-- `1.2.0` is taken for a range that begins at `1.2.3`. -/
theorem checkVersion_takes_older_patch :
    ¬(hasValue (checkVersion ⟨⟨1, 2, 3⟩, ⟨2, 0, 0⟩⟩ ⟨1, 2, 0⟩) = true ↔
      Contains ⟨⟨1, 2, 3⟩, ⟨2, 0, 0⟩⟩ ⟨1, 2, 0⟩) := by
  decide

end SurfaceAi.Plugin
