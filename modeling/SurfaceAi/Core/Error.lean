import Mathlib.Data.List.Basic

/-! The error channel shared by every subsystem: an error code with a message,
and `Result`, the source's `tl::expected`. Only the codes that a modelled
function returns are listed; the source location an error also carries is not. -/

namespace SurfaceAi

inductive ErrorCode where
  | coreUnknown
  | coreConstructionFailed
  | coreTypeAlreadyRegistered
  | coreTypeNotFound
  | lifecycleRegisterAfterAssembly
  | pluginVersionIncompatible
  | pluginCapabilityUnsupported
  | pluginLicenseInvalid
  | pluginCircularDependency
  | runtimeQueueFull
  | runtimeCancelled
  | runtimeNodeNotFound
  | infraConfigFileNotFound
  | infraConfigParseError
  | infraConfigValidationFailed
  | infraConfigKeyNotFound
  | infraConfigKeyTypeMismatch
  | imageUnsupportedPixelFormat
  | imageDimensionMismatch
  | imagePreprocessFailed
  | ioImportFileNotFound
  | ioImportParseFailed
  | ioExportPathCreateFailed
  | ioSerializationFailed
  | embeddingNotGpuImage
  | embeddingDimensionMismatch
  | embeddingInvalidPatchParameters
  | detectionFeatureBankLoadFailed
  | detectionInvalidPatchGrid
  | detectionCoresetEvolutionProfileLoadFailed
  | knowledgeDbOpenFailed
  | knowledgeNodeNotFound
  | knowledgeInvalidRelationship
  | knowledgeSnapshotNotFound
  | knowledgeSnapshotRestoreFailed
  | memoryRequestExceedsSlabSize
  | memoryPoolExhausted
  | memoryArenaExhausted
  | inferenceEngineExecutionFailed
  | ruleParseError
  | ruleInvalidPath
  | ruleTypeMismatch
  | ruleCyclicOverride
  | reasonerTreeLoadFailed
  | reasonerInvalidTree
  | retrievalDimensionMismatch
  | retrievalEmptyIndex
  | retrievalFusionConfigInvalid
  | pipelineInvalidConfig
  | pipelineInvalidState
  | pipelineStageTypeMismatch
  | schedulerPoolNotFound
  | schedulerQueueCreateFailed
  | tuningSpaceEmpty
  | tuningObjectiveEvalFailed
  deriving DecidableEq, Repr

structure ErrorInfo where
  code : ErrorCode
  message : String
  deriving DecidableEq, Repr

abbrev Result (α : Type*) := Except ErrorInfo α

/-- What a step returns that may also be undefined: a value, an error, or nothing. -/
abbrev Outcome (α : Type) := Option (Result α)

/-- What follows a step, if the step returns a value. -/
def Outcome.andThen {α β : Type} (x : Outcome α) (f : α → Outcome β) : Outcome β :=
  match x with
  | none => none
  | some (.error e) => some (.error e)
  | some (.ok a) => f a

@[simp] theorem Outcome.andThen_ok {α β : Type} (a : α) (f : α → Outcome β) :
    Outcome.andThen (some (.ok a)) f = f a := rfl

@[simp] theorem Outcome.andThen_error {α β : Type} (e : ErrorInfo) (f : α → Outcome β) :
    Outcome.andThen (some (.error e)) f = some (.error e) := rfl

/-- `tl::make_unexpected(ErrorInfo{code, message})`. -/
def fail {α : Type*} (code : ErrorCode) (message : String) : Result α := .error ⟨code, message⟩

/-- `has_value()`. -/
def hasValue {α : Type*} : Result α → Bool
  | .ok _ => true
  | .error _ => false

@[simp] theorem hasValue_ok {α : Type*} (a : α) : hasValue (.ok a : Result α) = true := rfl

@[simp] theorem hasValue_error {α : Type*} (e : ErrorInfo) :
    hasValue (.error e : Result α) = false := rfl

@[simp] theorem hasValue_fail {α : Type*} (c : ErrorCode) (m : String) :
    hasValue (fail c m : Result α) = false := rfl

/-- An early return with an error. -/
def failIf (bad : Bool) (code : ErrorCode) (message : String) : Result Unit :=
  if bad then fail code message else .ok ()

@[simp] theorem failIf_eq_ok {bad : Bool} {code : ErrorCode} {message : String} :
    failIf bad code message = .ok () ↔ bad = false := by
  cases bad <;> simp [failIf, fail]

theorem hasValue_failIf (bad : Bool) (code : ErrorCode) (message : String) :
    hasValue (failIf bad code message) = true ↔ bad = false := by
  cases bad <;> simp [failIf]

/-- A loop that returns the first error of its body. -/
def checkAll {α : Type*} (body : α → Result Unit) : List α → Result Unit
  | [] => .ok ()
  | x :: xs => do
    body x
    checkAll body xs

theorem bind_eq_ok {α β : Type} {x : Result α} {f : α → Result β} {b : β} :
    (x >>= f) = .ok b ↔ ∃ a, x = .ok a ∧ f a = .ok b := by
  cases x with
  | ok a => simp [bind, Except.bind]
  | error e => simp [bind, Except.bind]

@[simp] theorem seq_eq_ok {β : Type} {x : Result Unit} {y : Result β} {b : β} :
    (x >>= fun _ => y) = .ok b ↔ x = .ok () ∧ y = .ok b := by
  rw [bind_eq_ok]
  exact ⟨fun ⟨_, hx, hy⟩ => ⟨hx, hy⟩, fun ⟨hx, hy⟩ => ⟨_, hx, hy⟩⟩

theorem checkAll_eq_ok {α : Type*} {body : α → Result Unit} {xs : List α} :
    checkAll body xs = .ok () ↔ ∀ x ∈ xs, body x = .ok () := by
  induction xs with
  | nil => simp [checkAll]
  | cons x xs ih => simp [checkAll, ih]

theorem hasValue_iff {α : Type*} {r : Result α} : hasValue r = true ↔ ∃ a, r = .ok a := by
  cases r with
  | ok a => simp
  | error e => simp

end SurfaceAi
