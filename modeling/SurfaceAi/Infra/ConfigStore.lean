import SurfaceAi.Library.Transition
import SurfaceAi.Rule.ConditionBuilder
import SurfaceAi.Core.Error
import Mathlib.Logic.Function.Basic

/-! The schema of a configuration: a list of fields that have to be there, each with the closure
that checks it. Fields are found by dotted paths. -/

namespace SurfaceAi.Infra

open Rules (Yaml)

/-- `Descend`, the path cut at its dots. -/
def descend : List String → Yaml → Yaml
  | [], node => node
  | head :: remaining, .map entries =>
    let child := Yaml.entry entries head
    if child.isDefined then descend remaining child else .missing
  | _ :: _, _ => .missing

def fieldKeys (fieldPath : String) : List String :=
  (fieldPath.toList.splitOn '.').map String.ofList

def resolveFieldPath (root : Yaml) (fieldPath : String) : Yaml :=
  if fieldPath.isEmpty then .missing else descend (fieldKeys fieldPath) root

abbrev FieldValidator := Yaml → Result Unit

structure ConfigSchema where
  rules : List (String × FieldValidator)

namespace ConfigSchema

variable (schema : ConfigSchema)

def requireField (fieldPath : String) (validator : FieldValidator) : ConfigSchema :=
  ⟨schema.rules ++ [(fieldPath, validator)]⟩

/-- The body of the loop of `Validate`. -/
def checkRule (root : Yaml) (rule : String × FieldValidator) : Result Unit :=
  let node := resolveFieldPath root rule.1
  if node.isDefined then
    match rule.2 node with
    | .ok () => .ok ()
    | .error e =>
      fail .infraConfigValidationFailed
        ("config field '" ++ rule.1 ++ "' failed validation: " ++ e.message)
  else fail .infraConfigValidationFailed ("required config field missing: " ++ rule.1)

def validate (root : Yaml) : Result Unit := checkAll (checkRule root) schema.rules

/-- Every field is there, and its check accepts it. -/
def Conforms (root : Yaml) : Prop :=
  ∀ rule ∈ schema.rules, (resolveFieldPath root rule.1).isDefined = true ∧
    rule.2 (resolveFieldPath root rule.1) = .ok ()

theorem checkRule_eq_ok {root : Yaml} {rule : String × FieldValidator} :
    checkRule root rule = .ok () ↔ (resolveFieldPath root rule.1).isDefined = true ∧
      rule.2 (resolveFieldPath root rule.1) = .ok () := by
  simp only [checkRule]
  by_cases hdefined : (resolveFieldPath root rule.1).isDefined = true
  · cases h : rule.2 (resolveFieldPath root rule.1) <;> simp [hdefined, fail]
  · simp [hdefined, fail]

theorem validate_eq_ok {root : Yaml} : schema.validate root = .ok () ↔ schema.Conforms root :=
  checkAll_eq_ok.trans (by simp only [checkRule_eq_ok, Conforms])

end ConfigSchema

/-! The configuration store beside the thread that reloads its file. The thread waits for events
of the directory, reads some of them, and reads the file when one of them names it. Other programs
write files in between, and `Load` may be called again. -/

/-- What `YAML::LoadFile` makes of a file: a tree, or one of the exceptions it throws. -/
inductive FileContent where
  | unreadable (what : String)
  | malformed (what : String)
  | rejected (what : String)
  | document (root : Yaml)

structure ConfigPath where
  directory : String
  filename : String
  deriving DecidableEq, Repr

def ConfigPath.text (path : ConfigPath) : String := path.directory ++ "/" ++ path.filename

/-- The body of `Load` up to the lock. An exception it does not catch is `none`. -/
def loadFile (schema : ConfigSchema) (path : ConfigPath) : FileContent → Outcome Yaml
  | .unreadable _ => some (fail .infraConfigFileNotFound ("config file not found: " ++ path.text))
  | .malformed what =>
    some (fail .infraConfigParseError ("config parse error in " ++ path.text ++ ": " ++ what))
  | .rejected _ => none
  | .document root => some (schema.validate root >>= fun _ => .ok root)

/-- The body of `reload` up to the lock: the file, unless it is logged and left alone. -/
def reloadFile (schema : ConfigSchema) : FileContent → Option Yaml
  | .document root =>
    match schema.validate root with
    | .ok () => some root
    | .error _ => none
  | _ => none

/-- Where the thread that calls `Load` is. -/
inductive LoadPhase where
  | idle
  | locking (path : ConfigPath) (parsed : Yaml)

/-- Where the watching thread is: before `poll`, before it reads the file, before the lock. -/
inductive WatchPhase where
  | polling
  | reloading
  | locking (parsed : Yaml)

/-- How many steps the thread is from the next `poll`. -/
def WatchPhase.distance : WatchPhase → ℕ
  | .polling => 0
  | .reloading => 2
  | .locking _ => 1

/-- The watch of a directory with the events not read yet, and the name they are compared with. -/
structure Watch where
  directory : String
  filename : String
  events : List String
  phase : WatchPhase

structure ConfigStore where
  root : Yaml
  path : ConfigPath
  disk : ConfigPath → FileContent
  load : LoadPhase
  watch : Option Watch

/-- The watch gets an event for a file that is closed behind a write, or moved to its place. -/
def Watch.notify (watch : Watch) (path : ConfigPath) : Watch :=
  if path.directory = watch.directory then { watch with events := watch.events ++ [path.filename] }
  else watch

/-- `names_target`, for the first `count` events. -/
def Watch.take (watch : Watch) (count : ℕ) : Watch :=
  { watch with
    events := watch.events.drop count
    phase := if watch.filename ∈ watch.events.take count then .reloading else .polling }

/-- A write that is still going on, a write that ends, the two parts of `Load`, `EnableHotReload`,
and the watching thread: some events, the file, the lock, its end. -/
inductive ConfigAction where
  | write (path : ConfigPath) (content : FileContent)
  | save (path : ConfigPath) (content : FileContent)
  | load (path : ConfigPath)
  | lock
  | enableHotReload
  | read (count : ℕ)
  | reload
  | swap
  | stop

namespace ConfigStore

variable (schema : ConfigSchema)

def create (disk : ConfigPath → FileContent) : ConfigStore :=
  ⟨.null, ⟨"", ""⟩, disk, .idle, none⟩

/-- `Get`, given how a node is converted. -/
def get {α : Type} (convert : Yaml → Except String α) (key : String) (s : ConfigStore) : Result α :=
  let node := resolveFieldPath s.root key
  if node.isDefined then
    match convert node with
    | .ok value => .ok value
    | .error what =>
      fail .infraConfigKeyTypeMismatch ("config key type mismatch at '" ++ key ++ "': " ++ what)
  else fail .infraConfigKeyNotFound ("config key not found: " ++ key)

def step (s : ConfigStore) : ConfigAction → Option ConfigStore
  | .write path content => some { s with disk := Function.update s.disk path content }
  | .save path content =>
    some { s with
      disk := Function.update s.disk path content
      watch := s.watch.map (·.notify path) }
  | .load path =>
    match s.load with
    | .idle =>
      match loadFile schema path (s.disk path) with
      | some (.ok parsed) => some { s with load := .locking path parsed }
      | _ => some s
    | .locking .. => none
  | .lock =>
    match s.load with
    | .locking path parsed => some { s with root := parsed, path := path, load := .idle }
    | .idle => none
  | .enableHotReload =>
    match s.load, s.watch with
    | .idle, none => some { s with watch := some ⟨s.path.directory, s.path.filename, [], .polling⟩ }
    | _, _ => none
  | .read count =>
    match s.watch with
    | some ⟨directory, filename, events, .polling⟩ =>
      if 0 < count ∧ count ≤ events.length then
        some { s with watch := some (Watch.take ⟨directory, filename, events, .polling⟩ count) }
      else none
    | _ => none
  | .reload =>
    match s.watch with
    | some ⟨directory, filename, events, .reloading⟩ =>
      match reloadFile schema (s.disk s.path) with
      | some parsed => some { s with watch := some ⟨directory, filename, events, .locking parsed⟩ }
      | none => some { s with watch := some ⟨directory, filename, events, .polling⟩ }
    | _ => none
  | .swap =>
    match s.watch with
    | some ⟨directory, filename, events, .locking parsed⟩ =>
      some { s with root := parsed, watch := some ⟨directory, filename, events, .polling⟩ }
    | _ => none
  | .stop =>
    match s.watch with
    | some ⟨_, _, _, .polling⟩ => some { s with watch := none }
    | _ => none

/-! ### What is served -/

section Served

variable {schema} {disk : ConfigPath → FileContent} {actions : List ConfigAction}
  {s s' : ConfigStore} {a : ConfigAction} {root : Yaml}

theorem loadFile_eq_ok {path : ConfigPath} {content : FileContent} :
    loadFile schema path content = some (.ok root) ↔
      content = .document root ∧ schema.Conforms root := by
  rw [← schema.validate_eq_ok]
  cases content with
  | document parsed =>
    simp only [loadFile, Option.some.injEq, seq_eq_ok, Except.ok.injEq, FileContent.document.injEq]
    constructor
    · rintro ⟨hok, rfl⟩
      exact ⟨rfl, hok⟩
    · rintro ⟨rfl, hok⟩
      exact ⟨hok, rfl⟩
  | _ => simp [loadFile, fail]

theorem reloadFile_eq_some {content : FileContent} :
    reloadFile schema content = some root ↔ content = .document root ∧ schema.Conforms root := by
  rw [← schema.validate_eq_ok]
  cases content with
  | document parsed =>
    cases hok : schema.validate parsed with
    | ok =>
      simp only [reloadFile, hok, Option.some.injEq, FileContent.document.injEq]
      constructor
      · rintro rfl
        exact ⟨rfl, hok⟩
      · exact fun h => h.1
    | error e =>
      simp only [reloadFile, hok, FileContent.document.injEq]
      constructor
      · intro h
        cases h
      · rintro ⟨rfl, h⟩
        rw [hok] at h
        cases h
  | _ => simp [reloadFile]

variable (schema disk actions root)

/-- The tree conforms, and was a file's content on the way. -/
structure Seen : Prop where
  conforms : schema.Conforms root
  onDisk : ∃ front back t path, actions = front ++ back ∧
    Transition.run (step schema) (create disk) front = some t ∧ t.disk path = .document root

variable {schema disk actions root}

theorem Seen.append (h : Seen schema disk actions root) (a : ConfigAction) :
    Seen schema disk (actions ++ [a]) root := by
  obtain ⟨hconforms, front, back, t, path, rfl, ht⟩ := h
  exact ⟨hconforms, front, back ++ [a], t, path, List.append_assoc .., ht⟩

variable (schema disk actions s)

/-- What is served and what is about to be served has been seen, once anything was loaded. -/
structure Honest : Prop where
  run : Transition.run (step schema) (create disk) actions = some s
  root : .lock ∈ actions ∨ .swap ∈ actions → Seen schema disk actions s.root
  loading : ∀ path parsed, s.load = .locking path parsed → Seen schema disk actions parsed
  reloading : ∀ watch parsed, s.watch = some watch → watch.phase = .locking parsed →
    Seen schema disk actions parsed

variable {schema disk actions s}

theorem Honest.run_append (h : Honest schema disk actions s) (hstep : step schema s a = some s') :
    Transition.run (step schema) (create disk) (actions ++ [a]) = some s' := by
  rw [Transition.run_append, h.run, Option.bind_some, Transition.run_cons, hstep]
  rfl

/-- A file that the step reads is one that was on disk before it. -/
theorem Honest.seen (h : Honest schema disk actions s) {path : ConfigPath}
    (hdisk : s.disk path = .document root) (hconforms : schema.Conforms root) :
    Seen schema disk (actions ++ [a]) root :=
  ⟨hconforms, actions, [a], s, path, rfl, h.run, hdisk⟩

/-- A step that serves what it served before. -/
theorem Honest.keep (h : Honest schema disk actions s) (hstep : step schema s a = some s')
    (ha : a ≠ .lock ∧ a ≠ .swap) (hroot : s'.root = s.root)
    (hloading : ∀ path parsed, s'.load = .locking path parsed →
      Seen schema disk (actions ++ [a]) parsed)
    (hreloading : ∀ watch parsed, s'.watch = some watch → watch.phase = .locking parsed →
      Seen schema disk (actions ++ [a]) parsed) : Honest schema disk (actions ++ [a]) s' where
  run := h.run_append hstep
  root hloaded := by
    rw [hroot]
    refine (h.root ?_).append a
    simpa [ha.1.symm, ha.2.symm] using hloaded
  loading := hloading
  reloading := hreloading

theorem Honest.step (h : Honest schema disk actions s) (hstep : step schema s a = some s') :
    Honest schema disk (actions ++ [a]) s' := by
  have hloading := fun path parsed heq => (h.loading path parsed heq).append a
  have hreloading := fun watch parsed hwatch heq => (h.reloading watch parsed hwatch heq).append a
  cases a with
  | write path content =>
    cases hstep
    exact h.keep rfl (by simp) rfl hloading hreloading
  | save path content =>
    cases hstep
    refine h.keep rfl (by simp) rfl hloading ?_
    intro watch parsed hwatch hphase
    obtain ⟨before, hbefore, rfl⟩ := Option.map_eq_some_iff.mp hwatch
    refine hreloading before parsed hbefore ?_
    rw [← hphase, Watch.notify]
    split <;> rfl
  | load path =>
    have hkeep := hstep
    simp only [ConfigStore.step] at hstep
    split at hstep
    · split at hstep
      · rename_i parsed hload
        cases hstep
        refine h.keep hkeep (by simp) rfl ?_ hreloading
        rintro _ _ ⟨rfl, rfl⟩
        obtain ⟨hdisk, hconforms⟩ := loadFile_eq_ok.mp hload
        exact h.seen hdisk hconforms
      · cases hstep
        exact h.keep hkeep (by simp) rfl hloading hreloading
    · cases hstep
  | lock =>
    have hkeep := hstep
    simp only [ConfigStore.step] at hstep
    split at hstep
    · rename_i path parsed hphase
      cases hstep
      refine ⟨h.run_append hkeep, fun _ => hloading path parsed hphase, ?_, hreloading⟩
      intro _ _ heq
      cases heq
    · cases hstep
  | enableHotReload =>
    have hkeep := hstep
    simp only [ConfigStore.step] at hstep
    split at hstep
    · cases hstep
      refine h.keep hkeep (by simp) rfl hloading ?_
      intro watch parsed hwatch hphase
      cases hwatch
      cases hphase
    · cases hstep
  | read count =>
    have hkeep := hstep
    simp only [ConfigStore.step] at hstep
    split at hstep
    · obtain ⟨-, hstep⟩ := Option.ite_none_right_eq_some.mp hstep
      cases hstep
      refine h.keep hkeep (by simp) rfl hloading ?_
      intro watch parsed hwatch hphase
      cases hwatch
      simp only [Watch.take] at hphase
      split at hphase <;> cases hphase
    · cases hstep
  | reload =>
    have hkeep := hstep
    simp only [ConfigStore.step] at hstep
    split at hstep
    · split at hstep
      · rename_i parsed hreload
        cases hstep
        refine h.keep hkeep (by simp) rfl hloading ?_
        intro watch parsed hwatch hphase
        cases hwatch
        cases hphase
        obtain ⟨hdisk, hconforms⟩ := reloadFile_eq_some.mp hreload
        exact h.seen hdisk hconforms
      · cases hstep
        refine h.keep hkeep (by simp) rfl hloading ?_
        intro watch parsed hwatch hphase
        cases hwatch
        cases hphase
    · cases hstep
  | swap =>
    have hkeep := hstep
    simp only [ConfigStore.step] at hstep
    split at hstep
    · rename_i hwatch
      cases hstep
      refine ⟨h.run_append hkeep, fun _ => hreloading _ _ hwatch rfl, hloading, ?_⟩
      intro watch parsed heq hphase
      cases heq
      cases hphase
    · cases hstep
  | stop =>
    have hkeep := hstep
    simp only [ConfigStore.step] at hstep
    split at hstep
    · cases hstep
      refine h.keep hkeep (by simp) rfl hloading ?_
      intro watch parsed hwatch
      cases hwatch
    · cases hstep

theorem honest_create : Honest schema disk [] (create disk) where
  run := rfl
  root := by simp
  loading _ _ h := by cases h
  reloading _ _ h := by cases h

end Served

/-! ### What becomes of a save -/

section Saves

variable {schema} {path : ConfigPath} {root : Yaml} {s s' : ConfigStore} {a : ConfigAction}
  {actions : List ConfigAction} {events : List String} {phase : WatchPhase}

variable (path s)

/-- The file is loaded and watched, and no `Load` is going on. -/
structure Watches (events : List String) (phase : WatchPhase) : Prop where
  path_eq : s.path = path
  idle : s.load = .idle
  watch : s.watch = some ⟨path.directory, path.filename, events, phase⟩

/-- The watching thread waits, and no event it has not read names the file. -/
def Settled : Prop := ∃ events, s.Watches path events .polling ∧ path.filename ∉ events

/-- The action is no part of `Load`, and does not end the watch. -/
def Keeps : ConfigAction → Prop
  | .load _ | .lock | .stop => False
  | _ => True

/-- Nor does it write the file. -/
def Leaves : ConfigAction → Prop
  | .write other _ | .save other _ => other ≠ path
  | .load _ | .lock | .stop => False
  | _ => True

/-- An action of the watching thread. -/
def Watching : ConfigAction → Prop
  | .read _ | .reload | .swap => True
  | _ => False

/-- The tree is on disk, and the watching thread has served it or is on the way to it. -/
structure Due (root : Yaml) (events : List String) (phase : WatchPhase) : Prop
    extends s.Watches path events phase where
  onDisk : s.disk path = .document root
  due : path.filename ∈ events ∨ phase = .reloading ∨ phase = .locking root ∨
    phase = .polling ∧ s.root = root

variable {path s}

theorem watches_enableHotReload (hpath : s.path = path)
    (hstep : step schema s .enableHotReload = some s') : s'.Watches path [] .polling := by
  simp only [ConfigStore.step] at hstep
  split at hstep
  · rename_i hidle hwatch
    cases hstep
    exact ⟨hpath, hidle, by rw [hpath]⟩
  · cases hstep

theorem Watches.step (h : s.Watches path events phase) (ha : Keeps a)
    (hstep : step schema s a = some s') : ∃ events' phase', s'.Watches path events' phase' := by
  obtain ⟨hpath, hidle, hwatch⟩ := h
  cases a with
  | write other content =>
    cases hstep
    exact ⟨events, phase, hpath, hidle, hwatch⟩
  | save other content =>
    cases hstep
    by_cases hdir : other.directory = path.directory
    · exact ⟨events ++ [other.filename], phase, hpath, hidle, by simp [hwatch, Watch.notify, hdir]⟩
    · exact ⟨events, phase, hpath, hidle, by simp [hwatch, Watch.notify, hdir]⟩
  | load _ => exact ha.elim
  | lock => exact ha.elim
  | enableHotReload => simp [ConfigStore.step, hidle, hwatch] at hstep
  | read count =>
    cases phase with
    | polling =>
      simp only [ConfigStore.step, hwatch] at hstep
      obtain ⟨-, hstep⟩ := Option.ite_none_right_eq_some.mp hstep
      cases hstep
      exact ⟨_, _, hpath, hidle, rfl⟩
    | _ => simp [ConfigStore.step, hwatch] at hstep
  | reload =>
    cases phase with
    | reloading =>
      simp only [ConfigStore.step, hwatch] at hstep
      split at hstep <;> cases hstep <;> exact ⟨_, _, hpath, hidle, rfl⟩
    | _ => simp [ConfigStore.step, hwatch] at hstep
  | swap =>
    cases phase with
    | locking parsed =>
      simp only [ConfigStore.step, hwatch] at hstep
      cases hstep
      exact ⟨_, _, hpath, hidle, rfl⟩
    | _ => simp [ConfigStore.step, hwatch] at hstep
  | stop => exact ha.elim

theorem Watching.leaves (h : Watching a) : Leaves path a := by
  cases a <;> simp_all [Watching, Leaves]

theorem Due.update (h : s.Due path root events phase) {other : ConfigPath}
    (hne : other ≠ path) (content : FileContent) :
    Function.update s.disk other content path = .document root := by
  rw [Function.update_of_ne hne.symm]
  exact h.onDisk

theorem Due.step (hconforms : schema.Conforms root) (h : s.Due path root events phase)
    (ha : Leaves path a) (hstep : step schema s a = some s') :
    ∃ events' phase', s'.Due path root events' phase' := by
  obtain ⟨⟨hpath, hidle, hwatch⟩, hdisk, hdue⟩ := h
  cases a with
  | write other content =>
    cases hstep
    exact ⟨events, phase, ⟨hpath, hidle, hwatch⟩, by simp [Function.update_of_ne ha.symm, hdisk], hdue⟩
  | save other content =>
    cases hstep
    have hdisk' : Function.update s.disk other content path = .document root := by
      simp [Function.update_of_ne ha.symm, hdisk]
    by_cases hdir : other.directory = path.directory
    · refine ⟨events ++ [other.filename], phase, ⟨hpath, hidle, ?_⟩, hdisk', ?_⟩
      · simp [hwatch, Watch.notify, hdir]
      · exact hdue.imp (List.mem_append_left _) id
    · refine ⟨events, phase, ⟨hpath, hidle, ?_⟩, hdisk', hdue⟩
      simp [hwatch, Watch.notify, hdir]
  | load _ => exact ha.elim
  | lock => exact ha.elim
  | enableHotReload => simp [ConfigStore.step, hidle, hwatch] at hstep
  | read count =>
    cases phase with
    | polling =>
      simp only [ConfigStore.step, hwatch] at hstep
      obtain ⟨-, hstep⟩ := Option.ite_none_right_eq_some.mp hstep
      cases hstep
      by_cases hmem : path.filename ∈ events.take count
      · exact ⟨events.drop count, .reloading, ⟨hpath, hidle, by simp [Watch.take, hmem]⟩, hdisk,
          .inr (.inl rfl)⟩
      · refine ⟨events.drop count, .polling, ⟨hpath, hidle, by simp [Watch.take, hmem]⟩, hdisk, ?_⟩
        rcases hdue with hevents | h | h | h
        · rw [← List.take_append_drop count events, List.mem_append] at hevents
          exact .inl (hevents.resolve_left hmem)
        · cases h
        · cases h
        · exact .inr (.inr (.inr h))
    | _ => simp [ConfigStore.step, hwatch] at hstep
  | reload =>
    cases phase with
    | reloading =>
      have hreload : reloadFile schema (s.disk s.path) = some root := by
        rw [hpath, hdisk]
        exact reloadFile_eq_some.mpr ⟨rfl, hconforms⟩
      simp only [ConfigStore.step, hwatch, hreload] at hstep
      cases hstep
      exact ⟨events, .locking root, ⟨hpath, hidle, rfl⟩, hdisk, .inr (.inr (.inl rfl))⟩
    | _ => simp [ConfigStore.step, hwatch] at hstep
  | swap =>
    cases phase with
    | locking parsed =>
      simp only [ConfigStore.step, hwatch] at hstep
      cases hstep
      refine ⟨events, .polling, ⟨hpath, hidle, rfl⟩, hdisk, ?_⟩
      rcases hdue with hevents | h | h | h
      · exact .inl hevents
      · cases h
      · cases h
        exact .inr (.inr (.inr ⟨rfl, rfl⟩))
      · cases h.1
    | _ => simp [ConfigStore.step, hwatch] at hstep
  | stop => exact ha.elim

theorem Due.run (hconforms : schema.Conforms root) (h : s.Due path root events phase)
    (hactions : ∀ a ∈ actions, Leaves path a)
    (hrun : Transition.run (ConfigStore.step schema) s actions = some s') :
    ∃ events' phase', s'.Due path root events' phase' := by
  induction actions generalizing s events phase with
  | nil =>
    cases hrun
    exact ⟨events, phase, h⟩
  | cons a actions ih =>
    rw [Transition.run_cons, Option.bind_eq_some_iff] at hrun
    obtain ⟨t, ht, hrun⟩ := hrun
    obtain ⟨events', phase', hdue⟩ := h.step hconforms (hactions a List.mem_cons_self) ht
    exact ih hdue (fun b hb => hactions b (List.mem_cons_of_mem a hb)) hrun

/-- Left alone, the watching thread settles. -/
theorem Watches.settles (schema : ConfigSchema) {n : ℕ}
    (hn : 3 * events.length + phase.distance ≤ n) (h : s.Watches path events phase) :
    ∃ steps : List ConfigAction, steps.length ≤ n ∧ (∀ a ∈ steps, Watching a) ∧
      ∃ s', Transition.run (ConfigStore.step schema) s steps = some s' ∧ s'.Settled path := by
  induction n generalizing s events phase with
  | zero =>
    have hnil : events = [] := List.length_eq_zero_iff.mp (by omega)
    cases phase with
    | polling => exact ⟨[], by simp, by simp, s, rfl, events, h, by simp [hnil]⟩
    | _ => simp [WatchPhase.distance] at hn
  | succ n ih =>
    have hmore : ∀ a t events' phase', Watching a → ConfigStore.step schema s a = some t →
        t.Watches path events' phase' → 3 * events'.length + phase'.distance ≤ n →
        ∃ steps : List ConfigAction, steps.length ≤ n + 1 ∧ (∀ a ∈ steps, Watching a) ∧
          ∃ s', Transition.run (ConfigStore.step schema) s steps = some s' ∧ s'.Settled path := by
      intro a t events' phase' ha hstep ht hle
      obtain ⟨steps, hlength, hsteps, s', hrun, hsettled⟩ := ih hle ht
      refine ⟨a :: steps, by simp [hlength], by simpa [ha] using hsteps, s', ?_, hsettled⟩
      rw [Transition.run_cons, hstep, Option.bind_some, hrun]
    obtain ⟨hpath, hidle, hwatch⟩ := h
    have hwatches : ∀ events' phase', Watches path
        { s with watch := some ⟨path.directory, path.filename, events', phase'⟩ } events' phase' :=
      fun _ _ => ⟨hpath, hidle, rfl⟩
    cases phase with
    | polling =>
      cases events with
      | nil => exact ⟨[], by simp, by simp, s, rfl, [], ⟨hpath, hidle, hwatch⟩, by simp⟩
      | cons event events =>
        simp only [List.length_cons, WatchPhase.distance] at hn
        by_cases hname : path.filename = event
        · apply hmore (.read 1) _ events .reloading trivial _ (hwatches events .reloading)
          · simp only [WatchPhase.distance]
            omega
          · simp [ConfigStore.step, hwatch, Watch.take, hname]
        · apply hmore (.read 1) _ events .polling trivial _ (hwatches events .polling)
          · simp only [WatchPhase.distance]
            omega
          · simp [ConfigStore.step, hwatch, Watch.take, hname]
    | reloading =>
      simp only [WatchPhase.distance] at hn
      cases hreload : reloadFile schema (s.disk s.path) with
      | none =>
        apply hmore .reload _ events .polling trivial _ (hwatches events .polling)
        · simp only [WatchPhase.distance]
          omega
        · simp [ConfigStore.step, hwatch, hreload]
      | some parsed =>
        apply hmore .reload _ events (.locking parsed) trivial _ (hwatches events (.locking parsed))
        · simp only [WatchPhase.distance]
          omega
        · simp [ConfigStore.step, hwatch, hreload]
    | locking parsed =>
      simp only [WatchPhase.distance] at hn
      apply hmore .swap { s with
        root := parsed
        watch := some ⟨path.directory, path.filename, events, .polling⟩ } events .polling trivial
      · simp [ConfigStore.step, hwatch]
      · exact ⟨hpath, hidle, rfl⟩
      · simp only [WatchPhase.distance]
        omega

theorem Due.served (h : s.Due path root events phase) (hsettled : s.Settled path) :
    s.root = root := by
  obtain ⟨events', ⟨-, -, hwatch⟩, hmem⟩ := hsettled
  rw [h.watch] at hwatch
  cases hwatch
  rcases h.due with hevents | hphase | hphase | hphase
  · exact absurd hevents hmem
  · cases hphase
  · cases hphase
  · exact hphase.2

/-- A tree that conforms is saved while the file is watched. -/
theorem Watches.save (hconforms : schema.Conforms root) (h : s.Watches path events phase)
    (hactions : ∀ a ∈ actions, Leaves path a)
    (hrun : Transition.run (ConfigStore.step schema) s (.save path (.document root) :: actions) =
      some s') : ∃ events' phase', s'.Due path root events' phase' := by
  obtain ⟨hpath, hidle, hwatch⟩ := h
  refine Due.run hconforms (?_ : Due path _ root (events ++ [path.filename]) phase) hactions hrun
  refine ⟨⟨hpath, hidle, ?_⟩, Function.update_self .., .inl (by simp)⟩
  simp [hwatch, Watch.notify]

theorem Watches.run (h : s.Watches path events phase) (hactions : ∀ a ∈ actions, Keeps a)
    (hrun : Transition.run (ConfigStore.step schema) s actions = some s') :
    ∃ events' phase', s'.Watches path events' phase' := by
  induction actions generalizing s events phase with
  | nil =>
    cases hrun
    exact ⟨events, phase, h⟩
  | cons a actions ih =>
    rw [Transition.run_cons, Option.bind_eq_some_iff] at hrun
    obtain ⟨t, ht, hrun⟩ := hrun
    obtain ⟨events', phase', h'⟩ := h.step (hactions a List.mem_cons_self) ht
    exact ih h' (fun b hb => hactions b (List.mem_cons_of_mem a hb)) hrun

end Saves

/-- The number of cameras has to be there. -/
def cameraSchema : ConfigSchema :=
  ⟨[("cameras", fun node =>
    failIf node.isScalar.isNone .infraConfigValidationFailed "not a number")]⟩

def cameraFile : ConfigPath := ⟨"etc", "line.yaml"⟩

def cameras (count : String) : Yaml := .map [("cameras", .scalar count)]

theorem conforms_cameras (count : String) : cameraSchema.Conforms (cameras count) := by
  intro rule hrule
  obtain rfl := List.mem_singleton.mp hrule
  exact ⟨rfl, rfl⟩

/-- A store that has loaded its file. -/
def oneCamera : ConfigStore :=
  ⟨cameras "1", cameraFile, fun _ => .document (cameras "1"), .idle, none⟩

end ConfigStore

end SurfaceAi.Infra
