import Mathlib.Data.List.Forall2
import SurfaceAi.Io.BasicImporter
import SurfaceAi.Library.Paths
import SurfaceAi.Reasoner.DecisionTree

/-! The manifest of the coreset banks: loading it resolves the paths of the banks against its own
directory, saving it writes their last names. The YAML library is a parameter. -/

namespace SurfaceAi.Io

open Rules Reasoning Paths

/-- A path in its native format. -/
abbrev FilePath := List Char

structure CoresetBankEntry where
  positionId : UInt16
  path : FilePath

structure CoresetManifest where
  surfaceId : String
  banks : List CoresetBankEntry

/-- `YAML::LoadFile` and its message where it throws, the emitter, and the conversions, which give
nothing where they throw. -/
structure ManifestYaml where
  parse : String → Except String Yaml
  emit : Yaml → String
  asString : Yaml → Option String
  stringError : Yaml → String
  asUint16 : Yaml → Option UInt16
  uint16Error : Yaml → String

/-- The contents of the files that there are. -/
abbrev Files := FilePath → Option String

inductive WriteOutcome where
  | cannotOpen
  | failed
  | written

variable (yaml : ManifestYaml)

/-! ### Loading -/

/-- An element of the banks; nothing when a lookup throws outside of a `try`. -/
def readBank (baseDir : FilePath) (bankNode : Yaml) : Outcome CoresetBankEntry :=
  (member bankNode "position").bind fun position =>
    if ¬ position.isDefined then
      parseFailed "Each bank entry must have 'position' and 'path' fields"
    else (member bankNode "path").bind fun path =>
      if ¬ path.isDefined then
        parseFailed "Each bank entry must have 'position' and 'path' fields"
      else
        match yaml.asUint16 position with
        | none => parseFailed ("Failed to parse bank 'position' as uint16: " ++
            yaml.uint16Error position)
        | some positionId =>
          match yaml.asString path with
          | none => parseFailed ("Failed to parse bank 'path' as string: " ++ yaml.stringError path)
          | some text => some (.ok ⟨positionId, join '/' baseDir text.toList⟩)

def readBanks (baseDir : FilePath) : List Yaml → Outcome (List CoresetBankEntry)
  | [] => some (.ok [])
  | node :: nodes =>
    (readBank yaml baseDir node).andThen fun bank =>
      (readBanks baseDir nodes).andThen fun banks => some (.ok (bank :: banks))

/-- What the loader makes of a document. -/
def readManifest (baseDir : FilePath) (root : Yaml) : Outcome CoresetManifest :=
  (member root "surface").bind fun surface =>
    (if surface.isDefined then member root "banks" else some .missing).bind fun banksNode =>
      if ¬ surface.isDefined ∨ ¬ banksNode.isDefined then
        parseFailed "Coreset manifest must contain 'surface' and 'banks' keys"
      else
        match yaml.asString surface with
        | none => parseFailed ("Failed to parse 'surface' as string: " ++ yaml.stringError surface)
        | some surfaceId =>
          match banksNode with
          | .sequence nodes =>
            (readBanks yaml baseDir nodes).andThen fun banks => some (.ok ⟨surfaceId, banks⟩)
          | _ => parseFailed "'banks' must be a sequence"

def loadCoresetManifest (files : Files) (yamlPath : FilePath) : Outcome CoresetManifest :=
  match files yamlPath with
  | none => some (fail .ioImportFileNotFound
      ("Coreset manifest not found: " ++ String.ofList yamlPath))
  | some text =>
    match yaml.parse text with
    | .error what => parseFailed ("Failed to parse coreset manifest YAML: " ++ what)
    | .ok root => readManifest yaml (parentPath '/' yamlPath) root

/-! ### Saving -/

/-- The document that is emitted. -/
def document (manifest : CoresetManifest) : Yaml :=
  .map [("surface", .scalar manifest.surfaceId),
    ("banks", .sequence (manifest.banks.map fun bank =>
      .map [("position", .scalar (toString bank.positionId.toNat)),
        ("path", .scalar (String.ofList (filename '/' bank.path)))]))]

def saveCoresetManifest (yamlPath : FilePath) (manifest : CoresetManifest) (outcome : WriteOutcome)
    (files : Files) : Result Files :=
  match outcome with
  | .cannotOpen => fail .ioExportPathCreateFailed
      ("Cannot open coreset manifest for writing: " ++ String.ofList yamlPath)
  | .failed => fail .ioSerializationFailed
      ("Failed to write coreset manifest: " ++ String.ofList yamlPath)
  | .written => .ok (Function.update files yamlPath (some (yaml.emit (document manifest))))

/-! ### What is asked -/

/-- The emitted document is read back, and its strings and integers with it. -/
structure RoundTrips (manifest : CoresetManifest) : Prop where
  parse_emit : yaml.parse (yaml.emit (document manifest)) = .ok (document manifest)
  asString_scalar : ∀ text, yaml.asString (.scalar text) = some text
  asUint16_scalar : ∀ bank ∈ manifest.banks,
    yaml.asUint16 (.scalar (toString bank.positionId.toNat)) = some bank.positionId

/-- Every bank points at its own file after the manifest was saved and loaded again. -/
def Survives (files : Files) (yamlPath : FilePath) (manifest : CoresetManifest) : Prop :=
  ∃ files' manifest', saveCoresetManifest yaml yamlPath manifest .written files = .ok files' ∧
    loadCoresetManifest yaml files' yamlPath = some (.ok manifest') ∧
    manifest'.surfaceId = manifest.surfaceId ∧
    List.Forall₂ (fun bank' bank => bank'.positionId = bank.positionId ∧
      Same '/' bank'.path bank.path) manifest'.banks manifest.banks

/-- The path of a bank as its node has it. -/
def bankPath (bankNode : Yaml) : Option FilePath :=
  ((member bankNode "path").bind yaml.asString).map String.toList

/-- The paths of the banks as a document has them. -/
def bankPaths (root : Yaml) : List FilePath :=
  ((member root "banks").elim [] Yaml.items).filterMap (bankPath yaml)

/-- The path is a file's name, or one of a file in this directory. -/
def Beside (baseDir path : FilePath) : Prop :=
  '/' ∉ path ∨ IsAbsolute '/' path ∧ Same '/' (parentPath '/' path) baseDir

instance : DecidableRel Beside := fun _ _ => inferInstanceAs (Decidable (_ ∨ _))

/-! ### What was loaded -/

section Load

variable {yaml} {baseDir yamlPath : FilePath} {bankNode : Yaml} {nodes : List Yaml}
  {bank : CoresetBankEntry} {banks : List CoresetBankEntry} {manifest : CoresetManifest}
  {root : Yaml} {files : Files} {content : String}

theorem not_parseFailed {α : Type} {message : String} {a : α} :
    parseFailed message ≠ some (.ok a) := by
  intro h
  cases h

theorem andThen_eq_ok_iff {α β : Type} {x : Outcome α} {f : α → Outcome β} {b : β} :
    x.andThen f = some (.ok b) ↔ ∃ a, x = some (.ok a) ∧ f a = some (.ok b) := by
  cases x with
  | none => simp [Outcome.andThen]
  | some r =>
    cases r with
    | error e => simp
    | ok a => simp

/-- The path of a bank that was read is the text of its node in the directory. -/
theorem path_of_readBank (h : readBank yaml baseDir bankNode = some (.ok bank)) :
    ∃ path, bankPath yaml bankNode = some path ∧ bank.path = join '/' baseDir path := by
  obtain ⟨position, -, h⟩ := Option.bind_eq_some_iff.mp h
  split_ifs at h
  swap
  · exact absurd h not_parseFailed
  obtain ⟨path, hpath, h⟩ := Option.bind_eq_some_iff.mp h
  split_ifs at h
  swap
  · exact absurd h not_parseFailed
  cases hposition : yaml.asUint16 position with
  | none =>
    rw [hposition] at h
    exact absurd h not_parseFailed
  | some positionId =>
    cases htext : yaml.asString path with
    | none =>
      rw [hposition, htext] at h
      exact absurd h not_parseFailed
    | some text =>
      rw [hposition, htext] at h
      cases h
      refine ⟨text.toList, ?_, rfl⟩
      rw [bankPath, hpath, Option.bind_some, htext]
      rfl

theorem paths_of_readBanks (h : readBanks yaml baseDir nodes = some (.ok banks)) :
    List.Forall₂ (fun path bank => bank.path = join '/' baseDir path)
      (nodes.filterMap (bankPath yaml)) banks := by
  induction nodes generalizing banks with
  | nil =>
    cases h
    exact .nil
  | cons node nodes ih =>
    obtain ⟨bank, hbank, hrest⟩ := andThen_eq_ok_iff.mp h
    obtain ⟨banks', hbanks, hcons⟩ := andThen_eq_ok_iff.mp hrest
    cases hcons
    obtain ⟨path, hpath, hjoin⟩ := path_of_readBank hbank
    rw [List.filterMap_cons_some hpath]
    exact .cons hjoin (ih hbanks)

theorem paths_of_readManifest (h : readManifest yaml baseDir root = some (.ok manifest)) :
    List.Forall₂ (fun path bank => bank.path = join '/' baseDir path) (bankPaths yaml root)
      manifest.banks := by
  obtain ⟨surface, -, h⟩ := Option.bind_eq_some_iff.mp h
  obtain ⟨banksNode, hbanksNode, h⟩ := Option.bind_eq_some_iff.mp h
  split_ifs at hbanksNode with hsurface
  swap
  · cases hbanksNode
    rw [if_pos (.inl hsurface)] at h
    exact absurd h not_parseFailed
  split_ifs at h
  · exact absurd h not_parseFailed
  cases hid : yaml.asString surface with
  | none =>
    rw [hid] at h
    exact absurd h not_parseFailed
  | some surfaceId =>
    rw [hid] at h
    cases banksNode with
    | sequence nodes =>
      obtain ⟨banks, hbanks, hcons⟩ := andThen_eq_ok_iff.mp h
      cases hcons
      rw [bankPaths, hbanksNode]
      exact paths_of_readBanks hbanks
    | missing => exact absurd h not_parseFailed
    | null => exact absurd h not_parseFailed
    | scalar text => exact absurd h not_parseFailed
    | map entries => exact absurd h not_parseFailed

/-! ### What is read back -/

theorem isDefined_scalar (text : String) : ¬ ¬ (Yaml.scalar text).isDefined = true :=
  not_not.mpr rfl

theorem readBank_document (h : RoundTrips yaml manifest) (hbank : bank ∈ manifest.banks) :
    readBank yaml baseDir (.map [("position", .scalar (toString bank.positionId.toNat)),
      ("path", .scalar (String.ofList (filename '/' bank.path)))]) =
      some (.ok ⟨bank.positionId, join '/' baseDir (filename '/' bank.path)⟩) := by
  have hposition : ∀ p q : Yaml, member (.map [("position", p), ("path", q)]) "position" = some p :=
    fun _ _ => rfl
  have hpath : ∀ p q : Yaml, member (.map [("position", p), ("path", q)]) "path" = some q :=
    fun _ _ => rfl
  rw [readBank, hposition, Option.bind_some, if_neg (isDefined_scalar _), hpath, Option.bind_some,
    if_neg (isDefined_scalar _), h.asUint16_scalar bank hbank, h.asString_scalar]
  simp only [String.toList_ofList]

theorem readBanks_document (h : RoundTrips yaml manifest)
    (hbanks : ∀ bank ∈ banks, bank ∈ manifest.banks) :
    readBanks yaml baseDir (banks.map fun bank =>
      .map [("position", .scalar (toString bank.positionId.toNat)),
        ("path", .scalar (String.ofList (filename '/' bank.path)))]) =
      some (.ok (banks.map fun bank =>
        ⟨bank.positionId, join '/' baseDir (filename '/' bank.path)⟩)) := by
  induction banks with
  | nil => rfl
  | cons bank banks ih =>
    rw [List.forall_mem_cons] at hbanks
    rw [List.map_cons, readBanks, readBank_document h hbanks.1, Outcome.andThen_ok, ih hbanks.2]
    rfl

theorem readManifest_document (h : RoundTrips yaml manifest) :
    readManifest yaml baseDir (document manifest) =
      some (.ok ⟨manifest.surfaceId, manifest.banks.map fun bank =>
        ⟨bank.positionId, join '/' baseDir (filename '/' bank.path)⟩⟩) := by
  have hsurface : ∀ p q : Yaml, member (.map [("surface", p), ("banks", q)]) "surface" = some p :=
    fun _ _ => rfl
  have hbanksNode : ∀ p q : Yaml, member (.map [("surface", p), ("banks", q)]) "banks" = some q :=
    fun _ _ => rfl
  have hbanks : readBanks yaml baseDir _ = _ := readBanks_document h fun bank hbank => hbank
  have hsurfaceDefined : (Yaml.scalar manifest.surfaceId).isDefined = true := rfl
  rw [readManifest, document, hsurface, Option.bind_some, if_pos hsurfaceDefined, hbanksNode,
    Option.bind_some, if_neg (by simp [Yaml.isDefined]), h.asString_scalar]
  exact congrArg (Outcome.andThen · _) hbanks

/-- What is saved and loaded again keeps its banks where only their last names count. -/
theorem survives_iff (h : RoundTrips yaml manifest) :
    Survives yaml files yamlPath manifest ↔ ∀ bank ∈ manifest.banks,
      Same '/' (join '/' (parentPath '/' yamlPath) (filename '/' bank.path)) bank.path := by
  have hload : loadCoresetManifest yaml
      (Function.update files yamlPath (some (yaml.emit (document manifest)))) yamlPath =
      some (.ok ⟨manifest.surfaceId, manifest.banks.map fun bank =>
        ⟨bank.positionId, join '/' (parentPath '/' yamlPath) (filename '/' bank.path)⟩⟩) := by
    rw [loadCoresetManifest, Function.update_self]
    simp only [h.parse_emit]
    exact readManifest_document h
  constructor
  · rintro ⟨files', manifest', hsave, hload', -, hbanks⟩
    cases hsave
    rw [hload] at hload'
    cases hload'
    rw [List.forall₂_map_left_iff, List.forall₂_same] at hbanks
    exact fun bank hbank => (hbanks bank hbank).2
  · intro hsame
    refine ⟨_, _, rfl, hload, rfl, ?_⟩
    rw [List.forall₂_map_left_iff, List.forall₂_same]
    exact fun bank hbank => ⟨rfl, hsame bank hbank⟩

/-- A manifest survives exactly when its banks are in its own directory and are named without
another one. -/
theorem survives_iff_beside (hfile : files yamlPath = some content)
    (hparse : yaml.parse content = .ok root)
    (hload : loadCoresetManifest yaml files yamlPath = some (.ok manifest))
    (hround : RoundTrips yaml manifest) :
    Survives yaml files yamlPath manifest ↔
      ∀ path ∈ bankPaths yaml root, Beside (parentPath '/' yamlPath) path := by
  rw [loadCoresetManifest, hfile] at hload
  simp only [hparse] at hload
  rw [survives_iff hround]
  have hpaths := paths_of_readManifest hload
  have hiff : ∀ (path : FilePath) (bank : CoresetBankEntry), bank.path = join '/' (parentPath '/' yamlPath) path →
      (Same '/' (join '/' (parentPath '/' yamlPath) (filename '/' bank.path)) bank.path ↔
        Beside (parentPath '/' yamlPath) path) := by
    intro path bank hjoin
    rw [hjoin]
    exact same_join_filename_iff elements_parentPath
  generalize bankPaths yaml root = paths at hpaths ⊢
  generalize manifest.banks = banks at hpaths ⊢
  induction hpaths with
  | nil => simp
  | cons hjoin _ ih =>
    rw [List.forall_mem_cons, List.forall_mem_cons]
    exact and_congr (hiff _ _ hjoin) ih

/-! ### A manifest of two banks -/

/-- The document of a manifest of one surface with two positions. -/
def twoBanks (first second : String) : Yaml :=
  .map [("surface", .scalar "driver_seat"),
    ("banks", .sequence [.map [("position", .scalar "0"), ("path", .scalar first)],
      .map [("position", .scalar "1"), ("path", .scalar second)]])]

/-- The library on one document and its text. -/
def sampleYaml (source : String) (root : Yaml) (emitted : String) (saved : Yaml) :
    ManifestYaml where
  parse text := if text = source then .ok root else if text = emitted then .ok saved else .error ""
  emit _ := emitted
  asString := Yaml.isScalar
  stringError _ := "bad conversion"
  asUint16 node := if node.isScalar = some "0" then some 0
    else if node.isScalar = some "1" then some 1 else none
  uint16Error _ := "bad conversion"

def flatText : String :=
  "surface: driver_seat\nbanks:\n  - position: 0\n    path: pos_0.bin\n  - position: 1\n    path: pos_1.bin"

/-- Two banks next to their manifest. -/
theorem survives_iff_beside_flat :
    Survives (sampleYaml flatText (twoBanks "pos_0.bin" "pos_1.bin") flatText
        (twoBanks "pos_0.bin" "pos_1.bin")) (fun _ => some flatText) "coresets/seat.yaml".toList
      ⟨"driver_seat", [⟨0, "coresets/pos_0.bin".toList⟩, ⟨1, "coresets/pos_1.bin".toList⟩]⟩ := by
  refine (survives_iff_beside rfl rfl rfl ⟨rfl, fun _ => rfl, by decide⟩).mpr ?_
  decide

def nestedText : String :=
  "surface: driver_seat\nbanks:\n  - position: 0\n    path: left/pos.bin\n  - position: 1\n    path: right/pos.bin"

def savedText : String :=
  "surface: driver_seat\nbanks:\n  - position: 0\n    path: pos.bin\n  - position: 1\n    path: pos.bin"

def nestedYaml : ManifestYaml :=
  sampleYaml nestedText (twoBanks "left/pos.bin" "right/pos.bin") savedText
    (twoBanks "pos.bin" "pos.bin")

/-- Two banks of two directories are one file after the manifest was saved. -/
theorem nested_banks_lost :
    ∃ manifest manifest', RoundTrips nestedYaml manifest ∧
      loadCoresetManifest nestedYaml (fun _ => some nestedText) "coresets/seat.yaml".toList =
        some (.ok manifest) ∧
      ¬ Survives nestedYaml (fun _ => some nestedText) "coresets/seat.yaml".toList manifest ∧
      loadCoresetManifest nestedYaml (fun _ => some savedText) "coresets/seat.yaml".toList =
        some (.ok manifest') ∧
      manifest.banks.map (·.path) =
        ["coresets/left/pos.bin".toList, "coresets/right/pos.bin".toList] ∧
      manifest'.banks.map (·.path) = ["coresets/pos.bin".toList, "coresets/pos.bin".toList] := by
  refine ⟨⟨"driver_seat", [⟨0, "coresets/left/pos.bin".toList⟩,
    ⟨1, "coresets/right/pos.bin".toList⟩]⟩, ⟨"driver_seat", [⟨0, "coresets/pos.bin".toList⟩,
      ⟨1, "coresets/pos.bin".toList⟩]⟩, ⟨rfl, fun _ => rfl, by decide⟩, rfl, ?_, rfl, rfl, rfl⟩
  rw [survives_iff ⟨rfl, fun _ => rfl, by decide⟩]
  decide

end Load

end SurfaceAi.Io
