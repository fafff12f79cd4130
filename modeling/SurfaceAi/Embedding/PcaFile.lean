import SurfaceAi.Core.Error
import SurfaceAi.Embedding.PcaScoring
import SurfaceAi.Library.ByteWords

/-! The file a PCA model is kept in: the two dimensions as 64-bit words, then the mean, the
eigenvalues and the components as 32-bit floats, all least significant byte first. Sizes are 64-bit
words. A vector that cannot be had ends the program, since nothing catches what is thrown. -/

namespace SurfaceAi.Embeddings.DimensionReducer

open ByteWords

/-- A file, no longer than what an offset can name. -/
structure BinaryFile where
  bytes : List UInt8
  addressable : bytes.length < 2 ^ 63

/-- What an input stream has still to read, and its `failbit`. -/
structure InputStream where
  rest : List UInt8
  failed : Bool

namespace InputStream

/-- The stream on a file with `pos` bytes asked for. -/
def after (bytes : List UInt8) (pos : ℕ) : InputStream := ⟨bytes.drop pos, bytes.length < pos⟩

variable (s : InputStream)

/-- `read`: what is stored, and the stream after it. -/
def read (count : ℕ) : List UInt8 × InputStream :=
  if s.failed then ([], s) else (s.rest.take count, ⟨s.rest.drop count, s.rest.length < count⟩)

/-- A word that starts as zero. -/
def readWord : ℕ × InputStream := (value (s.read 8).1, (s.read 8).2)

/-- A vector of zeros, read over. -/
def readFloats (count : ℕ) : List UInt32 × InputStream :=
  (words 4 UInt32.ofNat count (s.read (count * 4 % 2 ^ 64)).1, (s.read (count * 4 % 2 ^ 64)).2)

theorem failed_after (bytes : List UInt8) (pos : ℕ) :
    (after bytes pos).failed = decide (bytes.length < pos) := rfl

theorem read_after (bytes : List UInt8) (pos count : ℕ) :
    (after bytes pos).read count = ((bytes.drop pos).take count, after bytes (pos + count)) := by
  by_cases h : bytes.length < pos
  · have hdrop : bytes.drop pos = [] := List.drop_eq_nil_of_le h.le
    have hdrop' : bytes.drop (pos + count) = [] := List.drop_eq_nil_of_le (by omega)
    have h' : bytes.length < pos + count := by omega
    simp [read, after, h, h', hdrop, hdrop']
  · have hlt : bytes.length - pos < count ↔ bytes.length < pos + count := by omega
    simp [read, after, h, hlt]

end InputStream

section Load

variable (allocates : ℕ → ℕ → ℕ → Bool) (path : String)

/-- `expected_size`. -/
def expectedSize (D k : ℕ) : ℕ := (8 * 2 + D * 4 + k * 4 + k * D * 4) % 2 ^ 64

/-- `LoadPcaParams`; the file is missing if it cannot be opened. -/
def loadPcaParams : Option BinaryFile → Outcome (PcaParams UInt32)
  | none => some (fail .detectionFeatureBankLoadFailed
      ("DimensionReducer::LoadPcaParams: cannot open file: " ++ path))
  | some file =>
    let (D, s) := (InputStream.after file.bytes 0).readWord
    let (k, s) := s.readWord
    if file.bytes.length < expectedSize D k ∨ D = 0 ∨ k = 0 then
      some (fail .detectionFeatureBankLoadFailed
        ("DimensionReducer::LoadPcaParams: invalid file format or dimensions: " ++ path))
    else if allocates D k (k * D % 2 ^ 64) then
      let (mean, s) := s.readFloats D
      let (eigvals, s) := s.readFloats k
      let (components, s) := s.readFloats (k * D % 2 ^ 64)
      if s.failed then
        some (fail .detectionFeatureBankLoadFailed
          ("DimensionReducer::LoadPcaParams: read failed: " ++ path))
      else some (.ok ⟨components, k, mean, eigvals⟩)
    else none

end Load

section Save

variable (params : PcaParams UInt32)

/-- The bytes `write` takes from a vector; nothing if the vector ends before. -/
def floatBytes (data : List UInt32) (count : ℕ) : Option (List UInt8) :=
  if count * 4 % 2 ^ 64 ≤ data.length * 4 then
    some ((bytesOf 4 UInt32.toNat data).take (count * 4 % 2 ^ 64))
  else none

def pcaBytes : Option (List UInt8) := do
  let D := params.mean.length
  let k := params.targetDim
  let mean ← floatBytes params.mean D
  let eigvals ← floatBytes params.eigvals k
  let components ← floatBytes params.components (k * D)
  some (spell 8 D ++ spell 8 k ++ mean ++ eigvals ++ components)

/-- `SavePcaParams`, with what the file then holds; `opened` and `stored` are what the file system
makes of it. -/
def savePcaParams (path : String) (opened : Bool) (stored : List UInt8 → Bool) :
    Outcome (List UInt8) :=
  if opened then
    (pcaBytes params).map fun bytes =>
      if stored bytes then .ok bytes
      else fail .detectionFeatureBankLoadFailed
        ("DimensionReducer::SavePcaParams: write failed: " ++ path)
  else some (fail .detectionFeatureBankLoadFailed
    ("DimensionReducer::SavePcaParams: cannot open file: " ++ path))

end Save

/-! ### What is loaded -/

namespace BinaryFile

variable (file : BinaryFile)

def D : ℕ := value (file.bytes.take 8)

def k : ℕ := value ((file.bytes.drop 8).take 8)

/-- `count` floats from a place on. -/
def floats (pos count : ℕ) : List UInt32 := words 4 UInt32.ofNat count (file.bytes.drop pos)

/-- The bytes that a file of these dimensions has in all. -/
def needed (D k : ℕ) : ℕ := 16 + 4 * (D + k + k * D)

end BinaryFile

theorem expectedSize_eq (D k : ℕ) : expectedSize D k = BinaryFile.needed D k % 2 ^ 64 := by
  unfold expectedSize BinaryFile.needed
  congr 1
  ring

theorem readWord_after (bytes : List UInt8) (pos : ℕ) :
    (InputStream.after bytes pos).readWord =
      (value ((bytes.drop pos).take 8), .after bytes (pos + 8)) := by
  rw [InputStream.readWord, InputStream.read_after]

theorem readFloats_after (bytes : List UInt8) (pos count : ℕ) (hcount : count < 2 ^ 61) :
    (InputStream.after bytes pos).readFloats count =
      (words 4 UInt32.ofNat count (bytes.drop pos), .after bytes (pos + count * 4)) := by
  rw [InputStream.readFloats, Nat.mod_eq_of_lt (by omega), InputStream.read_after, words, words,
    Rows.rows_take]

section Load

variable {allocates : ℕ → ℕ → ℕ → Bool} {path : String}

/-- What a file is loaded as, where no vector can be had past its largest size. -/
theorem loadPcaParams_some
    (hmax : ∀ a b c, allocates a b c = true → a < 2 ^ 61 ∧ b < 2 ^ 61 ∧ c < 2 ^ 61)
    (file : BinaryFile) :
    loadPcaParams allocates path (some file) =
      if file.bytes.length < expectedSize file.D file.k ∨ file.D = 0 ∨ file.k = 0 then
        some (fail .detectionFeatureBankLoadFailed
          ("DimensionReducer::LoadPcaParams: invalid file format or dimensions: " ++ path))
      else if allocates file.D file.k (file.k * file.D % 2 ^ 64) then
        if file.bytes.length < 16 + 4 * (file.D + file.k + file.k * file.D % 2 ^ 64) then
          some (fail .detectionFeatureBankLoadFailed
            ("DimensionReducer::LoadPcaParams: read failed: " ++ path))
        else some (.ok ⟨file.floats (16 + file.D * 4 + file.k * 4) (file.k * file.D % 2 ^ 64),
          file.k, file.floats 16 file.D, file.floats (16 + file.D * 4) file.k⟩)
      else none := by
  have hD : value ((file.bytes.drop 0).take 8) = file.D := rfl
  have hk : value ((file.bytes.drop (0 + 8)).take 8) = file.k := rfl
  simp only [loadPcaParams, readWord_after, hD, hk]
  by_cases halloc : allocates file.D file.k (file.k * file.D % 2 ^ 64) = true
  · obtain ⟨hDmax, hkmax, hmmax⟩ := hmax _ _ _ halloc
    have hfailed : 0 + 8 + 8 + file.D * 4 + file.k * 4 + file.k * file.D % 2 ^ 64 * 4 =
        16 + 4 * (file.D + file.k + file.k * file.D % 2 ^ 64) := by omega
    simp only [readFloats_after _ _ _ hDmax, readFloats_after _ _ _ hkmax,
      readFloats_after _ _ _ hmmax, InputStream.failed_after, hfailed, decide_eq_true_eq]
    rfl
  · simp only [halloc, if_false, Bool.false_eq_true]

variable {file : BinaryFile}

/-- A file that holds all that its dimensions ask for is read as just that. -/
theorem loadPcaParams_of_needed_le
    (hmax : ∀ a b c, allocates a b c = true → a < 2 ^ 61 ∧ b < 2 ^ 61 ∧ c < 2 ^ 61)
    (halloc : allocates file.D file.k (file.k * file.D) = true) (hD : file.D ≠ 0) (hk : file.k ≠ 0)
    (hneeded : BinaryFile.needed file.D file.k ≤ file.bytes.length) :
    loadPcaParams allocates path (some file) =
      some (.ok ⟨file.floats (16 + file.D * 4 + file.k * 4) (file.k * file.D), file.k,
        file.floats 16 file.D, file.floats (16 + file.D * 4) file.k⟩) := by
  have hlength := file.addressable
  have hproduct : file.k * file.D % 2 ^ 64 = file.k * file.D := by
    unfold BinaryFile.needed at hneeded
    exact Nat.mod_eq_of_lt (by omega)
  have hexpected : ¬ (file.bytes.length < expectedSize file.D file.k ∨ file.D = 0 ∨ file.k = 0) := by
    rw [expectedSize_eq, Nat.mod_eq_of_lt (by omega)]
    omega
  have hshort : ¬ file.bytes.length < 16 + 4 * (file.D + file.k + file.k * file.D) :=
    not_lt.mpr hneeded
  rw [loadPcaParams_some hmax, if_neg hexpected, hproduct, if_pos halloc, if_neg hshort]

end Load

/-! ### What is saved -/

theorem floatBytes_eq {data : List UInt32} {count : ℕ} (hcount : data.length = count)
    (hmax : count < 2 ^ 61) : floatBytes data count = some (bytesOf 4 UInt32.toNat data) := by
  rw [floatBytes, Nat.mod_eq_of_lt (by omega), if_pos (by omega), List.take_of_length_le]
  rw [length_bytesOf, hcount]

/-- What `SavePcaParams` is given: a vector for each dimension, none past its largest size. -/
structure WellSized (params : PcaParams UInt32) : Prop where
  mean_pos : 1 ≤ params.mean.length
  targetDim_pos : 1 ≤ params.targetDim
  eigvals : params.eigvals.length = params.targetDim
  components : params.components.length = params.targetDim * params.mean.length
  mean_lt : params.mean.length < 2 ^ 61
  targetDim_lt : params.targetDim < 2 ^ 61
  components_lt : params.targetDim * params.mean.length < 2 ^ 61

theorem pcaBytes_eq {params : PcaParams UInt32} (h : WellSized params) :
    pcaBytes params = some (spell 8 params.mean.length ++ spell 8 params.targetDim ++
      bytesOf 4 UInt32.toNat params.mean ++ bytesOf 4 UInt32.toNat params.eigvals ++
      bytesOf 4 UInt32.toNat params.components) := by
  rw [pcaBytes]
  simp only [floatBytes_eq rfl h.mean_lt, floatBytes_eq h.eigvals h.targetDim_lt,
    floatBytes_eq h.components h.components_lt, Option.bind_eq_bind, Option.bind_some]

theorem toNat_ofNat_word {n : ℕ} (h : n < 256 ^ 4) : (UInt32.ofNat n).toNat = n := by
  rw [UInt32.toNat_ofNat']
  exact Nat.mod_eq_of_lt h

theorem ofNat_toNat_word (x : UInt32) : UInt32.ofNat (x.toNat % 256 ^ 4) = x := by
  have hx : x.toNat < 256 ^ 4 := x.toNat_lt
  rw [Nat.mod_eq_of_lt hx, UInt32.ofNat_toNat]

theorem bytesOf_floats {file : BinaryFile} {pos count : ℕ}
    (h : pos + count * 4 ≤ file.bytes.length) :
    bytesOf 4 UInt32.toNat (file.floats pos count) = (file.bytes.drop pos).take (count * 4) := by
  apply bytesOf_words fun _ => toNat_ofNat_word
  rw [List.length_drop]
  omega

/-- What a file holds is written again as its leading bytes. -/
theorem pcaBytes_floats {file : BinaryFile} (hD : file.D ≠ 0) (hk : file.k ≠ 0)
    (hneeded : BinaryFile.needed file.D file.k ≤ file.bytes.length) :
    pcaBytes ⟨file.floats (16 + file.D * 4 + file.k * 4) (file.k * file.D), file.k,
        file.floats 16 file.D, file.floats (16 + file.D * 4) file.k⟩ =
      some (file.bytes.take (BinaryFile.needed file.D file.k)) := by
  have hlength := file.addressable
  have hsum : BinaryFile.needed file.D file.k =
      8 + 8 + file.D * 4 + file.k * 4 + file.k * file.D * 4 := by
    unfold BinaryFile.needed
    omega
  have hmean : (file.floats 16 file.D).length = file.D := length_words ..
  have hspellD : spell 8 file.D = file.bytes.take 8 := by
    have := spell_value (file.bytes.take 8)
    rwa [List.length_take, Nat.min_eq_left (by omega)] at this
  have hspellk : spell 8 file.k = (file.bytes.drop 8).take 8 := by
    have := spell_value ((file.bytes.drop 8).take 8)
    rwa [List.length_take, List.length_drop, Nat.min_eq_left (by omega)] at this
  rw [pcaBytes_eq, hsum, List.take_add, List.take_add, List.take_add, List.take_add]
  · dsimp only
    rw [hmean, hspellD, hspellk, bytesOf_floats (by omega), bytesOf_floats (by omega),
      bytesOf_floats (by omega)]
  · constructor
    all_goals dsimp only
    · omega
    · omega
    · exact length_words ..
    · rw [hmean]
      exact length_words ..
    · omega
    · omega
    · rw [hmean]
      omega

theorem needed_of_pcaBytes {params : PcaParams UInt32} (h : WellSized params) {file : BinaryFile}
    (hsaved : pcaBytes params = some file.bytes) :
    file.D = params.mean.length ∧ file.k = params.targetDim ∧
      BinaryFile.needed file.D file.k = file.bytes.length := by
  rw [pcaBytes_eq h] at hsaved
  have hbytes := (Option.some.inj hsaved).symm
  have hD : file.D = params.mean.length := by
    rw [BinaryFile.D, hbytes]
    simp only [List.append_assoc]
    rw [List.take_left' (length_spell ..), value_spell_of_lt]
    exact h.mean_lt.trans (by decide)
  have hk : file.k = params.targetDim := by
    rw [BinaryFile.k, hbytes]
    simp only [List.append_assoc]
    rw [List.drop_left' (length_spell ..), List.take_left' (length_spell ..), value_spell_of_lt]
    exact h.targetDim_lt.trans (by decide)
  refine ⟨hD, hk, ?_⟩
  rw [hD, hk, hbytes, BinaryFile.needed]
  simp only [List.length_append, length_spell, length_bytesOf, h.eigvals, h.components]
  omega

theorem floats_of_pcaBytes {params : PcaParams UInt32} (h : WellSized params) {file : BinaryFile}
    (hsaved : pcaBytes params = some file.bytes) :
    file.floats 16 params.mean.length = params.mean ∧
      file.floats (16 + params.mean.length * 4) params.targetDim = params.eigvals ∧
      file.floats (16 + params.mean.length * 4 + params.targetDim * 4)
        (params.targetDim * params.mean.length) = params.components := by
  rw [pcaBytes_eq h] at hsaved
  have hbytes := (Option.some.inj hsaved).symm
  set m := bytesOf 4 UInt32.toNat params.mean with hm
  set e := bytesOf 4 UInt32.toNat params.eigvals with he
  set c := bytesOf 4 UInt32.toNat params.components with hc
  have hhead : (spell 8 params.mean.length ++ spell 8 params.targetDim).length = 16 := by simp
  have hmlen : m.length = params.mean.length * 4 := length_bytesOf ..
  have helen : e.length = params.targetDim * 4 := by rw [he, length_bytesOf, h.eigvals]
  have hdrop : file.bytes.drop 16 = m ++ (e ++ c) := by
    rw [hbytes, List.append_assoc, List.append_assoc, List.drop_left' hhead]
  refine ⟨?_, ?_, ?_⟩
  · rw [BinaryFile.floats, hdrop]
    exact words_bytesOf ofNat_toNat_word ..
  · rw [BinaryFile.floats, ← List.drop_drop, hdrop, List.drop_left' hmlen, ← h.eigvals]
    exact words_bytesOf ofNat_toNat_word ..
  · rw [BinaryFile.floats, ← List.drop_drop, ← List.drop_drop, hdrop, List.drop_left' hmlen,
      List.drop_left' helen, ← h.components, ← List.append_nil c]
    exact words_bytesOf ofNat_toNat_word ..

/-! ### Both together -/

/-- A file is refused, or loaded as what its dimensions say: it holds all of that, and saving it
again writes its leading bytes. -/
def Consistent (file : BinaryFile) (outcome : Outcome (PcaParams UInt32)) : Prop :=
  ∃ result, outcome = some result ∧ ∀ params, result = .ok params →
    params.mean.length = file.D ∧ params.eigvals.length = file.k ∧
    params.components.length = file.k * file.D ∧
    BinaryFile.needed file.D file.k ≤ file.bytes.length ∧
    ∀ path, savePcaParams params path true (fun _ => true) =
      some (.ok (file.bytes.take (BinaryFile.needed file.D file.k)))

/-- The file is refused for its size or dimensions, or its size is no more than a 64-bit word can
say, or vectors of the wrapped sizes can be had and the file ends before they do. -/
def Unwrapped (allocates : ℕ → ℕ → ℕ → Bool) (file : BinaryFile) : Prop :=
  file.bytes.length < expectedSize file.D file.k ∨ file.D = 0 ∨ file.k = 0 ∨
  BinaryFile.needed file.D file.k < 2 ^ 64 ∨
  allocates file.D file.k (file.k * file.D % 2 ^ 64) = true ∧
    file.bytes.length < 16 + 4 * (file.D + file.k + file.k * file.D % 2 ^ 64)

section Both

variable {allocates : ℕ → ℕ → ℕ → Bool} {path : String} {file : BinaryFile}

theorem Consistent.error (e : ErrorInfo) : Consistent file (some (.error e)) :=
  ⟨.error e, rfl, fun _ h => nomatch h⟩

theorem not_consistent_none : ¬ Consistent file none := by
  rintro ⟨_, hnone, -⟩
  cases hnone

theorem consistent_of_needed_le
    (hmax : ∀ a b c, allocates a b c = true → a < 2 ^ 61 ∧ b < 2 ^ 61 ∧ c < 2 ^ 61)
    (halloc : allocates file.D file.k (file.k * file.D) = true) (hD : file.D ≠ 0) (hk : file.k ≠ 0)
    (hneeded : BinaryFile.needed file.D file.k ≤ file.bytes.length) :
    Consistent file (loadPcaParams allocates path (some file)) := by
  rw [loadPcaParams_of_needed_le hmax halloc hD hk hneeded]
  refine ⟨_, rfl, ?_⟩
  intro params hparams
  obtain rfl := Except.ok.inj hparams
  refine ⟨length_words .., length_words .., length_words .., hneeded, ?_⟩
  intro path
  rw [savePcaParams, if_pos rfl, pcaBytes_floats hD hk hneeded]
  rfl

theorem consistent_iff
    (hmax : ∀ a b c, allocates a b c = true → a < 2 ^ 61 ∧ b < 2 ^ 61 ∧ c < 2 ^ 61)
    (hroom : ∀ a b c, (a + b + c) * 4 ≤ file.bytes.length → allocates a b c = true) :
    Consistent file (loadPcaParams allocates path (some file)) ↔ Unwrapped allocates file := by
  have hlength := file.addressable
  by_cases hbad : file.bytes.length < expectedSize file.D file.k ∨ file.D = 0 ∨ file.k = 0
  · rw [loadPcaParams_some hmax, if_pos hbad]
    refine ⟨fun _ => ?_, fun _ => .error _⟩
    unfold Unwrapped
    tauto
  · obtain ⟨hsize, hD, hk⟩ := not_or.mp hbad |>.imp id not_or.mp
    by_cases hneeded : BinaryFile.needed file.D file.k < 2 ^ 64
    · refine ⟨fun _ => .inr (.inr (.inr (.inl hneeded))), fun _ => ?_⟩
      have hfits : BinaryFile.needed file.D file.k ≤ file.bytes.length := by
        rw [expectedSize_eq, Nat.mod_eq_of_lt hneeded] at hsize
        exact not_lt.mp hsize
      apply consistent_of_needed_le hmax _ hD hk hfits
      apply hroom
      unfold BinaryFile.needed at hfits
      omega
    · have hunwrapped : Unwrapped allocates file ↔
          allocates file.D file.k (file.k * file.D % 2 ^ 64) = true ∧
            file.bytes.length < 16 + 4 * (file.D + file.k + file.k * file.D % 2 ^ 64) := by
        unfold Unwrapped
        tauto
      rw [hunwrapped, loadPcaParams_some hmax, if_neg hbad]
      by_cases halloc : allocates file.D file.k (file.k * file.D % 2 ^ 64) = true
      · rw [if_pos halloc]
        split_ifs with hshort
        · exact ⟨fun _ => ⟨halloc, hshort⟩, fun _ => .error _⟩
        · -- The vectors of the wrapped sizes are read, and the file does not hold the true ones.
          refine ⟨?_, fun h => absurd h.2 hshort⟩
          rintro ⟨_, hok, hparams⟩
          obtain ⟨-, -, -, hfits, -⟩ := hparams _ (Option.some.inj hok).symm
          omega
      · rw [if_neg halloc]
        exact ⟨fun h => absurd h not_consistent_none, fun h => absurd h.1 halloc⟩

theorem load_of_save
    (hmax : ∀ a b c, allocates a b c = true → a < 2 ^ 61 ∧ b < 2 ^ 61 ∧ c < 2 ^ 61)
    (hroom : ∀ a b c, (a + b + c) * 4 ≤ file.bytes.length → allocates a b c = true)
    {params : PcaParams UInt32} (h : WellSized params)
    (hsaved : pcaBytes params = some file.bytes) :
    loadPcaParams allocates path (some file) = some (.ok params) := by
  obtain ⟨hD, hk, hneeded⟩ := needed_of_pcaBytes h hsaved
  obtain ⟨hmean, heigvals, hcomponents⟩ := floats_of_pcaBytes h hsaved
  have hDpos := h.mean_pos
  have hkpos := h.targetDim_pos
  have halloc : allocates file.D file.k (file.k * file.D) = true := by
    apply hroom
    unfold BinaryFile.needed at hneeded
    omega
  rw [loadPcaParams_of_needed_le hmax halloc (by omega) (by omega) hneeded.le, hD, hk, hmean,
    heigvals, hcomponents]

end Both

/-- A model file is loaded consistently exactly if its sizes are not wrapped where it matters, and
a saved model is loaded again. The allocator refuses vectors past their largest size, and has room
for what a file holds. -/
theorem pcaFile_consistent_iff (allocates : ℕ → ℕ → ℕ → Bool)
    (hmax : ∀ a b c, allocates a b c = true → a < 2 ^ 61 ∧ b < 2 ^ 61 ∧ c < 2 ^ 61)
    (path : String) (file : BinaryFile)
    (hroom : ∀ a b c, (a + b + c) * 4 ≤ file.bytes.length → allocates a b c = true) :
    (Consistent file (loadPcaParams allocates path (some file)) ↔ Unwrapped allocates file) ∧
    ∀ params, WellSized params → ∀ path' stored,
      savePcaParams params path' true stored = some (.ok file.bytes) →
      loadPcaParams allocates path (some file) = some (.ok params) := by
  refine ⟨consistent_iff hmax hroom, ?_⟩
  intro params hparams path' stored hsaved
  apply load_of_save hmax hroom hparams
  rw [savePcaParams, if_pos rfl, Option.map_eq_some_iff] at hsaved
  obtain ⟨bytes, hbytes, hstored⟩ := hsaved
  split_ifs at hstored
  · rw [hbytes, Except.ok.inj hstored]
  · cases hstored

/-- An allocator that has every vector up to the largest size. -/
def roomy (a b c : ℕ) : Bool := a < 2 ^ 61 ∧ b < 2 ^ 61 ∧ c < 2 ^ 61

/-- One component in one dimension. -/
def smallFile : BinaryFile :=
  ⟨spell 8 1 ++ spell 8 1 ++ List.replicate 12 7, by decide⟩

/-- One component in `2 ^ 62` dimensions, whose four bytes each wrap to nothing. -/
def wrappedFile : BinaryFile :=
  ⟨spell 8 (2 ^ 62) ++ spell 8 1 ++ List.replicate 4 0, by decide⟩

theorem pcaFile_consistent_small :
    Consistent smallFile (loadPcaParams roomy "model.pca" (some smallFile)) ↔
      Unwrapped roomy smallFile :=
  (pcaFile_consistent_iff roomy
    (by
      intro a b c h
      simpa [roomy] using h)
    "model.pca" smallFile
    (by
      intro a b c h
      have hlength : smallFile.bytes.length = 28 := by decide
      simp only [roomy, decide_eq_true_eq]
      omega)).1

theorem wrappedFile_not_consistent :
    ¬ ∀ file : BinaryFile, Consistent file (loadPcaParams roomy "model.pca" (some file)) := by
  intro h
  have hnone : loadPcaParams roomy "model.pca" (some wrappedFile) = none := by
    decide +kernel
  exact not_consistent_none (hnone ▸ h wrappedFile)

end SurfaceAi.Embeddings.DimensionReducer
