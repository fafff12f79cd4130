import SurfaceAi.Detection.Coreset
import SurfaceAi.Library.Transition
import Mathlib.Algebra.Field.Rat
import Mathlib.Algebra.Order.Field.Basic
import Mathlib.Algebra.Order.Ring.Rat

/-! A feature bank as the builders and the later calls leave it: an index on the CPU, flat or
inverted, and the copy of it that a GPU searches. Beside each bank stand the vectors that it was
last given. -/

namespace SurfaceAi.Detection

open Embeddings

inductive IndexKind where
  | flat
  | ivf (nlist : ℕ)
  deriving DecidableEq

/-- A FAISS index with the vectors added to it. -/
structure Index (F : Type*) extends FeatureBank F where
  kind : IndexKind

/-- What FAISS does of itself: whether k-means over the vectors goes through, and how an index
of each kind is searched. -/
structure Faiss (F : Type*) where
  trains : FeatureBank F → ℕ → Bool
  engine : IndexKind → ℕ → NearestSearch F

/-- `reconstruct`. An inverted index that has no direct map throws. -/
def Index.reconstruct {F : Type*} (index : Index F) (i : ℕ) : Option (List F) :=
  match index.kind with
  | .flat => index.vectors[i]?
  | .ivf _ => none

/-- A file of floats, which may end in the middle of one. -/
structure BankFile (F : Type*) where
  floats : List F
  trailing : ℕ
  trailing_lt : trailing < 4

/-- A file of whole floats. -/
def BankFile.ofFloats {F : Type*} (floats : List F) : BankFile F := ⟨floats, 0, Nat.zero_lt_succ 3⟩

def BankFile.size {F : Type*} (file : BankFile F) : ℕ := 4 * file.floats.length + file.trailing

/-- The members of `FeatureBank`. -/
structure IndexedBank (F : Type*) where
  index : Option (Index F)
  dim : ℕ
  numSamples : ℕ
  nprobe : ℕ
  gpuResources : Bool
  gpuIndex : Option (Index F)
  onGpu : Bool

/-- How far the move to the GPU gets before something throws. -/
inductive GpuTransfer where
  | noResources (what : String)
  | noCopy (what : String)
  | copied

namespace IndexedBank

variable {F : Type*} (s : IndexedBank F)

def empty : IndexedBank F := ⟨none, 0, 0, 4, false, none, false⟩

def rebuild (bank : FeatureBank F) : IndexedBank F :=
  { s with index := some ⟨bank, .flat⟩, dim := bank.dim, numSamples := bank.numSamples }

/-- The index that `Search` is evaluated on. -/
def searchedIndex : Option (Index F) :=
  if s.onGpu ∧ s.gpuIndex.isSome then s.gpuIndex else s.index

def search (faiss : Faiss F) (queries : List (List F)) (k : ℕ) : List F :=
  match s.searchedIndex with
  | none => []
  | some index => index.search (faiss.engine index.kind s.nprobe) queries k

/-- `ExtractAllVectors`, with no result where an exception leaves the function, which it must
not. -/
def extractAllVectors : Option (List F) :=
  match s.index with
  | none => some []
  | some index =>
    if s.numSamples = 0 ∨ s.dim = 0 then some []
    else ((List.range s.numSamples).mapM index.reconstruct).map List.flatten

/-- `SaveToFile`, with the content of the file. -/
def saveToFile (path : String) (opened written : Bool) : Option (Result (List F)) :=
  if s.index.isNone ∨ s.numSamples = 0 ∨ s.dim = 0 then
    some (fail .detectionFeatureBankLoadFailed "FeatureBank is empty, nothing to save")
  else
    s.extractAllVectors.map fun vectors =>
      if opened = false then
        fail .detectionFeatureBankLoadFailed ("Cannot open file for writing: " ++ path)
      else if written = false then
        fail .detectionFeatureBankLoadFailed ("Failed to write feature bank file: " ++ path)
      else .ok vectors

/-- The vectors that `LoadFromFile` reads. A dimension of zero divides by zero. -/
def readVectors (path : String) (dim : ℕ) (file : Option (BankFile F)) (readable : Bool) :
    Option (Result (FeatureBank F)) :=
  match file with
  | none => some (fail .detectionFeatureBankLoadFailed ("cannot open feature bank file: " ++ path))
  | some file =>
    if dim = 0 then none
    else if file.size % (dim * 4) ≠ 0 then
      some (fail .detectionFeatureBankLoadFailed ("file size " ++ toString file.size ++
        " is not a multiple of dim " ++ toString dim))
    else if readable = false then
      some (fail .detectionFeatureBankLoadFailed ("failed to read feature bank file: " ++ path))
    else
      some (.ok (.rebuild file.floats (file.size / (dim * 4)) dim (by
        have h := Nat.div_mul_le_self file.size (dim * 4)
        have htrailing := file.trailing_lt
        rw [← Nat.mul_assoc] at h
        unfold BankFile.size at *
        omega)))

def loadFromFile (path : String) (dim : ℕ) (file : Option (BankFile F)) (readable : Bool) :
    Option (Result (IndexedBank F)) :=
  (readVectors path dim file readable).map fun r => r.map empty.rebuild

/-- `ConvertToIVF`, with no result where the process ends. -/
def convertToIVF (faiss : Faiss F) (nlist : ℕ) : Option (Result Unit × IndexedBank F) :=
  if s.index.isNone ∨ s.numSamples = 0 ∨ s.dim = 0 then
    some (fail .detectionFeatureBankLoadFailed "ConvertToIVF: FeatureBank is empty", s)
  else
    s.extractAllVectors.bind fun vectors =>
      if min nlist s.numSamples < 2 then
        some (fail .detectionFeatureBankLoadFailed ("ConvertToIVF: too few samples (" ++
          toString s.numSamples ++ ") for clustering"), s)
      else if h : s.numSamples * s.dim ≤ vectors.length then
        let bank := FeatureBank.rebuild vectors s.numSamples s.dim h
        if faiss.trains bank (min nlist s.numSamples) then
          some (.ok (), { s with index := some ⟨bank, .ivf (min nlist s.numSamples)⟩ })
        else none
      else none

def toGpu (transfer : GpuTransfer) : Result Unit × IndexedBank F :=
  match s.index with
  | none => (fail .detectionFeatureBankLoadFailed "FeatureBank::ToGpu: no index loaded", s)
  | some index =>
    if s.gpuResources then (.ok (), s)
    else if index.kind ≠ .flat then
      (fail .detectionFeatureBankLoadFailed
        "FeatureBank::ToGpu: index is not IndexFlat, GPU migration unsupported", s)
    else match transfer with
      | .noResources what =>
        (fail .detectionFeatureBankLoadFailed ("FeatureBank::ToGpu failed: " ++ what), s)
      | .noCopy what =>
        (fail .detectionFeatureBankLoadFailed ("FeatureBank::ToGpu failed: " ++ what),
          { s with gpuResources := true })
      | .copied =>
        (.ok (), { s with gpuResources := true, gpuIndex := some index, onGpu := true })

end IndexedBank

/-! ### The calls on one bank -/

/-- The rows that `BuildWithIVF` keeps of `total`: it does not fill them up. -/
def everyStride (total maxSamples : ℕ) : List ℕ :=
  ((List.range total).filter fun i => i % max (total / maxSamples) 1 = 0).take maxSamples

/-- Thinning out divides by the wanted number and by the dimension. -/
def dividesByZero {F : Type*} (builder : String) (embeddings : List (PatchEmbedding F))
    (dim maxSamples : ℕ) : Bool :=
  match gather builder dim embeddings with
  | .ok g => maxSamples < g.total ∧ (maxSamples = 0 ∨ dim = 0)
  | .error _ => false

/-- The vectors that `BuildWithIVF` adds to its index. -/
def ivfVectors {F : Type*} (embeddings : List (PatchEmbedding F)) (dim maxSamples : ℕ) :
    Result (FeatureBank F) := do
  let g ← gather "BuildWithIVF" dim embeddings
  if g.total = 0 then
    fail .detectionFeatureBankLoadFailed
      "BuildWithIVF: no patch vectors extracted from embeddings"
  else if maxSamples < g.total then .ok (.ofIndices g (everyStride g.total maxSamples))
  else .ok (.rebuild g.vectors g.total dim (Nat.le_of_eq g.length_vectors.symm))

inductive BankBuilder (F : Type*) where
  | loadFromFile (path : String) (dim : ℕ) (file : Option (BankFile F)) (readable : Bool)
  | buildFromEmbeddings (embeddings : List (PatchEmbedding F)) (dim maxSamples : ℕ)
  | buildWithGreedyCoreset (embeddings : List (PatchEmbedding F)) (dim maxSamples : ℕ)
  | buildWithIVF (embeddings : List (PatchEmbedding F)) (dim maxSamples nlist : ℕ)

inductive BankCall (F : Type*) where
  | rebuild (data : List F) (count dim : ℕ)
  | convertToIVF (nlist : ℕ)
  | toGpu (transfer : GpuTransfer)

/-- A bank beside the vectors it was last given. -/
structure BankRun (F : Type*) where
  bank : IndexedBank F
  current : FeatureBank F

namespace BankBuilder

variable {F : Type*}

/-- The index that a builder makes of its vectors. -/
def indexed (faiss : Faiss F) (bank : FeatureBank F) : BankBuilder F → Option (IndexedBank F)
  | .buildWithIVF _ _ _ nlist =>
    if min nlist bank.numSamples < 2 then some (IndexedBank.empty.rebuild bank)
    else if faiss.trains bank (min nlist bank.numSamples) then
      some { IndexedBank.empty with
        index := some ⟨bank, .ivf (min nlist bank.numSamples)⟩
        dim := bank.dim
        numSamples := bank.numSamples }
    else none
  | _ => some (IndexedBank.empty.rebuild bank)

variable [Zero F] [One F] [Add F] [Sub F] [Neg F] [Mul F] [LT F] [DecidableLT F] [DecidableEq F]

/-- The vectors that a builder puts into the bank. -/
def vectors : BankBuilder F → Option (Result (FeatureBank F))
  | .loadFromFile path dim file readable => IndexedBank.readVectors path dim file readable
  | .buildFromEmbeddings embeddings dim maxSamples =>
    if dividesByZero "BuildFromEmbeddings" embeddings dim maxSamples then none
    else some (FeatureBank.buildFromEmbeddings embeddings dim maxSamples)
  | .buildWithGreedyCoreset embeddings dim maxSamples =>
    some (FeatureBank.buildWithGreedyCoreset embeddings dim maxSamples)
  | .buildWithIVF embeddings dim maxSamples _ =>
    if dividesByZero "BuildWithIVF" embeddings dim maxSamples then none
    else some (ivfVectors embeddings dim maxSamples)

/-- A builder that returns a bank. -/
def start (faiss : Faiss F) (builder : BankBuilder F) : Option (BankRun F) :=
  builder.vectors.bind fun
    | .error _ => none
    | .ok vectors => (builder.indexed faiss vectors).map fun bank => ⟨bank, vectors⟩

end BankBuilder

namespace BankRun

variable {F : Type*} (faiss : Faiss F)

/-- One call. There is no state after it where the process ends, or where the array that
`Rebuild` is given is too short. -/
def step (s : BankRun F) : BankCall F → Option (BankRun F)
  | .rebuild data count dim =>
    if h : count * dim ≤ data.length then
      some ⟨s.bank.rebuild (.rebuild data count dim h), .rebuild data count dim h⟩
    else none
  | .convertToIVF nlist => (s.bank.convertToIVF faiss nlist).map fun r => ⟨r.2, s.current⟩
  | .toGpu transfer => some ⟨(s.bank.toGpu transfer).2, s.current⟩

/-- The bank answers from its current vectors and keeps them. -/
structure Keeps (s : BankRun F) : Prop where
  search : ∃ index, s.bank.searchedIndex = some index ∧ index.vectors = s.current.vectors
  extract : s.bank.extractAllVectors = some s.current.extractAllVectors
  reload : ∀ path opened written floats,
    s.bank.saveToFile path opened written = some (.ok floats) → ∃ bank index,
      IndexedBank.loadFromFile path s.bank.dim (some (.ofFloats floats)) true = some (.ok bank) ∧
        bank.searchedIndex = some index ∧ index.vectors = s.current.vectors

/-- A call that makes no inverted index, and replaces no vectors that the GPU has a copy of. -/
def Admits (s : BankRun F) : BankCall F → Prop
  | .rebuild data count dim => s.bank.onGpu = true → Rows.rows dim count data = s.current.vectors
  | .convertToIVF nlist => min nlist s.current.numSamples < 2 ∨ s.current.dim = 0
  | .toGpu _ => True

/-- A flat index on the CPU with the current vectors, and a copy of it, if any, on the GPU. -/
structure Flat (s : BankRun F) : Prop where
  index : ∃ kind, s.bank.index = some ⟨s.current, kind⟩ ∧ (kind = .flat ∨ s.current.dim = 0)
  dim : s.bank.dim = s.current.dim
  numSamples : s.bank.numSamples = s.current.numSamples
  copy : s.bank.onGpu = true → ∃ index, s.bank.gpuIndex = some index ∧
    index.vectors = s.current.vectors

end BankRun

/-- A builder that makes no inverted index of these vectors. -/
def BankBuilder.Admits {F : Type*} (vectors : FeatureBank F) : BankBuilder F → Prop
  | .buildWithIVF _ _ _ nlist => min nlist vectors.numSamples < 2 ∨ vectors.dim = 0
  | _ => True

namespace BankRun

variable {F : Type*} {faiss : Faiss F} {s s' : BankRun F}

/-! ### A flat bank keeps its vectors -/

/-- Reading a list entry by entry. -/
theorem mapM_getElem? (l : List (List F)) : (List.range l.length).mapM (l[·]?) = some l := by
  induction l with
  | nil => rfl
  | cons v l ih =>
    rw [List.length_cons, List.range_succ_eq_map, List.mapM_cons, List.mapM_map]
    show (some v >>= fun r => (List.range l.length).mapM (l[·]?) >>= fun rs => some (r :: rs)) = _
    rw [ih]
    rfl

/-- Vectors of dimension zero make an empty array. -/
theorem extractAllVectors_eq_nil {bank : FeatureBank F} (h : bank.numSamples = 0 ∨ bank.dim = 0) :
    bank.extractAllVectors = [] := by
  rw [← List.length_eq_zero_iff, bank.length_extractAllVectors]
  exact Nat.mul_eq_zero.mpr h

theorem Flat.searchedIndex (h : s.Flat) :
    ∃ index, s.bank.searchedIndex = some index ∧ index.vectors = s.current.vectors := by
  unfold IndexedBank.searchedIndex
  split_ifs with hgpu
  · exact h.copy hgpu.1
  · obtain ⟨kind, hindex, -⟩ := h.index
    exact ⟨_, hindex, rfl⟩

theorem Flat.extractAllVectors (h : s.Flat) :
    s.bank.extractAllVectors = some s.current.extractAllVectors := by
  obtain ⟨kind, hindex, hkind⟩ := h.index
  rw [IndexedBank.extractAllVectors, hindex]
  dsimp only
  rw [h.numSamples, h.dim]
  split_ifs with hempty
  · rw [extractAllVectors_eq_nil hempty]
  · obtain rfl := hkind.resolve_right fun hdim => hempty (.inr hdim)
    exact congrArg (Option.map List.flatten) (mapM_getElem? s.current.vectors)

theorem size_ofFloats (bank : FeatureBank F) :
    (BankFile.ofFloats bank.extractAllVectors).size = bank.numSamples * (bank.dim * 4) := by
  rw [BankFile.size, BankFile.ofFloats, bank.length_extractAllVectors, Nat.add_zero, Nat.mul_comm 4,
    Nat.mul_assoc]

/-- A saved file is cut into the vectors again. -/
theorem readVectors_ofFloats (bank : FeatureBank F) (hdim : bank.dim ≠ 0) (path : String) :
    ∃ vectors, IndexedBank.readVectors path bank.dim (some (.ofFloats bank.extractAllVectors)) true =
        some (.ok vectors) ∧ vectors.vectors = bank.vectors := by
  have hsize := size_ofFloats bank
  have hcount : (BankFile.ofFloats bank.extractAllVectors).size / (bank.dim * 4) = bank.numSamples := by
    rw [hsize, Nat.mul_div_cancel _ (by omega)]
  refine ⟨.rebuild bank.extractAllVectors bank.numSamples bank.dim
    bank.length_extractAllVectors.ge, ?_, bank.rows_extractAllVectors⟩
  have hwhole : ¬(BankFile.ofFloats bank.extractAllVectors).size % (bank.dim * 4) ≠ 0 := by
    rw [hsize, Nat.mul_mod_left]
    exact not_not_intro rfl
  rw [IndexedBank.readVectors, if_neg hdim, if_neg hwhole, if_neg (by decide)]
  simp only [hcount]
  rfl

theorem Flat.keeps (h : s.Flat) : s.Keeps where
  search := h.searchedIndex
  extract := h.extractAllVectors
  reload path opened written floats hsave := by
    rw [IndexedBank.saveToFile, h.extractAllVectors] at hsave
    split_ifs at hsave with hempty
    · cases hsave
    · cases hsave
    · cases hsave
    · obtain rfl := Except.ok.inj (Option.some.inj hsave)
      rw [not_or, not_or, h.dim] at hempty
      obtain ⟨vectors, hread, hvectors⟩ := readVectors_ofFloats s.current hempty.2.2 path
      rw [← h.dim] at hread
      refine ⟨IndexedBank.empty.rebuild vectors, ⟨vectors, .flat⟩, ?_, rfl, hvectors⟩
      rw [IndexedBank.loadFromFile]
      exact congrArg (Option.map _) hread

/-- The bank is searched as the bank of its current vectors is. -/
theorem Keeps.search_eq (h : s.Keeps) : ∃ kind, ∀ queries k,
    s.bank.search faiss queries k =
      s.current.search (faiss.engine kind s.bank.nprobe) queries k := by
  obtain ⟨index, hindex, hvectors⟩ := h.search
  refine ⟨index.kind, fun queries k => ?_⟩
  rw [IndexedBank.search, hindex]
  dsimp only [FeatureBank.search]
  rw [hvectors]

/-! ### What the calls do to it -/

theorem Flat.rebuild (h : s.Flat) {bank : FeatureBank F}
    (hsame : s.bank.onGpu = true → bank.vectors = s.current.vectors) :
    (⟨s.bank.rebuild bank, bank⟩ : BankRun F).Flat where
  index := ⟨.flat, rfl, .inl rfl⟩
  dim := rfl
  numSamples := rfl
  copy hgpu := by
    obtain ⟨index, hindex, hvectors⟩ := h.copy hgpu
    exact ⟨index, hindex, hvectors.trans (hsame hgpu).symm⟩

/-- A copy on the GPU is what is searched, whatever the index on the CPU holds by now. -/
theorem Flat.vectors_of_rebuild (h : s.Flat) {bank : FeatureBank F}
    (hkeeps : (⟨s.bank.rebuild bank, bank⟩ : BankRun F).Keeps) (hgpu : s.bank.onGpu = true) :
    bank.vectors = s.current.vectors := by
  obtain ⟨copy, hcopy, hvectors⟩ := h.copy hgpu
  obtain ⟨index, hindex, hsearch⟩ := hkeeps.search
  have hsearched : (s.bank.rebuild bank).searchedIndex = some copy := by
    rw [IndexedBank.searchedIndex, if_pos]
    · exact hcopy
    · exact ⟨hgpu, by rw [IndexedBank.rebuild, hcopy]; rfl⟩
  obtain rfl := Option.some.inj (hindex.symm.trans hsearched)
  exact hsearch.symm.trans hvectors

theorem Flat.toGpu (h : s.Flat) (transfer : GpuTransfer) :
    (⟨(s.bank.toGpu transfer).2, s.current⟩ : BankRun F).Flat := by
  obtain ⟨kind, hindex, hkind⟩ := h.index
  rw [IndexedBank.toGpu, hindex]
  dsimp only
  split_ifs with hresources hflat
  · exact h
  · exact h
  · cases transfer with
    | noResources what => exact h
    | noCopy what => exact ⟨⟨kind, rfl, hkind⟩, h.dim, h.numSamples, h.copy⟩
    | copied => exact ⟨⟨kind, rfl, hkind⟩, h.dim, h.numSamples, fun _ => ⟨_, rfl, rfl⟩⟩

/-- A conversion that cannot cluster the vectors leaves the bank alone. -/
theorem Flat.convertToIVF_same (h : s.Flat) {nlist : ℕ} {r : Result Unit × IndexedBank F}
    (hfew : min nlist s.current.numSamples < 2 ∨ s.current.dim = 0)
    (hr : s.bank.convertToIVF faiss nlist = some r) : r.2 = s.bank := by
  rw [IndexedBank.convertToIVF, h.extractAllVectors, Option.bind_some, h.numSamples, h.dim] at hr
  split_ifs at hr with hempty hmin
  · obtain rfl := Option.some.inj hr
    rfl
  · obtain rfl := Option.some.inj hr
    rfl
  · rw [not_or, not_or] at hempty
    exact absurd hfew (not_or.mpr ⟨hmin, hempty.2.2⟩)

/-- The vectors of an inverted index cannot be read. -/
theorem extractAllVectors_ivf {bank : IndexedBank F} {vectors : FeatureBank F} {nlist : ℕ}
    (hindex : bank.index = some ⟨vectors, .ivf nlist⟩) (hsamples : bank.numSamples ≠ 0)
    (hdim : bank.dim ≠ 0) : bank.extractAllVectors = none := by
  obtain ⟨n, hn⟩ := Nat.exists_eq_succ_of_ne_zero hsamples
  rw [IndexedBank.extractAllVectors, hindex]
  dsimp only
  rw [if_neg (not_or.mpr ⟨hsamples, hdim⟩), hn, List.range_succ_eq_map, List.mapM_cons]
  rfl

theorem Flat.extract_convertToIVF (h : s.Flat) {nlist : ℕ} {r : Result Unit × IndexedBank F}
    (hmany : ¬(min nlist s.current.numSamples < 2 ∨ s.current.dim = 0))
    (hr : s.bank.convertToIVF faiss nlist = some r) : r.2.extractAllVectors = none := by
  obtain ⟨hmin, hdim⟩ := not_or.mp hmany
  have hsamples : s.bank.numSamples ≠ 0 := by
    rw [h.numSamples]
    omega
  have hdim' : s.bank.dim ≠ 0 := by rw [h.dim]; exact hdim
  obtain ⟨kind, hindex, -⟩ := h.index
  rw [IndexedBank.convertToIVF, h.extractAllVectors, Option.bind_some] at hr
  split_ifs at hr with hempty hfew
  · rw [hindex] at hempty
    rcases hempty with hnone | hzero | hzero
    · cases hnone
    · exact absurd hzero hsamples
    · exact absurd hzero hdim'
  · rw [h.numSamples] at hfew
    exact absurd hfew hmin
  · obtain ⟨-, hr⟩ := Option.ite_none_right_eq_some.mp hr
    obtain rfl := Option.some.inj hr
    exact extractAllVectors_ivf rfl hsamples hdim'

theorem Flat.step (h : s.Flat) {call : BankCall F} (hstep : s.step faiss call = some s') :
    (s.Admits call → s'.Flat) ∧ (s'.Keeps → s.Admits call) := by
  cases call with
  | rebuild data count dim =>
    obtain ⟨hcovers, hstep⟩ := Option.dite_none_right_eq_some.mp hstep
    obtain rfl := Option.some.inj hstep
    exact ⟨fun hsame => h.rebuild hsame, fun hkeeps => h.vectors_of_rebuild hkeeps⟩
  | convertToIVF nlist =>
    obtain ⟨r, hr, rfl⟩ := Option.map_eq_some_iff.mp hstep
    refine ⟨fun hfew => ?_, fun hkeeps => ?_⟩
    · rw [h.convertToIVF_same hfew hr]
      exact h
    · by_contra hmany
      have hextract := hkeeps.extract
      rw [h.extract_convertToIVF hmany hr] at hextract
      cases hextract
  | toGpu transfer =>
    obtain rfl := Option.some.inj hstep
    exact ⟨fun _ => h.toGpu transfer, fun _ => trivial⟩

/-- A builder's bank is flat unless it clusters. -/
theorem indexed_flat {builder : BankBuilder F} {vectors : FeatureBank F} {bank : IndexedBank F}
    (hbank : builder.indexed faiss vectors = some bank) :
    (builder.Admits vectors → (⟨bank, vectors⟩ : BankRun F).Flat) ∧
      ((⟨bank, vectors⟩ : BankRun F).Keeps → builder.Admits vectors) := by
  have hflat : (⟨IndexedBank.empty.rebuild vectors, vectors⟩ : BankRun F).Flat :=
    ⟨⟨.flat, rfl, .inl rfl⟩, rfl, rfl, fun hgpu => by cases hgpu⟩
  cases builder with
  | buildWithIVF embeddings dim maxSamples nlist =>
    dsimp only [BankBuilder.indexed] at hbank
    split_ifs at hbank with hfew
    · obtain rfl := Option.some.inj hbank
      exact ⟨fun _ => hflat, fun _ => .inl hfew⟩
    · obtain rfl := Option.some.inj hbank
      refine ⟨fun h => ?_, fun hkeeps => ?_⟩
      · exact ⟨⟨_, rfl, .inr (h.resolve_left hfew)⟩, rfl, rfl, fun hgpu => by cases hgpu⟩
      · refine .inr (by_contra fun hdim => ?_)
        have hextract := hkeeps.extract
        rw [extractAllVectors_ivf rfl (by show vectors.numSamples ≠ 0; omega) hdim] at hextract
        cases hextract
  | loadFromFile path dim file readable =>
    obtain rfl := Option.some.inj hbank
    exact ⟨fun _ => hflat, fun _ => trivial⟩
  | buildFromEmbeddings embeddings dim maxSamples =>
    obtain rfl := Option.some.inj hbank
    exact ⟨fun _ => hflat, fun _ => trivial⟩
  | buildWithGreedyCoreset embeddings dim maxSamples =>
    obtain rfl := Option.some.inj hbank
    exact ⟨fun _ => hflat, fun _ => trivial⟩

/-- A bank answers from its vectors and keeps them, from the builder on and after every call, if
and only if nothing makes an inverted index and no `Rebuild` replaces vectors that the GPU has a
copy of. -/
theorem keeps_vectors_iff [Zero F] [One F] [Add F] [Sub F] [Neg F] [Mul F] [LT F] [DecidableLT F]
    [DecidableEq F] {builder : BankBuilder F} (hstart : builder.start faiss = some s)
    (calls : List (BankCall F)) :
    s.Keeps ∧ Transition.Along (step faiss) (fun _ _ s' => s'.Keeps) s calls ↔
      builder.Admits s.current ∧
        Transition.Along (step faiss) (fun s call _ => s.Admits call) s calls := by
  obtain ⟨r, -, hr⟩ := Option.bind_eq_some_iff.mp hstart
  cases r with
  | error e => cases hr
  | ok vectors =>
    obtain ⟨bank, hbank, rfl⟩ := Option.map_eq_some_iff.mp hr
    obtain ⟨hflat, hadmits⟩ := indexed_flat hbank
    have halong (h : (⟨bank, vectors⟩ : BankRun F).Flat) :
        Transition.Along (step faiss) (fun _ _ s' => s'.Keeps) ⟨bank, vectors⟩ calls ↔
          Transition.Along (step faiss) (fun s call _ => s.Admits call) ⟨bank, vectors⟩ calls :=
      Transition.along_iff (I := Flat)
        (fun _ _ _ h hstep => ⟨(h.step hstep).2, fun hcall => ((h.step hstep).1 hcall).keeps⟩)
        (fun _ _ _ h hstep hkeeps => (h.step hstep).1 ((h.step hstep).2 hkeeps)) h calls
    constructor
    · rintro ⟨hkeeps, hcalls⟩
      exact ⟨hadmits hkeeps, (halong (hflat (hadmits hkeeps))).mp hcalls⟩
    · rintro ⟨hbuilder, hcalls⟩
      exact ⟨(hflat hbuilder).keeps, (halong (hflat hbuilder)).mpr hcalls⟩

/-- Two vectors of dimension one, read from a file. -/
def twoVectors : BankBuilder ℚ := .loadFromFile "coreset.bin" 1 (some (.ofFloats [0, 1])) true

def exactFaiss : Faiss ℚ := ⟨fun _ _ => true, fun _ _ => flatL2⟩

theorem keeps_vectors_iff_twoVectors :
    ∃ s, twoVectors.start exactFaiss = some s ∧
      (s.Keeps ∧ Transition.Along (step exactFaiss) (fun _ _ s' => s'.Keeps) s
          [.toGpu .copied, .convertToIVF 1, .rebuild [0, 1] 2 1] ↔
        twoVectors.Admits s.current ∧ Transition.Along (step exactFaiss)
          (fun s call _ => s.Admits call) s
          [.toGpu .copied, .convertToIVF 1, .rebuild [0, 1] 2 1]) :=
  ⟨_, rfl, keeps_vectors_iff rfl _⟩

/-- Once converted, the bank can be read no more; once rebuilt, the GPU answers from the vectors
before. -/
theorem twoVectors_lost :
    (∃ s s', twoVectors.start exactFaiss = some s ∧
      Transition.run (step exactFaiss) s [.convertToIVF 2] = some s' ∧
      s'.bank.extractAllVectors = none ∧ ¬s'.Keeps) ∧
    ∃ s s', twoVectors.start exactFaiss = some s ∧
      Transition.run (step exactFaiss) s [.toGpu .copied, .rebuild [5] 1 1] = some s' ∧
      s'.current.vectors = [[5]] ∧
      s'.bank.searchedIndex.map (·.vectors) = some [[0], [1]] ∧ ¬s'.Keeps := by
  refine ⟨⟨_, _, rfl, rfl, rfl, fun h => ?_⟩, ⟨_, _, rfl, rfl, rfl, rfl, fun h => ?_⟩⟩
  · cases h.extract
  · obtain ⟨index, hindex, hvectors⟩ := h.search
    obtain rfl := Option.some.inj hindex
    exact absurd hvectors (by decide)

end BankRun

end SurfaceAi.Detection
