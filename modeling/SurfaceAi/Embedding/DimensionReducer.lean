import SurfaceAi.Core.Error
import SurfaceAi.Embedding.CheckedScore
import SurfaceAi.Embedding.Embedding
import SurfaceAi.Embedding.PcaOrthonormal

/-! Projecting embeddings with a fitted model, and pooling the rows of an embedding into one. The
input dimension of a reducer is what its matrix leaves for it, not the length of the mean, and the
shape an embedding claims is taken at its word: reads are checked here. -/

namespace SurfaceAi.Embeddings

inductive PoolingStrategy where
  | average | max
  deriving DecidableEq, Repr

/-- `DimensionReducer`. The matrix is `targetDim × inputDim`, row after row. -/
structure DimensionReducer (F : Type) where
  isPca : Bool
  components : List F
  targetDim : ℕ
  inputDim : ℕ
  mean : List F
  entries : targetDim * inputDim ≤ components.length

namespace DimensionReducer

section Definitions

variable {F : Type}

/-- What the constructors take for the input dimension. -/
def dimOf (length targetDim : ℕ) : ℕ := if 0 < targetDim then length / targetDim else 0

theorem mul_dimOf_le (length targetDim : ℕ) : targetDim * dimOf length targetDim ≤ length := by
  rw [dimOf]
  split_ifs
  · exact Nat.mul_div_le length targetDim
  · exact Nat.zero_le length

def ofPca (params : PcaParams F) : DimensionReducer F where
  isPca := true
  components := params.components
  targetDim := params.targetDim
  inputDim := dimOf params.components.length params.targetDim
  mean := params.mean
  entries := mul_dimOf_le _ _

def ofWhitening (params : WhiteningParams F) : DimensionReducer F where
  isPca := false
  components := params.transform
  targetDim := params.targetDim
  inputDim := dimOf params.transform.length params.targetDim
  mean := []
  entries := mul_dimOf_le _ _

variable (r : DimensionReducer F)

/-- The shape of a reduced embedding; a single vector has no grid. -/
def reducedMeta (m : EmbeddingMeta) : EmbeddingMeta :=
  if 1 < m.count then ⟨r.targetDim, m.count, m.gridH, m.gridW⟩ else ⟨r.targetDim, m.count, 0, 0⟩

section Reduce

variable [Zero F] [Add F] [Sub F] [Mul F]

/-- Entry `j` of row `i`, about the mean if there is one. -/
def entryChecked (data : List F) (i j : ℕ) : Option F := do
  let x ← data[i * r.inputDim + j]?
  if r.isPca then return x - (← r.mean[j]?) else return x

def applyReduce (data : List F) (count : ℕ) : Option (List F) :=
  Checked.fillGrid count r.targetDim 0 fun i t =>
    readSum 0 (List.range r.inputDim) fun j => do
      let x ← r.entryChecked data i j
      return (← r.components[t * r.inputDim + j]?) * x

def reduce (input : Embedding F) : Outcome (Embedding F) :=
  let m := input.embeddingMeta
  if input.onGpu then
    some (fail .embeddingDimensionMismatch "DimensionReducer::Reduce: input is on GPU")
  else if m.dim ≠ r.inputDim then
    some (fail .embeddingDimensionMismatch ("DimensionReducer::Reduce: input dim (" ++
      toString m.dim ++ ") != expected dim (" ++ toString r.inputDim ++ ")"))
  else if m.count = 0 ∨ r.targetDim = 0 then
    some (.ok (Embedding.fromCpu [] (r.reducedMeta m)))
  else
    (r.applyReduce input.data m.count).map fun data =>
      .ok (Embedding.fromCpu data (r.reducedMeta m))

/-- `ReduceBatch`: the first input that fails ends it, and what was reduced before is dropped. -/
def reduceBatch : List (Embedding F) → Outcome (List (Embedding F))
  | [] => some (.ok [])
  | input :: rest => (r.reduce input).andThen fun reduced =>
      (reduceBatch rest).andThen fun others => some (.ok (reduced :: others))

end Reduce

section Pool

/-- The entries of row `i` taken in one by one. -/
def takeRow (combine : F → F → F) (data : List F) (dim i : ℕ) (pooled : List F) : Option (List F) :=
  Checked.loop dim (fun j pooled => do
    let old ← pooled[j]?
    Checked.store pooled j (combine old (← data[i * dim + j]?))) pooled

/-- The first row, with the rows after it taken in. -/
def foldRows (combine : F → F → F) (data : List F) (dim count : ℕ) : Option (List F) := do
  let first ← Checked.slice data 0 dim
  (List.range' 1 (count - 1)).foldlM (fun pooled i => takeRow combine data dim i pooled) first

variable [One F] [Add F] [Mul F] [Div F] [NatCast F] [LT F] [DecidableLT F]

def poolRows (strategy : PoolingStrategy) (data : List F) (dim count : ℕ) : Option (List F) :=
  match strategy with
  | .average => (foldRows (· + ·) data dim count).map fun sums =>
      let inv := 1 / (count : F)
      sums.map (· * inv)
  | .max => foldRows (fun pooled val => if pooled < val then val else pooled) data dim count

/-- `Pool`. -/
def pool (strategy : PoolingStrategy) (input : Embedding F) : Outcome (Embedding F) :=
  let m := input.embeddingMeta
  if input.onGpu then
    some (fail .embeddingDimensionMismatch "DimensionReducer::Pool: input is on GPU")
  else if m.count = 0 ∨ m.dim = 0 then some (.ok (Embedding.fromCpu [] ⟨m.dim, 1, 0, 0⟩))
  else if m.count = 1 then
    (Checked.slice input.data 0 m.dim).map fun data =>
      .ok (Embedding.fromCpu data ⟨m.dim, m.count, 0, 0⟩)
  else
    (poolRows strategy input.data m.dim m.count).map fun data =>
      .ok (Embedding.fromCpu data ⟨m.dim, 1, 0, 0⟩)

end Pool

end Definitions

/-! ### Reads in range -/

section Reads

variable {F : Type} [Zero F] [Add F] [Sub F] [Mul F] {r : DimensionReducer F} {data : List F}
  {i j t : ℕ}

omit [Zero F] [Add F] [Mul F] in
theorem isSome_entryChecked : (r.entryChecked data i j).isSome ↔
    i * r.inputDim + j < data.length ∧ (r.isPca → j < r.mean.length) := by
  rw [entryChecked]
  cases hread : data[i * r.inputDim + j]? with
  | none =>
    have hge := List.getElem?_eq_none_iff.mp hread
    simp
    omega
  | some x =>
    have hlt := (List.getElem?_eq_some_iff.mp hread).1
    cases hpca : r.isPca with
    | false => simp [hlt]
    | true =>
      cases hmean : r.mean[j]? with
      | none =>
        have hge := List.getElem?_eq_none_iff.mp hmean
        simp
        omega
      | some m =>
        have hmem := (List.getElem?_eq_some_iff.mp hmean).1
        simp [hlt, hmem]

theorem isSome_applyReduce {count : ℕ} (hcount : 0 < count) (htarget : 0 < r.targetDim)
    (hinput : 0 < r.inputDim) : (r.applyReduce data count).isSome ↔
      count * r.inputDim ≤ data.length ∧ (r.isPca → r.inputDim ≤ r.mean.length) := by
  have hterm : ∀ i < count, ∀ t < r.targetDim, ∀ j < r.inputDim, ((do
      let x ← r.entryChecked data i j
      return (← r.components[t * r.inputDim + j]?) * x) : Option F).isSome ↔
        (r.entryChecked data i j).isSome := by
    intro i hi t ht j hj
    have hentry : t * r.inputDim + j < r.components.length :=
      lt_of_lt_of_le (Checked.flat_lt ht hj) r.entries
    rw [Checked.getElem?_eq_getD hentry 0]
    cases r.entryChecked data i j <;> rfl
  rw [applyReduce, Checked.isSome_fillGrid]
  constructor
  · intro hall
    have hread : ∀ i < count, ∀ j < r.inputDim, (r.entryChecked data i j).isSome := by
      intro i hi j hj
      have hsum := isSome_readSum.mp (hall i hi 0 htarget) j (List.mem_range.mpr hj)
      exact (hterm i hi 0 htarget j hj).mp hsum
    have hlast := isSome_entryChecked.mp
      (hread (count - 1) (by omega) (r.inputDim - 1) (by omega))
    constructor
    · have hmul : count * r.inputDim = (count - 1) * r.inputDim + r.inputDim := by
        conv_lhs => rw [← Nat.sub_add_cancel hcount, Nat.succ_mul]
      omega
    · intro hpca
      have hmean := hlast.2 hpca
      omega
  · intro hshape i hi t ht
    apply isSome_readSum.mpr
    intro j hj
    have hj := List.mem_range.mp hj
    apply (hterm i hi t ht j hj).mpr
    apply isSome_entryChecked.mpr
    constructor
    · exact lt_of_lt_of_le (Checked.flat_lt hi hj) hshape.1
    · intro hpca
      exact lt_of_lt_of_le hj (hshape.2 hpca)

/-- When everything `Reduce` reads is there: the rows the input claims to have, and as many entries
of the mean as the matrix makes of them. -/
def Readable (r : DimensionReducer F) (input : Embedding F) : Prop :=
  input.embeddingMeta.count * r.inputDim ≤ input.data.length ∧
    (r.isPca → r.inputDim ≤ r.mean.length)

/-- Reading out of range takes an embedding in main memory of the right dimension, something to
compute from it, and fewer rows or a shorter mean than that takes. -/
theorem isSome_reduce (r : DimensionReducer F) (input : Embedding F) :
    (r.reduce input).isSome ↔ (input.onGpu = false → input.embeddingMeta.dim = r.inputDim →
      0 < input.embeddingMeta.count → 0 < r.targetDim → 0 < r.inputDim → r.Readable input) := by
  rw [reduce]
  by_cases hgpu : input.onGpu = true
  · simp [hgpu]
  · by_cases hdim : input.embeddingMeta.dim = r.inputDim
    · by_cases hnone : input.embeddingMeta.count = 0 ∨ r.targetDim = 0
      · simp only [hgpu, hdim, hnone, if_true, if_false, ne_eq, not_true, Bool.false_eq_true,
          Option.isSome_some, true_iff]
        intro _ _ hcount htarget
        omega
      · simp only [hgpu, hdim, hnone, if_false, ne_eq, not_true, Bool.false_eq_true,
          Option.isSome_map]
        have hcount : 0 < input.embeddingMeta.count := by omega
        have htarget : 0 < r.targetDim := by omega
        rcases Nat.eq_zero_or_pos r.inputDim with hinput | hinput
        · simp [applyReduce, Checked.isSome_fillGrid, hinput, readSum]
        · rw [isSome_applyReduce hcount htarget hinput]
          simp [hcount, htarget, hinput, Readable]
    · simp [hgpu, hdim]

/-- Entry `j` of row `i`, about the mean if there is one. -/
def entry (r : DimensionReducer F) (data : List F) (i j : ℕ) : F :=
  if r.isPca then data.getD (i * r.inputDim + j) 0 - r.mean.getD j 0
  else data.getD (i * r.inputDim + j) 0

/-- Entry `t` of row `i` once reduced. -/
def reducedEntry (r : DimensionReducer F) (data : List F) (i t : ℕ) : F :=
  ((List.range r.inputDim).map fun j =>
    r.components.getD (t * r.inputDim + j) 0 * r.entry data i j).foldl (· + ·) 0

def reducedData (r : DimensionReducer F) (data : List F) (count : ℕ) : List F :=
  (List.range count).flatMap fun i => (List.range r.targetDim).map (r.reducedEntry data i)

omit [Add F] [Mul F] in
theorem entryChecked_eq (hread : i * r.inputDim + j < data.length)
    (hmean : r.isPca → j < r.mean.length) : r.entryChecked data i j = some (r.entry data i j) := by
  rw [entryChecked, entry, Checked.getElem?_eq_getD hread 0]
  cases hpca : r.isPca with
  | false => rfl
  | true =>
    rw [Checked.getElem?_eq_getD (hmean hpca) 0]
    rfl

variable {input : Embedding F}

theorem applyReduce_eq (h : r.Readable input) :
    r.applyReduce input.data input.embeddingMeta.count =
      some (r.reducedData input.data input.embeddingMeta.count) := by
  rw [applyReduce, reducedData]
  refine Checked.fillGrid_eq fun i hi t ht => readSum_eq fun j hj => ?_
  have hj := List.mem_range.mp hj
  have hread : i * r.inputDim + j < input.data.length := lt_of_lt_of_le (Checked.flat_lt hi hj) h.1
  have hentry : t * r.inputDim + j < r.components.length :=
    lt_of_lt_of_le (Checked.flat_lt ht hj) r.entries
  rw [entryChecked_eq hread fun hpca => lt_of_lt_of_le hj (h.2 hpca),
    Checked.getElem?_eq_getD hentry 0]
  rfl

@[simp] theorem length_reducedData (r : DimensionReducer F) (data : List F) (count : ℕ) :
    (r.reducedData data count).length = count * r.targetDim := by
  simp [reducedData, List.length_flatMap]

/-- The embedding with every row reduced. -/
def reduced (r : DimensionReducer F) (input : Embedding F) : Embedding F :=
  Embedding.fromCpu (r.reducedData input.data input.embeddingMeta.count)
    (r.reducedMeta input.embeddingMeta)

omit [Zero F] [Add F] [Sub F] [Mul F] in
@[simp] theorem dim_reducedMeta (r : DimensionReducer F) (m : EmbeddingMeta) :
    (r.reducedMeta m).dim = r.targetDim := by
  rw [reducedMeta]
  split_ifs <;> rfl

omit [Zero F] [Add F] [Sub F] [Mul F] in
@[simp] theorem count_reducedMeta (r : DimensionReducer F) (m : EmbeddingMeta) :
    (r.reducedMeta m).count = m.count := by
  rw [reducedMeta]
  split_ifs <;> rfl

@[simp] theorem dim_reduced (r : DimensionReducer F) (input : Embedding F) :
    (r.reduced input).embeddingMeta.dim = r.targetDim := dim_reducedMeta r _

@[simp] theorem count_reduced (r : DimensionReducer F) (input : Embedding F) :
    (r.reduced input).embeddingMeta.count = input.embeddingMeta.count := count_reducedMeta r _

/-- What `Reduce` answers with when it can read all it needs. -/
theorem reduce_eq (h : r.Readable input) (hgpu : input.onGpu = false)
    (hdim : input.embeddingMeta.dim = r.inputDim) :
    r.reduce input = some (.ok (r.reduced input)) := by
  rw [reduce, reduced]
  simp only [hgpu, hdim, Bool.false_eq_true, if_false, ne_eq, not_true]
  split_ifs with hnone
  · have hnil : r.reducedData input.data input.embeddingMeta.count = [] := by
      apply List.eq_nil_of_length_eq_zero
      rw [length_reducedData]
      rcases hnone with hcount | htarget
      · rw [hcount, Nat.zero_mul]
      · rw [htarget, Nat.mul_zero]
    rw [hnil]
  · rw [applyReduce_eq h]
    rfl

/-- Entry `t` of row `i` of what is reduced. -/
theorem getD_reducedData {count : ℕ} (hi : i < count) (ht : t < r.targetDim) :
    (r.reducedData data count).getD (i * r.targetDim + t) 0 = r.reducedEntry data i t := by
  have hlength : ∀ x ∈ List.range count,
      ((List.range r.targetDim).map (r.reducedEntry data x)).length = r.targetDim := by
    intro x _
    simp
  rw [List.getD_eq_getElem?_getD, reducedData, Rows.getElem?_flatMap hlength ht]
  simp [hi, ht]

/-- A batch is reduced when each of its embeddings is. -/
theorem reduceBatch_eq_ok {r : DimensionReducer F} {inputs outs : List (Embedding F)} :
    r.reduceBatch inputs = some (.ok outs) ↔
      List.Forall₂ (fun input out => r.reduce input = some (.ok out)) inputs outs := by
  induction inputs generalizing outs with
  | nil => simp [reduceBatch, eq_comm]
  | cons input rest ih =>
    rw [reduceBatch, List.forall₂_cons_left_iff]
    constructor
    · intro h
      rcases hfirst : r.reduce input with _ | _ | first
      · simp [hfirst, Outcome.andThen] at h
      · simp [hfirst, Outcome.andThen] at h
      · rcases hrest : r.reduceBatch rest with _ | _ | others
        · simp [hfirst, hrest, Outcome.andThen] at h
        · simp [hfirst, hrest, Outcome.andThen] at h
        · refine ⟨first, others, rfl, ih.mp hrest, ?_⟩
          simpa [hfirst, hrest, eq_comm] using h
    · rintro ⟨first, others, hfirst, hrest, rfl⟩
      rw [hfirst, Outcome.andThen_ok, ih.mpr hrest, Outcome.andThen_ok]

end Reads

section Rows

variable {F : Type} [Zero F] {data : List F} {dim count : ℕ}

theorem takeRow_eq (combine : F → F → F) (hdata : count * dim ≤ data.length) {i : ℕ}
    (hi : i < count) (value : ℕ → F) :
    takeRow combine data dim i ((List.range dim).map value) =
      some ((List.range dim).map fun j => combine (value j) (data.getD (i * dim + j) 0)) := by
  have hread : ∀ j a, ((List.range dim).map value)[j]? = some a →
      (data[i * dim + j]?).map (combine a) = some (combine a (data.getD (i * dim + j) 0)) := by
    intro j a ha
    have hj : j < dim := by
      have hmem := (List.getElem?_eq_some_iff.mp ha).1
      simpa using hmem
    rw [Checked.getElem?_eq_getD (lt_of_lt_of_le (Checked.flat_lt hi hj) hdata) 0]
    rfl
  have hloop := Checked.loop_mapIdx hread
  rw [List.length_map, List.length_range] at hloop
  have hbody : (fun (j : ℕ) (pooled : List F) => (do
      let old ← pooled[j]?
      Checked.store pooled j (combine old (← data[i * dim + j]?)) : Option (List F))) =
      (fun (j : ℕ) (pooled : List F) => (do
        Checked.store pooled j (← (data[i * dim + j]?).map (combine (← pooled[j]?))) :
          Option (List F))) := by
    funext j pooled
    cases pooled[j]? with
    | none => rfl
    | some old => cases data[i * dim + j]? <;> rfl
  rw [takeRow, hbody, hloop]
  apply congrArg some
  apply List.ext_getElem (by simp)
  intro j hj hj'
  simp

/-- The rows taken in, entry by entry. -/
theorem foldlM_takeRow (combine : F → F → F) (hdata : count * dim ≤ data.length) {rows : List ℕ}
    (hrows : ∀ i ∈ rows, i < count) (value : ℕ → F) :
    rows.foldlM (fun pooled i => takeRow combine data dim i pooled) ((List.range dim).map value) =
      some ((List.range dim).map fun j =>
        rows.foldl (fun acc i => combine acc (data.getD (i * dim + j) 0)) (value j)) := by
  induction rows generalizing value with
  | nil => rfl
  | cons i rows ih =>
    rw [List.foldlM_cons, takeRow_eq combine hdata (hrows i List.mem_cons_self) value]
    exact ih (fun k hk => hrows k (List.mem_cons_of_mem i hk)) _

theorem slice_eq_map_range (hdim : dim ≤ data.length) :
    Checked.slice data 0 dim = some ((List.range dim).map fun j => data.getD j 0) := by
  rw [Checked.slice, if_pos (by omega), List.drop_zero]
  have htake : (data.take dim).length = dim := by simpa using hdim
  refine congrArg some (FlatMatrix.eq_of_vecOf_eq htake (by simp) ?_)
  funext j
  rw [FlatMatrix.vecOf_map_range, FlatMatrix.vecOf, List.getD_eq_getElem?_getD,
    List.getElem?_take_of_lt j.isLt]
  exact (List.getD_eq_getElem?_getD ..).symm

theorem foldRows_eq (combine : F → F → F) (hcount : 0 < count) (hdata : count * dim ≤ data.length) :
    foldRows combine data dim count = some ((List.range dim).map fun j =>
      (List.range' 1 (count - 1)).foldl (fun acc i => combine acc (data.getD (i * dim + j) 0))
        (data.getD j 0)) := by
  have hone : 1 * dim ≤ count * dim := Nat.mul_le_mul_right dim hcount
  rw [foldRows, slice_eq_map_range (by omega)]
  apply foldlM_takeRow combine hdata
  intro i hi
  rw [List.mem_range'_1] at hi
  omega

end Rows

section Average

variable {F : Type} [Field F] {data : List F} {dim count : ℕ}

/-- The mean of entry `j` over the rows. -/
def meanEntry (data : List F) (dim count j : ℕ) : F :=
  (∑ i ∈ Finset.range count, data.getD (i * dim + j) 0) * (1 / (count : F))

theorem foldl_add_eq_sum (f : ℕ → F) (hcount : 0 < count) :
    (List.range' 1 (count - 1)).foldl (fun acc i => acc + f i) (f 0) =
      ∑ i ∈ Finset.range count, f i := by
  obtain ⟨n, rfl⟩ : ∃ n, count = n + 1 := ⟨count - 1, by omega⟩
  rw [Nat.add_sub_cancel]
  induction n with
  | zero => simp
  | succ n ih =>
    rw [List.range'_concat, List.foldl_append, ih (Nat.succ_pos n), Finset.sum_range_succ _ (n + 1)]
    simp [Nat.add_comm]

variable [LT F] [DecidableLT F]

theorem poolRows_average (hcount : 0 < count) (hdata : count * dim ≤ data.length) :
    poolRows .average data dim count = some ((List.range dim).map (meanEntry data dim count)) := by
  rw [poolRows, foldRows_eq _ hcount hdata, Option.map_some, List.map_map]
  refine congrArg some (List.map_congr_left fun j _ => ?_)
  have hsum := foldl_add_eq_sum (fun i => data.getD (i * dim + j) 0) hcount
  rw [Nat.zero_mul, Nat.zero_add] at hsum
  rw [Function.comp_apply, hsum, meanEntry]

/-- The embedding of one row, the mean of the rows. -/
def averaged (input : Embedding F) : Embedding F :=
  Embedding.fromCpu ((List.range input.embeddingMeta.dim).map
      (meanEntry input.data input.embeddingMeta.dim input.embeddingMeta.count))
    ⟨input.embeddingMeta.dim, 1, 0, 0⟩

/-- Average pooling of an embedding whose rows are all there. -/
theorem pool_average {input : Embedding F} (hgpu : input.onGpu = false)
    (hcount : 0 < input.embeddingMeta.count)
    (hdata : input.embeddingMeta.count * input.embeddingMeta.dim ≤ input.data.length) :
    pool .average input = some (.ok (averaged input)) := by
  rw [pool, averaged]
  simp only [hgpu, Bool.false_eq_true, if_false]
  split_ifs with hnone hone
  · have hdim : input.embeddingMeta.dim = 0 := by omega
    simp [hdim]
  · rw [hone, Nat.one_mul] at hdata
    have hentry : ∀ j ∈ List.range input.embeddingMeta.dim, input.data.getD j 0 =
        meanEntry input.data input.embeddingMeta.dim 1 j := by
      intro j _
      simp [meanEntry]
    rw [slice_eq_map_range hdata, Option.map_some, hone, List.map_congr_left hentry]
  · rw [poolRows_average hcount hdata]
    rfl

omit [LT F] [DecidableLT F]

/-! ### Pooling and reducing -/

variable {r : DimensionReducer F} {t : ℕ}

theorem reducedEntry_eq_sum (r : DimensionReducer F) (data : List F) (i t : ℕ) :
    r.reducedEntry data i t = ∑ j ∈ Finset.range r.inputDim,
      r.components.getD (t * r.inputDim + j) 0 * r.entry data i j := by
  rw [reducedEntry, ← List.sum_eq_foldl, FlatMatrix.sum_map_range,
    Fin.sum_univ_eq_sum_range fun j => r.components.getD (t * r.inputDim + j) 0 * r.entry data i j]

/-- The mean of an entry about a constant. -/
theorem meanEntry_entry [CharZero F] (hcount : 0 < count) {j : ℕ} (hj : j < r.inputDim) :
    (∑ i ∈ Finset.range count, r.entry data i j) * (1 / (count : F)) =
      r.entry ((List.range r.inputDim).map (meanEntry data r.inputDim count)) 0 j := by
  have hne : (count : F) ≠ 0 := Nat.cast_ne_zero.mpr (Nat.ne_of_gt hcount)
  have hread : ((List.range r.inputDim).map (meanEntry data r.inputDim count)).getD
      (0 * r.inputDim + j) 0 = meanEntry data r.inputDim count j := by
    rw [Nat.zero_mul, Nat.zero_add]
    exact FlatMatrix.getD_map_range hj _
  rw [entry, hread]
  cases hpca : r.isPca with
  | false => simp [entry, hpca, meanEntry]
  | true =>
    simp only [entry, hpca, if_true, meanEntry, Finset.sum_sub_distrib, Finset.sum_const,
      Finset.card_range, nsmul_eq_mul]
    rw [sub_mul, mul_one_div, mul_one_div, mul_div_cancel_left₀ _ hne]

theorem meanEntry_reducedData [CharZero F] (hcount : 0 < count) (ht : t < r.targetDim) :
    meanEntry (r.reducedData data count) r.targetDim count t =
      r.reducedEntry ((List.range r.inputDim).map (meanEntry data r.inputDim count)) 0 t := by
  have hread : ∀ i ∈ Finset.range count, (r.reducedData data count).getD (i * r.targetDim + t) 0 =
      ∑ j ∈ Finset.range r.inputDim,
        r.components.getD (t * r.inputDim + j) 0 * r.entry data i j := by
    intro i hi
    rw [getD_reducedData (Finset.mem_range.mp hi) ht, reducedEntry_eq_sum]
  rw [meanEntry, Finset.sum_congr rfl hread, Finset.sum_comm, Finset.sum_mul, reducedEntry_eq_sum]
  refine Finset.sum_congr rfl fun j hj => ?_
  rw [← Finset.mul_sum, mul_assoc, meanEntry_entry hcount (Finset.mem_range.mp hj)]

theorem averaged_reduced [CharZero F] {input : Embedding F}
    (hdim : input.embeddingMeta.dim = r.inputDim) (hcount : 0 < input.embeddingMeta.count) :
    averaged (r.reduced input) = r.reduced (averaged input) := by
  have hentry : ∀ t ∈ List.range r.targetDim,
      meanEntry (r.reduced input).data r.targetDim input.embeddingMeta.count t =
        r.reducedEntry (averaged input).data 0 t := by
    intro t ht
    rw [averaged, hdim]
    exact meanEntry_reducedData hcount (List.mem_range.mp ht)
  have hrow : r.reducedData (averaged input).data 1 =
      (List.range r.targetDim).map (r.reducedEntry (averaged input).data 0) := by
    rw [reducedData, List.range_one, List.flatMap_singleton]
  have hcountOne : (averaged input).embeddingMeta.count = 1 := rfl
  rw [averaged, dim_reduced, count_reduced, List.map_congr_left hentry, ← hrow, reduced, hcountOne]
  rfl

/-- Reducing every row and then averaging is averaging and then reducing the one row, whichever
model the reducer was made from. An embedding with no rows is left out: pooling it leaves one row
that has no data. -/
theorem reduce_pool_comm [CharZero F] [LT F] [DecidableLT F] (r : DimensionReducer F)
    (input : Embedding F) (hgpu : input.onGpu = false)
    (hdim : input.embeddingMeta.dim = r.inputDim) (hcount : 0 < input.embeddingMeta.count)
    (h : r.Readable input) :
    ∃ out, (r.reduce input).andThen (pool .average) = some (.ok out) ∧
      (pool .average input).andThen r.reduce = some (.ok out) := by
  have hdata : input.embeddingMeta.count * input.embeddingMeta.dim ≤ input.data.length := by
    rw [hdim]
    exact h.1
  have hpooled : r.Readable (averaged input) := by
    constructor
    · simp [averaged, Embedding.fromCpu, hdim]
    · exact h.2
  have hlength : (r.reduced input).data.length = input.embeddingMeta.count * r.targetDim :=
    length_reducedData r _ _
  refine ⟨averaged (r.reduced input), ?_, ?_⟩
  · rw [reduce_eq h hgpu hdim, Outcome.andThen_ok]
    apply pool_average rfl
    · rwa [count_reduced]
    · rw [count_reduced, dim_reduced, hlength]
  · rw [pool_average hgpu hcount hdata, Outcome.andThen_ok, reduce_eq hpooled rfl hdim,
      averaged_reduced hdim hcount]

/-- Two rows of a plane, projected to a line. -/
theorem reduce_pool_comm_plane :
    ∃ out, ((ofPca ⟨[1, 1], 1, [0, 1], [1]⟩ : DimensionReducer ℚ).reduce
        (Embedding.fromCpu [1, 0, 1, 1] ⟨2, 2, 1, 2⟩)).andThen (pool .average) = some (.ok out) ∧
      (pool .average (Embedding.fromCpu [1, 0, 1, 1] ⟨2, 2, 1, 2⟩)).andThen
        (ofPca ⟨[1, 1], 1, [0, 1], [1]⟩).reduce = some (.ok out) :=
  reduce_pool_comm _ _ rfl rfl (by decide) ⟨by decide, fun _ => by decide⟩

end Average

/-! ### What a reduction keeps -/

section Orthonormal

open Deflation FlatMatrix Matrix

/-- An embedding that is reduced to something has been read in full. -/
theorem readable_of_reduce {F : Type} [Zero F] [Add F] [Sub F] [Mul F] {r : DimensionReducer F}
    {input out : Embedding F} (h : r.reduce input = some (.ok out))
    (hcount : 0 < input.embeddingMeta.count) (htarget : 0 < r.targetDim) :
    r.Readable input ∧ input.embeddingMeta.dim = r.inputDim ∧ out = r.reduced input := by
  have hsome : (r.reduce input).isSome := by
    rw [h]
    rfl
  have hgpu : input.onGpu = false := by
    by_contra hgpu
    rw [reduce, if_pos (by simpa using hgpu)] at h
    simp [fail] at h
  have hdim : input.embeddingMeta.dim = r.inputDim := by
    by_contra hdim
    simp [reduce, hgpu, hdim, fail] at h
  have hread : r.Readable input := by
    rcases Nat.eq_zero_or_pos r.inputDim with hinput | hinput
    · constructor <;> simp [hinput]
    · exact (isSome_reduce r input).mp hsome hgpu hdim hcount htarget hinput
  rw [reduce_eq hread hgpu hdim] at h
  exact ⟨hread, hdim, by simpa using h.symm⟩

variable {params : PcaParams ℝ} {data : List ℝ} {i k t : ℕ}

theorem inputDim_ofPca (h : params.Orthonormal) (htarget : 0 < params.targetDim)
    (hmean : (ofPca params).inputDim ≤ params.mean.length) :
    (ofPca params).inputDim = params.inputDim := by
  refine le_antisymm hmean ?_
  change params.mean.length ≤ dimOf params.components.length params.targetDim
  have hlast := h.length_component (params.targetDim - 1) (by omega)
  rw [PcaParams.component, Rows.row, List.length_take, List.length_drop] at hlast
  have hdim : params.inputDim = params.mean.length := rfl
  have hmul : params.targetDim * params.mean.length =
      (params.targetDim - 1) * params.mean.length + params.mean.length := by
    rw [← Nat.succ_mul, Nat.succ_eq_add_one, Nat.sub_add_cancel htarget]
  rw [dimOf, if_pos htarget, Nat.le_div_iff_mul_le htarget, Nat.mul_comm, hmul]
  rw [hdim] at hlast
  rcases Nat.eq_zero_or_pos params.mean.length with hzero | hpos
  · simp [hzero]
  · omega

/-- The row, as a vector about the mean. -/
theorem centred_row (params : PcaParams ℝ) (data : List ℝ) (i : ℕ) (j : Fin params.inputDim) :
    params.centred (Rows.row params.inputDim i data) j =
      data.getD (i * params.inputDim + j) 0 - params.mean.getD j 0 := by
  rw [PcaParams.centred, Pi.sub_apply, vecOf, vecOf, getD_row data j.isLt]

theorem reducedEntry_eq_dotProduct (hinput : (ofPca params).inputDim = params.inputDim) :
    (ofPca params).reducedEntry data i t =
      params.centred (Rows.row params.inputDim i data) ⬝ᵥ params.direction t := by
  rw [reducedEntry_eq_sum, hinput, ← Fin.sum_univ_eq_sum_range (fun j =>
    (ofPca params).components.getD (t * params.inputDim + j) 0 * (ofPca params).entry data i j),
    dotProduct]
  refine Finset.sum_congr rfl fun j _ => ?_
  rw [centred_row, PcaParams.direction, vecOf, PcaParams.component, getD_row _ j.isLt, mul_comm,
    entry, hinput]
  rfl

/-- A row of what is reduced. -/
theorem patch_reduced {F : Type} [Zero F] [Add F] [Sub F] [Mul F] (r : DimensionReducer F)
    (input : Embedding F) (hi : i < input.embeddingMeta.count) :
    (r.reduced input).patch i = (List.range r.targetDim).map (r.reducedEntry input.data i) := by
  have hrow : (i + 1) * r.targetDim ≤
      (r.reducedData input.data input.embeddingMeta.count).length := by
    rw [length_reducedData]
    exact Nat.mul_le_mul_right _ hi
  have hpatch : (r.reduced input).patch i =
      Rows.row r.targetDim i (r.reducedData input.data input.embeddingMeta.count) := by
    rw [Embedding.patch, dim_reduced, Rows.row]
    rfl
  rw [hpatch]
  refine eq_of_vecOf_eq (Rows.length_row hrow) (by simp) ?_
  funext t
  rw [vecOf, getD_row _ t.isLt, getD_reducedData hi t.isLt, vecOf_map_range]

/-- The coordinates of a vector are no longer than the vector. -/
theorem sum_sq_le (h : params.Orthonormal) (y : Fin params.inputDim → ℝ) :
    ∑ t ∈ Finset.range params.targetDim,
      (y ⬝ᵥ params.direction t) * (y ⬝ᵥ params.direction t) ≤ y ⬝ᵥ y := by
  have hkept : params.kept 0 = Finset.range params.targetDim := by
    ext t
    simp [PcaParams.kept]
  have horthonormal : ∀ s ∈ params.kept 0, ∀ t ∈ params.kept 0,
      params.direction s ⬝ᵥ params.direction t = if s = t then 1 else 0 := h.direction
  have hresidual := residual_sq horthonormal y
  have hnonneg := dotProduct_self_nonneg (residual (params.kept 0) params.direction y)
  rw [hkept] at hresidual hnonneg
  linarith

theorem dot_map_range (n : ℕ) (f : ℕ → ℝ) :
    dot ((List.range n).map f) ((List.range n).map f) = ∑ t ∈ Finset.range n, f t * f t := by
  have hlength : ((List.range n).map f).length = n := by simp
  rw [dot_eq hlength hlength, vecOf_map_range, dotProduct,
    Fin.sum_univ_eq_sum_range fun t => f t * f t]

/-- The difference of two rows, entry by entry. -/
def difference (x y : List ℝ) : List ℝ := List.zipWith (· - ·) x y

theorem dot_difference {n : ℕ} {x y : List ℝ} (hx : x.length = n) (hy : y.length = n) :
    dot (difference x y) (difference x y) =
      (vecOf n x - vecOf n y) ⬝ᵥ (vecOf n x - vecOf n y) := by
  have hlength : (difference x y).length = n := by
    rw [difference, List.length_zipWith, hx, hy, Nat.min_self]
  rw [dot_eq hlength hlength, difference, PcaParams.vecOf_sub hx hy]

section Row

variable {x y : List ℝ} (h : params.Orthonormal) (hx : x.length = params.inputDim)

include h hx

/-- The coordinates of a row are no longer than the row about the mean. -/
theorem dot_coordinates_le :
    dot ((List.range params.targetDim).map (params.coordinate x))
        ((List.range params.targetDim).map (params.coordinate x)) ≤
      dot (difference x params.mean) (difference x params.mean) := by
  have hcoordinate : ∀ t ∈ Finset.range params.targetDim,
      params.coordinate x t * params.coordinate x t =
        (params.centred x ⬝ᵥ params.direction t) * (params.centred x ⬝ᵥ params.direction t) := by
    intro t ht
    rw [h.coordinate hx (Finset.mem_range.mp ht)]
  rw [dot_map_range, Finset.sum_congr rfl hcoordinate, dot_difference hx rfl]
  exact sum_sq_le h (params.centred x)

/-- What a row loses is what the reconstruction scores. -/
theorem dot_coordinates_add_score (htarget : 0 < params.targetDim) :
    dot ((List.range params.targetDim).map (params.coordinate x))
        ((List.range params.targetDim).map (params.coordinate x)) +
        params.rowScore .reconstruction 0 x =
      dot (difference x params.mean) (difference x params.mean) := by
  have hle := dot_coordinates_le h hx
  rw [PcaParams.rowScore, if_neg (Nat.not_le.mpr htarget)]
  change _ + stdMax 0 (dot (difference x params.mean) (difference x params.mean) -
    dot ((List.range params.targetDim).map (params.coordinate x))
      ((List.range params.targetDim).map (params.coordinate x))) = _
  rw [stdMax_eq_max, max_eq_right (by linarith)]
  ring

/-- Two rows are at least as far apart as their coordinates. -/
theorem dot_difference_coordinates_le (hy : y.length = params.inputDim) :
    dot (difference ((List.range params.targetDim).map (params.coordinate x))
          ((List.range params.targetDim).map (params.coordinate y)))
        (difference ((List.range params.targetDim).map (params.coordinate x))
          ((List.range params.targetDim).map (params.coordinate y))) ≤
      dot (difference x y) (difference x y) := by
  have hdifference : difference ((List.range params.targetDim).map (params.coordinate x))
      ((List.range params.targetDim).map (params.coordinate y)) =
      (List.range params.targetDim).map fun t => params.coordinate x t - params.coordinate y t := by
    rw [difference, List.zipWith_map, List.zipWith_self]
  have hcoordinate : ∀ t ∈ Finset.range params.targetDim,
      (params.coordinate x t - params.coordinate y t) *
        (params.coordinate x t - params.coordinate y t) =
      ((vecOf params.inputDim x - vecOf params.inputDim y) ⬝ᵥ params.direction t) *
        ((vecOf params.inputDim x - vecOf params.inputDim y) ⬝ᵥ params.direction t) := by
    intro t ht
    have ht := Finset.mem_range.mp ht
    rw [h.coordinate hx ht, h.coordinate hy ht, ← sub_dotProduct, PcaParams.centred,
      PcaParams.centred, sub_sub_sub_cancel_right]
  rw [hdifference, dot_map_range, Finset.sum_congr rfl hcoordinate, dot_difference hx hy]
  exact sum_sq_le h _

end Row

/-- For orthonormal components a reduced row has the coordinates that scoring works with, the
squared length it has lost is the reconstruction score, and no two rows are further apart than
before. -/
theorem reduce_keeps (params : PcaParams ℝ) (h : params.Orthonormal)
    (htarget : 0 < params.targetDim) (input out : Embedding ℝ)
    (hrun : (ofPca params).reduce input = some (.ok out)) (i k : ℕ)
    (hi : i < input.embeddingMeta.count) (hk : k < input.embeddingMeta.count) :
    out.patch i = (List.range params.targetDim).map (params.coordinate (input.patch i)) ∧
    dot (out.patch i) (out.patch i) + params.rowScore .reconstruction 0 (input.patch i) =
      dot (difference (input.patch i) params.mean) (difference (input.patch i) params.mean) ∧
    dot (difference (out.patch i) (out.patch k)) (difference (out.patch i) (out.patch k)) ≤
      dot (difference (input.patch i) (input.patch k))
        (difference (input.patch i) (input.patch k)) := by
  obtain ⟨hread, hdim, rfl⟩ := readable_of_reduce hrun (by omega) htarget
  have hinput := inputDim_ofPca h htarget (hread.2 rfl)
  have hpatch : ∀ i < input.embeddingMeta.count,
      (input.patch i).length = params.inputDim ∧ ((ofPca params).reduced input).patch i =
        (List.range params.targetDim).map (params.coordinate (input.patch i)) := by
    intro i hi
    have hrow : input.patch i = Rows.row params.inputDim i input.data := by
      rw [Embedding.patch, hdim, hinput, Rows.row]
    have hlength : (Rows.row params.inputDim i input.data).length = params.inputDim := by
      apply Rows.length_row
      rw [← hinput]
      exact le_trans (Nat.mul_le_mul_right _ hi) hread.1
    rw [hrow]
    refine ⟨hlength, ?_⟩
    rw [patch_reduced _ _ hi]
    refine List.map_congr_left fun t ht => ?_
    rw [reducedEntry_eq_dotProduct hinput, h.coordinate hlength (List.mem_range.mp ht)]
  rw [(hpatch i hi).2, (hpatch k hk).2]
  exact ⟨rfl, dot_coordinates_add_score h (hpatch i hi).1 htarget,
    dot_difference_coordinates_le h (hpatch i hi).1 (hpatch k hk).1⟩

/-- The first axis of the plane. -/
def firstAxis : PcaParams ℝ := ⟨[1, 0], 1, [0, 0], [1]⟩

def planeRows : Embedding ℝ := Embedding.fromCpu [1, 0, 0, 1] ⟨2, 2, 1, 2⟩

theorem orthonormal_firstAxis : firstAxis.Orthonormal where
  length_component t ht := by
    have hzero : t = 0 := Nat.lt_one_iff.mp ht
    subst hzero
    rfl
  dot_component s hs t ht := by
    have hs : s = 0 := Nat.lt_one_iff.mp hs
    have ht : t = 0 := Nat.lt_one_iff.mp ht
    subst hs ht
    norm_num [firstAxis, PcaParams.component, PcaParams.inputDim, Rows.row, dot, accumulate]

theorem reduce_firstAxis : (ofPca firstAxis).reduce planeRows =
    some (.ok ((ofPca firstAxis).reduced planeRows)) :=
  reduce_eq ⟨Nat.le_refl 4, fun _ => Nat.le_refl 2⟩ rfl rfl

theorem reduce_keeps_firstAxis :
    dot (difference (((ofPca firstAxis).reduced planeRows).patch 0)
          (((ofPca firstAxis).reduced planeRows).patch 1))
        (difference (((ofPca firstAxis).reduced planeRows).patch 0)
          (((ofPca firstAxis).reduced planeRows).patch 1)) ≤
      dot (difference (planeRows.patch 0) (planeRows.patch 1))
        (difference (planeRows.patch 0) (planeRows.patch 1)) :=
  (reduce_keeps firstAxis orthonormal_firstAxis Nat.one_pos planeRows _ reduce_firstAxis 0 1
    Nat.two_pos Nat.one_lt_two).2.2

end Orthonormal

end DimensionReducer

end SurfaceAi.Embeddings
