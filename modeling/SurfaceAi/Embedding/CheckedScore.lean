import SurfaceAi.Embedding.PcaScoring
import SurfaceAi.Library.Checked
import SurfaceAi.Library.FlatMatrix
import SurfaceAi.Library.Returns

/-! Scoring against a PCA model with every subscript checked. The dimension is that of the model,
so what is scored has to have rows at least that long, and the components have to be all there. -/

namespace SurfaceAi.Embeddings

section Definitions

variable {F : Type*} [Zero F] [One F] [Add F] [Sub F] [Mul F] [Div F] [Neg F] [NatCast F]
  [LT F] [DecidableLT F] [FloatMath F]

/-- A sum of terms that are read. -/
def readSum (start : F) (indices : List ℕ) (term : ℕ → Option F) : Option F :=
  indices.foldlM (fun acc j => (term j).map (acc + ·)) start

namespace PcaParams

variable (params : PcaParams F) (data : List F)

def centredChecked (i j : ℕ) : Option F := do
  return (← data[i * params.inputDim + j]?) - (← params.mean[j]?)

def coordinateChecked (i t : ℕ) : Option F :=
  readSum 0 (List.range params.inputDim) fun j => do
    return (← params.centredChecked data i j) * (← params.components[t * params.inputDim + j]?)

def reconstructEntryChecked (dropK i j : ℕ) : Option F := do
  let sum ← readSum 0 (List.range params.targetDim) fun t => do
    let z ← if dropK ≤ t then params.coordinateChecked data i t else some 0
    return z * (← params.components[t * params.inputDim + j]?)
  return sum + (← params.mean[j]?)

def reconstructionScoreChecked (dropK i : ℕ) : Option F := do
  let x0 ← readSum 0 (List.range params.inputDim) fun j => do
    let x ← params.centredChecked data i j
    return x * x
  let z ← readSum 0 ((List.range params.targetDim).drop dropK) fun t => do
    let z ← params.coordinateChecked data i t
    return z * z
  return stdMax 0 (x0 - z)

def mahalanobisScoreChecked (dropK i : ℕ) : Option F :=
  readSum 0 ((List.range params.targetDim).drop dropK) fun t => do
    let z ← params.coordinateChecked data i t
    return z * z * (1 / ((← params.eigvals[t]?) + 1 / (1000000 : ℕ)))

def euclideanScoreChecked (dropK i : ℕ) : Option F :=
  readSum 0 ((List.range params.targetDim).drop dropK) fun t => do
    let z ← params.coordinateChecked data i t
    return z * z

def cosineScoreChecked (dropK i : ℕ) : Option F := do
  let xr ← (List.range params.inputDim).mapM (params.reconstructEntryChecked data dropK i)
  let eps : F := 1 / (100000000 : ℕ)
  let xNorm ← readSum eps (List.range params.inputDim) fun j => do
    let x ← data[i * params.inputDim + j]?
    return x * x
  let xrNorm ← readSum eps (List.range params.inputDim) fun j => do
    let x ← xr[j]?
    return x * x
  let inner ← readSum 0 (List.range params.inputDim) fun j => do
    return (← data[i * params.inputDim + j]?) * (← xr[j]?)
  let sim := inner / (FloatMath.sqrt xNorm * FloatMath.sqrt xrNorm)
  return 1 - stdMax (-1) (stdMin 1 sim)

def rowScoreChecked (method : PcaScoreMethod) (dropK i : ℕ) : Option F :=
  match method with
  | .reconstruction => params.reconstructionScoreChecked data dropK i
  | .mahalanobis => params.mahalanobisScoreChecked data dropK i
  | .euclidean => params.euclideanScoreChecked data dropK i
  | .cosine => params.cosineScoreChecked data dropK i

/-- `DimensionReducer::Score` on `n` rows, with checked reads. -/
def scoreChecked (n : ℕ) (method : PcaScoreMethod) (dropK : ℕ) : Option (List F) :=
  if params.targetDim ≤ dropK then some (List.replicate n 0)
  else (List.range n).mapM (params.rowScoreChecked data method dropK)

end PcaParams

end Definitions

/-! ### Sums of reads -/

section Sums

variable {F : Type*} [Add F] {start : F} {indices : List ℕ} {term : ℕ → Option F}

theorem isSome_readSum : (readSum start indices term).isSome ↔ ∀ j ∈ indices, (term j).isSome :=
  Returns.isSome_foldlM (fun _ _ => by rw [Option.isSome_map]) indices start

theorem readSum_eq {value : ℕ → F} (h : ∀ j ∈ indices, term j = some (value j)) :
    readSum start indices term = some ((indices.map value).foldl (· + ·) start) := by
  rw [List.foldl_map]
  refine Returns.foldlM_eq_foldl (fun j hj acc => ?_) start
  rw [h j hj, Option.map_some]

/-- The inner product of two rows. -/
theorem dot_rows [Zero F] [Mul F] {n t i : ℕ} {a b : List F} (ha : (t + 1) * n ≤ a.length)
    (hb : (i + 1) * n ≤ b.length) :
    dot (Rows.row n t a) (Rows.row n i b) = ((List.range n).map fun j =>
      a.getD (t * n + j) 0 * b.getD (i * n + j) 0).foldl (· + ·) 0 := by
  rw [dot, accumulate, FlatMatrix.zipWith_eq_map_range _ (Rows.length_row ha) (Rows.length_row hb)]
  refine congrArg (fun l : List F => l.foldl (· + ·) 0) (List.map_congr_left fun j hj => ?_)
  have hj := List.mem_range.mp hj
  rw [FlatMatrix.getD_row a hj, FlatMatrix.getD_row b hj]

end Sums

namespace PcaParams

section Values

variable {F : Type*} [Zero F] [Add F] [Sub F] [Mul F] {params : PcaParams F} {data : List F}
  {dropK i t : ℕ}

omit [Add F] [Mul F] in
theorem centredChecked_eq (hrow : (i + 1) * params.inputDim ≤ data.length) {j : ℕ}
    (hj : j < params.inputDim) :
    params.centredChecked data i j =
      some (data.getD (i * params.inputDim + j) 0 - params.mean.getD j 0) := by
  have hread : i * params.inputDim + j < data.length :=
    lt_of_lt_of_le (Checked.flat_lt (Nat.lt_succ_self i) hj) hrow
  rw [centredChecked, Checked.getElem?_eq_getD hread 0, Checked.getElem?_eq_getD hj 0]
  rfl

theorem coordinateChecked_eq (hrow : (i + 1) * params.inputDim ≤ data.length)
    (hcomponent : (t + 1) * params.inputDim ≤ params.components.length) :
    params.coordinateChecked data i t =
      some (params.coordinate (Rows.row params.inputDim i data) t) := by
  have hread : ∀ j ∈ List.range params.inputDim, (do
      return (← params.centredChecked data i j) * (← params.components[t * params.inputDim + j]?)) =
        some ((data.getD (i * params.inputDim + j) 0 - params.mean.getD j 0) *
          params.components.getD (t * params.inputDim + j) 0) := by
    intro j hj
    have hj := List.mem_range.mp hj
    have hentry : t * params.inputDim + j < params.components.length :=
      lt_of_lt_of_le (Checked.flat_lt (Nat.lt_succ_self t) hj) hcomponent
    rw [centredChecked_eq hrow hj, Checked.getElem?_eq_getD hentry 0]
    rfl
  have hcentred : (List.zipWith (· - ·) (Rows.row params.inputDim i data) params.mean).length =
      params.inputDim := by
    rw [List.length_zipWith, Rows.length_row hrow, inputDim, Nat.min_self]
  rw [coordinateChecked, readSum_eq hread, coordinate, dot, accumulate, component,
    FlatMatrix.zipWith_eq_map_range _ hcentred (Rows.length_row hcomponent)]
  refine congrArg (fun l : List F => some (l.foldl (· + ·) 0)) (List.map_congr_left fun j hj => ?_)
  have hj := List.mem_range.mp hj
  rw [FlatMatrix.zipWith_eq_map_range _ (Rows.length_row hrow) rfl, FlatMatrix.getD_map_range hj,
    FlatMatrix.getD_row data hj, FlatMatrix.getD_row _ hj]

omit [Sub F] in
theorem dot_self (x : List F) : dot x x = (x.map fun a => a * a).foldl (· + ·) 0 := by
  rw [dot, accumulate, List.zipWith_self]

/-- The components that scoring goes through are all there. -/
theorem keptCoordinate_eq (hrow : (i + 1) * params.inputDim ≤ data.length)
    (hcomponents : params.targetDim * params.inputDim ≤ params.components.length) {t : ℕ}
    (ht : t < params.targetDim) :
    params.coordinateChecked data i t =
      some (params.coordinate (Rows.row params.inputDim i data) t) :=
  coordinateChecked_eq hrow (le_trans (Nat.mul_le_mul_right _ ht) hcomponents)

omit [Zero F] [Add F] [Sub F] [Mul F] in
theorem mem_kept {dropK : ℕ} (ht : t ∈ (List.range params.targetDim).drop dropK) :
    t < params.targetDim := List.mem_range.mp (List.mem_of_mem_drop ht)

theorem euclideanScoreChecked_eq (hrow : (i + 1) * params.inputDim ≤ data.length)
    (hcomponents : params.targetDim * params.inputDim ≤ params.components.length) :
    params.euclideanScoreChecked data dropK i =
      some (params.euclideanScore dropK (Rows.row params.inputDim i data)) := by
  have hsquare : ∀ t ∈ (List.range params.targetDim).drop dropK, (do
      let z ← params.coordinateChecked data i t
      return z * z) = some (params.coordinate (Rows.row params.inputDim i data) t *
        params.coordinate (Rows.row params.inputDim i data) t) := by
    intro t ht
    rw [keptCoordinate_eq hrow hcomponents (mem_kept ht)]
    rfl
  rw [euclideanScoreChecked, readSum_eq hsquare, euclideanScore, dot_self, keptCoordinates,
    List.map_map]
  rfl

theorem reconstructEntryChecked_eq (hrow : (i + 1) * params.inputDim ≤ data.length)
    (hcomponents : params.targetDim * params.inputDim ≤ params.components.length) {j : ℕ}
    (hj : j < params.inputDim) :
    params.reconstructEntryChecked data dropK i j =
      some (params.reconstructEntry dropK (Rows.row params.inputDim i data) j) := by
  have hterm : ∀ t ∈ List.range params.targetDim, (do
      let z ← if dropK ≤ t then params.coordinateChecked data i t else some 0
      return z * (← params.components[t * params.inputDim + j]?)) =
      some ((if dropK ≤ t then params.coordinate (Rows.row params.inputDim i data) t else 0) *
        (params.component t).getD j 0) := by
    intro t ht
    have ht := List.mem_range.mp ht
    have hentry : t * params.inputDim + j < params.components.length :=
      lt_of_lt_of_le (Checked.flat_lt ht hj) hcomponents
    rw [keptCoordinate_eq hrow hcomponents ht, Checked.getElem?_eq_getD hentry 0, component,
      FlatMatrix.getD_row _ hj]
    split_ifs <;> rfl
  rw [reconstructEntryChecked, readSum_eq hterm, Checked.getElem?_eq_getD hj 0, List.foldl_map]
  rfl

end Values

section Scores

variable {F : Type*} [Zero F] [One F] [Add F] [Sub F] [Mul F] [Div F] [Neg F] [NatCast F]
  [LT F] [DecidableLT F] [FloatMath F] {params : PcaParams F} {data : List F} {dropK i : ℕ}

omit [One F] [Div F] [Neg F] [NatCast F] [FloatMath F] in
theorem reconstructionScoreChecked_eq (hrow : (i + 1) * params.inputDim ≤ data.length)
    (hcomponents : params.targetDim * params.inputDim ≤ params.components.length) :
    params.reconstructionScoreChecked data dropK i =
      some (params.reconstructionScore dropK (Rows.row params.inputDim i data)) := by
  have hcentred : ∀ j ∈ List.range params.inputDim, (do
      let x ← params.centredChecked data i j
      return x * x) = some ((data.getD (i * params.inputDim + j) 0 - params.mean.getD j 0) *
        (data.getD (i * params.inputDim + j) 0 - params.mean.getD j 0)) := by
    intro j hj
    rw [centredChecked_eq hrow (List.mem_range.mp hj)]
    rfl
  have hx0 : List.zipWith (· - ·) (Rows.row params.inputDim i data) params.mean =
      (List.range params.inputDim).map fun j =>
        data.getD (i * params.inputDim + j) 0 - params.mean.getD j 0 := by
    rw [FlatMatrix.zipWith_eq_map_range _ (Rows.length_row hrow) rfl]
    refine List.map_congr_left fun j hj => ?_
    rw [FlatMatrix.getD_row data (List.mem_range.mp hj)]
  have hz : params.euclideanScoreChecked data dropK i = _ :=
    euclideanScoreChecked_eq hrow hcomponents
  rw [euclideanScoreChecked] at hz
  rw [reconstructionScoreChecked, readSum_eq hcentred, hz, reconstructionScore, hx0, dot_self,
    List.map_map]
  rfl

omit [Neg F] [LT F] [DecidableLT F] [FloatMath F] in
theorem mahalanobisScoreChecked_eq (hrow : (i + 1) * params.inputDim ≤ data.length)
    (hcomponents : params.targetDim * params.inputDim ≤ params.components.length)
    (heigvals : params.targetDim ≤ params.eigvals.length) :
    params.mahalanobisScoreChecked data dropK i =
      some (params.mahalanobisScore dropK (Rows.row params.inputDim i data)) := by
  rw [mahalanobisScoreChecked, mahalanobisScore, accumulate]
  refine readSum_eq fun t ht => ?_
  have ht := mem_kept ht
  rw [keptCoordinate_eq hrow hcomponents ht,
    Checked.getElem?_eq_getD (lt_of_lt_of_le ht heigvals) 0]
  rfl

theorem cosineScoreChecked_eq (hrow : (i + 1) * params.inputDim ≤ data.length)
    (hcomponents : params.targetDim * params.inputDim ≤ params.components.length) :
    params.cosineScoreChecked data dropK i =
      some (params.cosineScore dropK (Rows.row params.inputDim i data)) := by
  have hreconstruct : (List.range params.inputDim).mapM (params.reconstructEntryChecked data dropK i) =
      some (params.reconstruct dropK (Rows.row params.inputDim i data)) :=
    Returns.mapM_eq_map fun j hj => reconstructEntryChecked_eq hrow hcomponents (List.mem_range.mp hj)
  have hlength : (params.reconstruct dropK (Rows.row params.inputDim i data)).length =
      params.inputDim := by simp [reconstruct]
  have hx : ∀ j ∈ List.range params.inputDim, data[i * params.inputDim + j]? =
      some ((Rows.row params.inputDim i data).getD j 0) := by
    intro j hj
    have hj := List.mem_range.mp hj
    rw [FlatMatrix.getD_row data hj]
    exact Checked.getElem?_eq_getD
      (lt_of_lt_of_le (Checked.flat_lt (Nat.lt_succ_self i) hj) hrow) 0
  have hxr : ∀ j ∈ List.range params.inputDim,
      (params.reconstruct dropK (Rows.row params.inputDim i data))[j]? =
        some ((params.reconstruct dropK (Rows.row params.inputDim i data)).getD j 0) :=
    fun j hj => Checked.getElem?_eq_getD (hlength.symm ▸ List.mem_range.mp hj) 0
  have hx2 : ∀ j ∈ List.range params.inputDim, (do
      let x ← data[i * params.inputDim + j]?
      return x * x) = some ((Rows.row params.inputDim i data).getD j 0 *
        (Rows.row params.inputDim i data).getD j 0) := by
    intro j hj
    rw [hx j hj]
    rfl
  have hxr2 : ∀ j ∈ List.range params.inputDim, (do
      let x ← (params.reconstruct dropK (Rows.row params.inputDim i data))[j]?
      return x * x) =
        some ((params.reconstruct dropK (Rows.row params.inputDim i data)).getD j 0 *
          (params.reconstruct dropK (Rows.row params.inputDim i data)).getD j 0) := by
    intro j hj
    rw [hxr j hj]
    rfl
  have hinner : ∀ j ∈ List.range params.inputDim, (do
      return (← data[i * params.inputDim + j]?) *
        (← (params.reconstruct dropK (Rows.row params.inputDim i data))[j]?)) =
        some ((Rows.row params.inputDim i data).getD j 0 *
          (params.reconstruct dropK (Rows.row params.inputDim i data)).getD j 0) := by
    intro j hj
    rw [hx j hj, hxr j hj]
    rfl
  rw [cosineScoreChecked, hreconstruct]
  change Option.bind (readSum _ _ _) _ = _
  rw [readSum_eq hx2]
  change Option.bind (readSum _ _ _) _ = _
  rw [readSum_eq hxr2]
  change Option.bind (readSum _ _ _) _ = _
  rw [readSum_eq hinner, cosineScore, dot, accumulate,
    FlatMatrix.zipWith_eq_map_range _ (Rows.length_row hrow) (Rows.length_row hrow),
    FlatMatrix.zipWith_eq_map_range _ hlength hlength,
    FlatMatrix.zipWith_eq_map_range _ (Rows.length_row hrow) hlength]
  rfl

/-- What scoring with a method reads of the model, up to row `n`. -/
structure Inside (params : PcaParams F) (data : List F) (n : ℕ) (method : PcaScoreMethod) :
    Prop where
  rows : n * params.inputDim ≤ data.length
  components : params.targetDim * params.inputDim ≤ params.components.length
  eigvals : method = .mahalanobis → params.targetDim ≤ params.eigvals.length

theorem rowScoreChecked_eq {method : PcaScoreMethod} (h : params.Inside data (i + 1) method)
    (hdrop : dropK < params.targetDim) :
    params.rowScoreChecked data method dropK i =
      some (params.rowScore method dropK (Rows.row params.inputDim i data)) := by
  unfold rowScore
  rw [if_neg hdrop.not_ge]
  cases method with
  | reconstruction => exact reconstructionScoreChecked_eq h.rows h.components
  | mahalanobis => exact mahalanobisScoreChecked_eq h.rows h.components (h.eigvals rfl)
  | euclidean => exact euclideanScoreChecked_eq h.rows h.components
  | cosine => exact cosineScoreChecked_eq h.rows h.components

/-- When the reads are inside, the checked scores are the scores. -/
theorem scoreChecked_eq {n : ℕ} {method : PcaScoreMethod}
    (h : params.targetDim ≤ dropK ∨ params.Inside data n method) :
    params.scoreChecked data n method dropK = some (params.score data n method dropK) := by
  rw [scoreChecked, score, Rows.rows, List.map_map]
  split_ifs with hdrop
  · refine congrArg some ?_
    have hzero : ∀ i ∈ List.range n, (params.rowScore method dropK ∘
        fun i => Rows.row params.inputDim i data) i = 0 := fun i _ => if_pos hdrop
    rw [List.map_congr_left hzero]
    simp
  · have hinside := h.resolve_left hdrop
    refine Returns.mapM_eq_map fun i hi => ?_
    exact rowScoreChecked_eq
      ⟨le_trans (Nat.mul_le_mul_right _ (List.mem_range.mp hi)) hinside.rows, hinside.components,
        hinside.eigvals⟩ (Nat.lt_of_not_le hdrop)

end Scores

/-! ### What is read -/

section Coordinates

variable {F : Type*} [Zero F] [Add F] [Sub F] [Mul F] {params : PcaParams F} {data : List F}
  {dropK i t : ℕ}

/-- A block all of whose entries are there is there. -/
theorem block_inside {D m : ℕ} (h : ∀ j < D, i * D + j < m) : (i + 1) * D ≤ m := by
  rcases Nat.eq_zero_or_pos D with rfl | hpos
  · exact Nat.zero_le m
  · have hlast := h (D - 1) (Nat.sub_lt hpos Nat.one_pos)
    rw [Nat.succ_mul]
    omega

theorem inside_of_coordinateChecked (h : (params.coordinateChecked data i t).isSome) :
    (i + 1) * params.inputDim ≤ data.length ∧
      (t + 1) * params.inputDim ≤ params.components.length := by
  have hterm := isSome_readSum.mp h
  constructor
  · refine block_inside fun j hj => ?_
    have hcentred := Option.isSome_of_isSome_bind (hterm j (List.mem_range.mpr hj))
    exact Checked.lt_of_isSome_read (Option.isSome_of_isSome_bind hcentred)
  · refine block_inside fun j hj => ?_
    have hproduct := Option.isSome_apply_of_isSome_bind (hterm j (List.mem_range.mpr hj))
    exact Checked.lt_of_isSome_read (Option.isSome_of_isSome_bind hproduct)

omit [Zero F] [Add F] [Sub F] [Mul F] in
/-- The last component is among those that scoring goes through. -/
theorem last_mem_kept (hdrop : dropK < params.targetDim) :
    params.targetDim - 1 ∈ (List.range params.targetDim).drop dropK := by
  refine List.mem_drop_iff_getElem.mpr ⟨params.targetDim - 1 - dropK, ?_, ?_⟩
  · rw [List.length_range]
    omega
  · rw [List.getElem_range]
    omega

end Coordinates

section Reads

variable {F : Type*} [Zero F] [One F] [Add F] [Sub F] [Mul F] [Div F] [Neg F] [NatCast F]
  [LT F] [DecidableLT F] [FloatMath F] {params : PcaParams F} {data : List F} {dropK i t : ℕ}

/-- A row score is made of the last component, and of its eigenvalue if the method asks. -/
theorem inside_of_rowScoreChecked {method : PcaScoreMethod} (hdrop : dropK < params.targetDim)
    (h : (params.rowScoreChecked data method dropK i).isSome) :
    params.Inside data (i + 1) method := by
  have hlast : params.targetDim - 1 + 1 = params.targetDim := by omega
  have hkept := last_mem_kept hdrop
  have hinside : (params.coordinateChecked data i (params.targetDim - 1)).isSome →
      (i + 1) * params.inputDim ≤ data.length ∧
        params.targetDim * params.inputDim ≤ params.components.length := by
    intro hcoordinate
    have hboth := inside_of_coordinateChecked hcoordinate
    rwa [hlast] at hboth
  cases method with
  | reconstruction =>
    have hsum := Option.isSome_of_isSome_bind (Option.isSome_apply_of_isSome_bind h)
    have hboth := hinside (Option.isSome_of_isSome_bind (isSome_readSum.mp hsum _ hkept))
    exact ⟨hboth.1, hboth.2, fun hmethod => absurd hmethod (by decide)⟩
  | mahalanobis =>
    have hterm := isSome_readSum.mp h _ hkept
    have hboth := hinside (Option.isSome_of_isSome_bind hterm)
    have heigval := Checked.lt_of_isSome_read
      (Option.isSome_of_isSome_bind (Option.isSome_apply_of_isSome_bind hterm))
    exact ⟨hboth.1, hboth.2, fun _ => by omega⟩
  | euclidean =>
    have hboth := hinside (Option.isSome_of_isSome_bind (isSome_readSum.mp h _ hkept))
    exact ⟨hboth.1, hboth.2, fun hmethod => absurd hmethod (by decide)⟩
  | cosine =>
    rcases Nat.eq_zero_or_pos params.inputDim with hzero | hpos
    · refine ⟨?_, ?_, fun hmethod => absurd hmethod (by decide)⟩
      all_goals rw [hzero]; exact Nat.zero_le _
    · have hentry := (Returns.isSome_mapM _).mp (Option.isSome_of_isSome_bind h) 0
        (List.mem_range.mpr hpos)
      have hterm := isSome_readSum.mp (Option.isSome_of_isSome_bind hentry) (params.targetDim - 1)
        (List.mem_range.mpr (by omega))
      dsimp only at hterm
      rw [if_pos (by omega)] at hterm
      have hboth := hinside (Option.isSome_of_isSome_bind hterm)
      exact ⟨hboth.1, hboth.2, fun hmethod => absurd hmethod (by decide)⟩

/-- Scoring reads inside its arrays exactly if there is nothing to score, nothing to score it
with, or all of it is there. -/
theorem isSome_scoreChecked_iff {n : ℕ} {method : PcaScoreMethod} :
    (params.scoreChecked data n method dropK).isSome ↔
      n = 0 ∨ params.targetDim ≤ dropK ∨ params.Inside data n method := by
  constructor
  · intro h
    rcases Nat.eq_zero_or_pos n with hzero | hpos
    · exact .inl hzero
    · rcases Nat.lt_or_ge dropK params.targetDim with hdrop | hdrop
      · rw [scoreChecked, if_neg hdrop.not_ge] at h
        have hrow := (Returns.isSome_mapM _).mp h (n - 1) (List.mem_range.mpr (by omega))
        have hinside := inside_of_rowScoreChecked hdrop hrow
        rw [Nat.sub_add_cancel hpos] at hinside
        exact .inr (.inr hinside)
      · exact .inr (.inl hdrop)
  · rintro (rfl | hinside)
    · rw [scoreChecked]
      split_ifs <;> rfl
    · rw [scoreChecked_eq hinside]
      rfl

end Reads

end PcaParams

end SurfaceAi.Embeddings
