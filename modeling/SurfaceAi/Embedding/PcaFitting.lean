import SurfaceAi.Core.Error
import SurfaceAi.Embedding.Embedding
import SurfaceAi.Embedding.PcaScoring
import SurfaceAi.Library.FlatMatrix

/-! Fitting a PCA: the mean and the covariance of the samples, and eigenvectors of the
covariance by power iteration, each taken out of the matrix before the next. The eigenpair of a
matrix is a parameter of the fit; the source's is `powerIteration`. -/

namespace SurfaceAi.Embeddings

open FlatMatrix

/-- The vectors of all samples, row after row. -/
structure CollectedSamples (F : Type*) where
  data : List F
  inputDim : ℕ
  totalCount : ℕ

section Collect

variable {F : Type*}

/-- The checks of the samples behind the first, which sets the dimension. -/
def checkSamples (inputDim : ℕ) : List (Embedding F) → Result Unit
  | [] => .ok ()
  | sample :: samples =>
    if sample.onGpu then
      fail .embeddingDimensionMismatch "DimensionReducer: sample is on GPU, cannot fit on CPU"
    else if sample.embeddingMeta.dim ≠ inputDim then
      fail .embeddingDimensionMismatch ("DimensionReducer: sample dim mismatch (" ++
        toString sample.embeddingMeta.dim ++ " != " ++ toString inputDim ++ ")")
    else checkSamples inputDim samples

def countSamples (samples : List (Embedding F)) : ℕ :=
  (samples.map fun s => if 0 < s.embeddingMeta.dim ∧ 0 < s.embeddingMeta.count then
    s.embeddingMeta.count else 0).sum

/-- The floats copied from one sample; there is no result if it has fewer. -/
def copySample (inputDim : ℕ) (sample : Embedding F) : Option (List F) :=
  let n := sample.embeddingMeta.count * inputDim
  if n ≤ sample.data.length then some (sample.data.take n) else none

/-- `CollectSamples`. -/
def collectSamples (samples : List (Embedding F)) : Option (Result (CollectedSamples F)) :=
  match samples with
  | [] => some (fail .embeddingDimensionMismatch
      "DimensionReducer: no samples provided for fitting")
  | first :: _ =>
    let inputDim := first.embeddingMeta.dim
    match checkSamples inputDim samples with
    | .error e => some (.error e)
    | .ok () =>
      if countSamples samples = 0 ∨ inputDim = 0 then
        some (fail .embeddingDimensionMismatch
          "DimensionReducer: all samples have zero count or zero dimension")
      else
        (samples.mapM (copySample inputDim)).map fun copies =>
          .ok ⟨copies.flatten, inputDim, countSamples samples⟩

end Collect

section Moments

variable {F : Type*} [Zero F] [One F] [Add F] [Sub F] [Mul F] [Div F] [NatCast F]

/-- `ComputeMean` of the rows. -/
def computeMean (rows : List (List F)) (dim : ℕ) : List F :=
  (List.range dim).map fun j =>
    accumulate (rows.map fun x => x.getD j 0) * (1 / (rows.length : F))

/-- `CenterData`. -/
def centerData (rows : List (List F)) (mean : List F) : List (List F) :=
  rows.map fun x => List.zipWith (· - ·) x mean

/-- `ComputeCovariance` of centred rows. -/
def computeCovariance (centered : List (List F)) (dim : ℕ) : List F :=
  tabulate dim fun i j =>
    accumulate (centered.map fun x => x.getD i 0 * x.getD j 0) * (1 / (centered.length : F))

end Moments

/-! ### Eigenvectors -/

section Eigen

variable {F : Type*} [Zero F] [One F] [Add F] [Sub F] [Mul F] [Div F] [NatCast F] [LT F]
  [DecidableLT F] [FloatMath F]

def matVec (dim : ℕ) (mat v : List F) : List F :=
  (List.range dim).map fun i => dot (Rows.row dim i mat) v

/-- The first unit vector. -/
def axis (dim : ℕ) : List F := (List.replicate dim 0).set 0 1

/-- The default tolerance of the power iteration. -/
def powerTolerance : F := 1 / (100000000 : ℕ)

/-- The turns of the power iteration that are left; `none` is the branch for a vector that the
matrix sends to zero. -/
def powerTurns (mat : List F) (dim : ℕ) : ℕ → List F → F → Option (List F × F)
  | 0, v, eigenvalue => some (v, eigenvalue)
  | turns + 1, v, _ =>
    let w := matVec dim mat v
    let eigenvalue := if dot v w < 0 then 0 else dot v w
    let norm := FloatMath.sqrt (dot w w)
    if norm < powerTolerance then none
    else
      let u := w.map (· / norm)
      let diff := List.zipWith (· - ·) u v
      let diffNeg := List.zipWith (· + ·) u v
      if dot diff diff < powerTolerance ∨ dot diffNeg diffNeg < powerTolerance then
        some (u, eigenvalue)
      else powerTurns mat dim turns u eigenvalue

/-- The iteration from the first unit vector, in at most 200 turns. -/
def powerConverges (mat : List F) (dim : ℕ) : Option (List F × F) :=
  powerTurns mat dim 200 (axis dim) 0

/-- `PowerIteration`: the zero branch answers with the first unit vector. -/
def powerIteration (mat : List F) (dim : ℕ) : List F × F :=
  (powerConverges mat dim).getD (axis dim, 0)

/-- Take an eigenpair out of the matrix. -/
def deflateFlat (dim : ℕ) (cov ev : List F) (lambda : F) : List F :=
  tabulate dim fun i j => cov.getD (i * dim + j) 0 - lambda * ev.getD i 0 * ev.getD j 0

/-- The matrix with the eigenvectors and eigenvalues found so far. -/
structure TopEigen (F : Type*) where
  cov : List F
  eigenvectors : List F
  eigenvalues : List F

def TopEigen.next (power : List F → ℕ → List F × F) (dim : ℕ) (s : TopEigen F) : TopEigen F :=
  let (ev, lambda) := power s.cov dim
  { cov := if 1 / (1000000000000 : ℕ) < lambda then deflateFlat dim s.cov ev lambda else s.cov
    eigenvectors := s.eigenvectors ++ ev
    eigenvalues := s.eigenvalues ++ [lambda] }

/-- `ComputeTopEigen`. -/
def computeTopEigen (power : List F → ℕ → List F × F) (cov : List F) (dim targetDim : ℕ) :
    TopEigen F :=
  (List.range targetDim).foldl (fun s _ => s.next power dim) ⟨cov, [], []⟩

/-- The unit vector of a component, zero if there is none. -/
def unitRow (dim t : ℕ) : List F := (List.replicate dim 0).set t 1

/-- `FixDegenerateComponents`: a short component of no variance is replaced. -/
def fixDegenerateComponents (eigenvectors eigenvalues : List F) (targetDim inputDim : ℕ) :
    List F :=
  (List.range targetDim).flatMap fun t =>
    let row := Rows.row inputDim t eigenvectors
    if eigenvalues.getD t 0 < 1 / (1000000000000000 : ℕ) ∧ dot row row < 1 / (2 : ℕ) then
      unitRow inputDim t
    else row

/-! ### The fits -/

/-- The model of a mean and a covariance. -/
def pcaOfMoments (power : List F → ℕ → List F × F) (mean cov : List F) (dim targetDim : ℕ) :
    PcaParams F :=
  let top := computeTopEigen power cov dim targetDim
  ⟨fixDegenerateComponents top.eigenvectors top.eigenvalues targetDim dim, targetDim, mean,
    top.eigenvalues⟩

/-- The mean and the covariance of the rows. -/
def batchMoments (rows : List (List F)) (dim : ℕ) : List F × List F :=
  let mean := computeMean rows dim
  (mean, computeCovariance (centerData rows mean) dim)

/-- `FitPca`. -/
def fitPca (power : List F → ℕ → List F × F) (samples : List (Embedding F)) (targetDim : ℕ) :
    Option (Result (PcaParams F)) :=
  (collectSamples samples).map fun collected => do
    let s ← collected
    if s.inputDim < targetDim then
      fail .embeddingDimensionMismatch ("DimensionReducer::FitPca: target_dim (" ++
        toString targetDim ++ ") > input_dim (" ++ toString s.inputDim ++ ")")
    else
      let (mean, cov) := batchMoments (Rows.rows s.inputDim s.totalCount s.data) s.inputDim
      .ok (pcaOfMoments power mean cov s.inputDim targetDim)

end Eigen

end SurfaceAi.Embeddings
