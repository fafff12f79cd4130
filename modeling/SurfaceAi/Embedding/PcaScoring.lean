import SurfaceAi.Core.Arithmetic
import SurfaceAi.Library.Rows

/-! Scoring against a PCA model: each row gets the score of its own features. The
components are a flat `targetDim × D` matrix, `D` being the length of the mean. -/

namespace SurfaceAi.Embeddings

inductive PcaScoreMethod where
  | reconstruction | mahalanobis | cosine | euclidean
  deriving DecidableEq, Repr

structure PcaParams (F : Type*) where
  components : List F
  targetDim : ℕ
  mean : List F
  eigvals : List F

/-- `transform` is a flat `targetDim × inputDim` matrix. -/
structure WhiteningParams (F : Type*) where
  transform : List F
  targetDim : ℕ

namespace PcaParams

variable {F : Type*} (params : PcaParams F)

def inputDim : ℕ := params.mean.length

/-- Component `t`. -/
def component (t : ℕ) : List F := Rows.row params.inputDim t params.components

variable [Zero F] [Add F] [Sub F] [Mul F]

/-- The coordinate of a row along component `t`, about the mean. -/
def coordinate (x : List F) (t : ℕ) : F :=
  dot (List.zipWith (· - ·) x params.mean) (params.component t)

/-- The coordinates scoring looks at: those from `dropK` on. -/
def keptCoordinates (dropK : ℕ) (x : List F) : List F :=
  ((List.range params.targetDim).drop dropK).map (params.coordinate x)

/-- Entry `j` of the row's reconstruction; dropped coordinates count as zero. -/
def reconstructEntry (dropK : ℕ) (x : List F) (j : ℕ) : F :=
  (List.range params.targetDim).foldl (fun acc t =>
    acc + (if dropK ≤ t then params.coordinate x t else 0) * (params.component t).getD j 0) 0 +
    params.mean.getD j 0

/-- `PcaReconstruct`, one row of it. -/
def reconstruct (dropK : ℕ) (x : List F) : List F :=
  (List.range params.inputDim).map (params.reconstructEntry dropK x)

variable [One F] [Div F] [NatCast F] [LT F] [DecidableLT F] [Neg F] [FloatMath F]

def reconstructionScore (dropK : ℕ) (x : List F) : F :=
  let x0 := List.zipWith (· - ·) x params.mean
  let z := params.keptCoordinates dropK x
  stdMax 0 (dot x0 x0 - dot z z)

def mahalanobisScore (dropK : ℕ) (x : List F) : F :=
  accumulate (((List.range params.targetDim).drop dropK).map fun t =>
    let z := params.coordinate x t
    z * z * (1 / (params.eigvals.getD t 0 + 1 / (1000000 : ℕ))))

def euclideanScore (dropK : ℕ) (x : List F) : F :=
  let z := params.keptCoordinates dropK x
  dot z z

/-- One minus the clamped cosine of the row and its reconstruction. -/
def cosineScore (dropK : ℕ) (x : List F) : F :=
  let xr := params.reconstruct dropK x
  let eps : F := 1 / (100000000 : ℕ)
  let xNorm := (List.zipWith (· * ·) x x).foldl (· + ·) eps
  let xrNorm := (List.zipWith (· * ·) xr xr).foldl (· + ·) eps
  let sim := dot x xr / (FloatMath.sqrt xNorm * FloatMath.sqrt xrNorm)
  1 - stdMax (-1) (stdMin 1 sim)

/-- The score of one row; zero when every component is dropped. -/
def rowScore (method : PcaScoreMethod) (dropK : ℕ) (x : List F) : F :=
  if params.targetDim ≤ dropK then 0
  else
    match method with
    | .reconstruction => params.reconstructionScore dropK x
    | .mahalanobis => params.mahalanobisScore dropK x
    | .euclidean => params.euclideanScore dropK x
    | .cosine => params.cosineScore dropK x

/-- `DimensionReducer::Score` on `n` rows. -/
def score (data : List F) (n : ℕ) (method : PcaScoreMethod) (dropK : ℕ) : List F :=
  (Rows.rows params.inputDim n data).map (params.rowScore method dropK)

end PcaParams

end SurfaceAi.Embeddings
