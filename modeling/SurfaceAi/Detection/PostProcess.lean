import SurfaceAi.Core.Error
import SurfaceAi.Core.Arithmetic
import SurfaceAi.Detection.Result
import Mathlib.Algebra.Group.Nat.Defs
import Mathlib.Data.Int.Notation

/-! Post-processing of patch scores: bilinear upsampling to the image, a separable
Gaussian blur, a threshold, and the connected components of what exceeds it. Grids
are flat row-major lists. -/

namespace SurfaceAi.Detection

/-- `ValidatePatchGrid`. -/
def validatePatchGrid (gridH gridW imageHeight imageWidth patchSize : ℕ) : Result Unit :=
  let expectedGridH := imageHeight / patchSize
  let expectedGridW := imageWidth / patchSize
  if gridH ≠ expectedGridH ∨ gridW ≠ expectedGridW then
    fail .detectionInvalidPatchGrid ("patch grid " ++ toString gridH ++ "×" ++ toString gridW ++
      " does not match config " ++ toString expectedGridH ++ "×" ++ toString expectedGridW)
  else .ok ()

/-- The row-major list of an `h × w` grid. -/
def gridOf {F : Type*} (h w : ℕ) (f : ℕ → ℕ → F) : List F :=
  (List.range h).flatMap fun y => (List.range w).map fun x => f y x

section Smooth

variable {F : Type*} [Zero F] [One F] [Add F] [Sub F] [Mul F] [Div F] [Neg F] [NatCast F]
  [LT F] [DecidableLT F] [FloatMath F]

/-- The source coordinate of a destination pixel, clamped to the source. -/
def sourceCoordinate (dst srcSize dstSize : ℕ) : F :=
  stdMax 0 (stdMin (((dst : F) + 1 / (2 : ℕ)) * (srcSize : F) / (dstSize : F) - 1 / (2 : ℕ))
    ((srcSize : F) - 1))

/-- One pixel of the upsampled image, from its four neighbours in the source. -/
def upsampledPixel (src : List F) (srcH srcW dstH dstW y x : ℕ) : F :=
  let srcY : F := sourceCoordinate y srcH dstH
  let y0 := FloatMath.toSize srcY
  let y1 := min (y0 + 1) (srcH - 1)
  let wy := srcY - (y0 : F)
  let srcX : F := sourceCoordinate x srcW dstW
  let x0 := FloatMath.toSize srcX
  let x1 := min (x0 + 1) (srcW - 1)
  let wx := srcX - (x0 : F)
  let v0 := src.getD (y0 * srcW + x0) 0 * (1 - wx) + src.getD (y0 * srcW + x1) 0 * wx
  let v1 := src.getD (y1 * srcW + x0) 0 * (1 - wx) + src.getD (y1 * srcW + x1) 0 * wx
  v0 * (1 - wy) + v1 * wy

def bilinearUpsample (src : List F) (srcH srcW dstH dstW : ℕ) : List F :=
  if srcH = 0 ∨ srcW = 0 ∨ dstH = 0 ∨ dstW = 0 then []
  else gridOf dstH dstW (upsampledPixel src srcH srcW dstH dstW)

/-- The normalised kernel of radius `3 * sigma`. -/
def gaussianKernel (sigma : ℕ) : List F :=
  let radius := 3 * sigma
  let kernel : List F := (List.range (2 * radius + 1)).map fun (i : ℕ) =>
    let r : F := (i : F) - (radius : F)
    FloatMath.exp (-(1 / (2 : ℕ)) * r * r / ((sigma : F) * (sigma : F)))
  let sum := accumulate kernel
  kernel.map (· / sum)

/-- The weighted sum around position `i` of a line of `n` values, clamped at its ends. -/
def blurAt (kernel : List F) (radius n : ℕ) (line : ℕ → F) (i : ℕ) : F :=
  accumulate (kernel.zipIdx.map fun p => line (min (i + p.2 - radius) (n - 1)) * p.1)

/-- The horizontal pass, then the vertical one. -/
def gaussianBlur (src : List F) (h w sigma : ℕ) : List F :=
  if h = 0 ∨ w = 0 then []
  else if sigma = 0 then src.take (h * w)
  else
    let kernel : List F := gaussianKernel sigma
    let temp := gridOf h w fun y x =>
      blurAt kernel (3 * sigma) w (fun sx => src.getD (y * w + sx) 0) x
    gridOf h w fun y x => blurAt kernel (3 * sigma) h (fun sy => temp.getD (sy * w + x) 0) y

end Smooth

/-! ### Connected components -/

/-- `find_root` with path halving; a parent is never above its child, so as many steps as
the label are enough. -/
def findRoot : ℕ → List ℕ → ℕ → ℕ × List ℕ
  | 0, parent, label => (label, parent)
  | fuel + 1, parent, label =>
    let up := parent.getD label label
    if up = label then (label, parent)
    else
      let grand := parent.getD up up
      findRoot fuel (parent.set label grand) grand

/-- The labels given so far and the union-find parents. -/
structure Labelling where
  labels : List (Option ℕ)
  parent : List ℕ

/-- The first pass at one foreground pixel, from the labels above and to the left. -/
def labelPixel (s : Labelling) (up left : Option ℕ) : Labelling :=
  match up, left with
  | none, none => ⟨s.labels ++ [some s.parent.length], s.parent ++ [s.parent.length]⟩
  | some u, some l =>
    let (rootUp, parent) := findRoot u s.parent u
    let (rootLeft, parent) := findRoot l parent l
    let minLabel := min rootUp rootLeft
    ⟨s.labels ++ [some minLabel],
      if rootUp = rootLeft then parent else parent.set (max rootUp rootLeft) minLabel⟩
  | some u, none => { s with labels := s.labels ++ [some u] }
  | none, some l => { s with labels := s.labels ++ [some l] }

structure ComponentInfo (F : Type*) where
  maxScore : F
  sumScore : F
  pixelCount : ℕ
  minX : ℕ
  minY : ℕ
  maxX : ℕ
  maxY : ℕ

section Components

variable {F : Type*} [Zero F] [One F] [Add F] [Div F] [NatCast F] [LT F] [DecidableLT F]

/-- The first pass, in raster order. -/
def labelPixels (binary : List F) (h w : ℕ) : Labelling :=
  (List.range (h * w)).foldl (fun s idx =>
    if 0 < binary.getD idx 0 then
      labelPixel s (if w ≤ idx then (s.labels.getD (idx - w) none) else none)
        (if 0 < idx % w then (s.labels.getD (idx - 1) none) else none)
    else { s with labels := s.labels ++ [none] }) ⟨[], []⟩

/-- A component with no pixel yet; the bounds start at the ends of `std::size_t`. -/
def emptyComponent : ComponentInfo F := ⟨0, 0, 0, 2 ^ 64 - 1, 2 ^ 64 - 1, 0, 0⟩

def addPixel (ci : ComponentInfo F) (score : F) (x y : ℕ) : ComponentInfo F where
  maxScore := stdMax ci.maxScore score
  sumScore := ci.sumScore + score
  pixelCount := ci.pixelCount + 1
  minX := min ci.minX x
  minY := min ci.minY y
  maxX := max ci.maxX x
  maxY := max ci.maxY y

/-- The second pass: every labelled pixel joins its root's component. -/
def collectComponents (s : Labelling) (h w : ℕ) (scores : List F) : List (ComponentInfo F) :=
  ((List.range (h * w)).foldl (fun (acc : List (ComponentInfo F) × List ℕ) idx =>
    match s.labels.getD idx none with
    | none => acc
    | some label =>
      let (root, parent) := findRoot label acc.2 label
      (acc.1.modify root fun ci => addPixel ci (scores.getD idx 0) (idx % w) (idx / w), parent))
    (List.replicate s.parent.length emptyComponent, s.parent)).1

def regionOf (ci : ComponentInfo F) : RegionProposal F where
  boundingBox := ⟨ci.minX, ci.minY, ci.maxX - ci.minX + 1, ci.maxY - ci.minY + 1⟩
  maxAnomalyScore := ci.maxScore
  meanAnomalyScore := ci.sumScore / (ci.pixelCount : F)
  areaPixels := ci.pixelCount

/-- `ConnectedComponents`, the regions by descending maximum; ties stay in label order. -/
def connectedComponents (binary : List F) (h w : ℕ) (scores : List F) :
    List (RegionProposal F) :=
  if h = 0 ∨ w = 0 then []
  else
    let comps := collectComponents (labelPixels binary h w) h w scores
    ((comps.filter fun ci => ci.pixelCount ≠ 0).map regionOf).mergeSort
      fun a b => !decide (a.maxAnomalyScore < b.maxAnomalyScore)

end Components

section Build

variable {F : Type*} [Zero F] [One F] [Add F] [Sub F] [Mul F] [Div F] [Neg F] [NatCast F]
  [LT F] [DecidableLT F] [FloatMath F]

/-- `BuildDetectionResult`. The latency is measured by the caller. -/
def buildDetectionResult (patchScores : List F) (gridH gridW imageHeight imageWidth
    gaussianSigma : ℕ) (threshold : F) (latency : ℕ) : DetectionResult F :=
  let anomalyMap : AnomalyMap F := ⟨patchScores, gridH, gridW⟩
  let upsampled := bilinearUpsample patchScores gridH gridW imageHeight imageWidth
  let blurred := gaussianBlur upsampled imageHeight imageWidth gaussianSigma
  let binary := (List.range (imageHeight * imageWidth)).map fun i =>
    if threshold < blurred.getD i 0 then (1 : F) else 0
  { anomalyMap := anomalyMap
    regions := connectedComponents binary imageHeight imageWidth blurred
    imageLevelScore := anomalyMap.maxScore
    inferenceLatency := latency
    globalFeatures := []
    surfaceId := ""
    positionId := 0 }

end Build

end SurfaceAi.Detection
