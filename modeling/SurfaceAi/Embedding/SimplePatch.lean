import SurfaceAi.Core.Arithmetic
import SurfaceAi.Core.Error
import SurfaceAi.Core.Image
import SurfaceAi.Embedding.Embedding
import SurfaceAi.Library.Checked

/-! Patch embeddings from hand-crafted features: the pixels of a patch, histograms, moments,
gradients, a texture histogram and a downsampling, one behind the other, reduced to the dimension
asked for. Every subscript and every division is checked. Sizes are machine words; the sums and
products that can pass the largest one are reduced. -/

namespace SurfaceAi.Embeddings

open Checked

structure SimplePatchEmbedderConfig where
  imageWidth : ℕ := 1024
  imageHeight : ℕ := 1024
  patchSize : ℕ := 14
  featureDim : ℕ := 128
  normalize : Bool := true
  deriving DecidableEq

structure SimplePatchEmbedder where
  cfg : SimplePatchEmbedderConfig
  gridH : ℕ
  gridW : ℕ
  rawFeatureDim : ℕ
  deriving DecidableEq

def SimplePatchEmbedder.create (cfg : SimplePatchEmbedderConfig) : Result SimplePatchEmbedder :=
  if cfg.imageWidth = 0 ∨ cfg.imageHeight = 0 ∨ cfg.patchSize = 0 then
    fail .embeddingInvalidPatchParameters
      "SimplePatchEmbedder: image dimensions and patch size must be > 0"
  else if cfg.imageWidth % cfg.patchSize ≠ 0 ∨ cfg.imageHeight % cfg.patchSize ≠ 0 then
    fail .embeddingInvalidPatchParameters
      "SimplePatchEmbedder: image size must be divisible by patch size"
  else if cfg.featureDim = 0 then
    fail .embeddingInvalidPatchParameters "SimplePatchEmbedder: feature_dim must be > 0"
  else
    .ok ⟨cfg, cfg.imageHeight / cfg.patchSize, cfg.imageWidth / cfg.patchSize,
      (cfg.patchSize * cfg.patchSize * 3 + 48 + 12 + 16 + 9 + 10 + 27) % 2 ^ 64⟩

section Helpers

variable {F : Type} [Zero F] [One F] [Add F] [Sub F] [Mul F] [Div F] [Neg F] [NatCast F]
  [LT F] [DecidableLT F] [DecidableEq F] [FloatMath F]

/-- A decimal literal. -/
def decimal (n d : ℕ) : F := (n : F) / (d : F)

/-- The cast of `Luminance` to a byte. -/
def luminanceByte (F : Type) [Add F] [Mul F] [Div F] [NatCast F] [FloatMath F] (r g b : UInt8) :
    UInt8 :=
  UInt8.ofNat (FloatMath.toSize ((decimal 299 1000 : F) * (r.toNat : F) +
    decimal 587 1000 * (g.toNat : F) + decimal 114 1000 * (b.toNat : F)))

def clamp (v lo hi : F) : F := if v < lo then lo else if hi < v then hi else v

/-- The bin of a value, at most the last one. -/
def lastBin (nBins bin : ℕ) : ℕ := if nBins ≤ bin then nBins - 1 else bin

/-- The bins that are appended, of `count` bytes. -/
def uint8Histogram (values : List UInt8) (count nBins : ℕ) : Option (List F) :=
  if count = 0 then some (List.replicate nBins 0)
  else do
    let scale ← quotient ((256 : ℕ) : F) (nBins : F)
    let bins ← loop count (fun i (bins : List F) => do
      let v ← values[i]?
      let bin := FloatMath.toSize (← quotient (v.toNat : F) scale)
      addAt bins (lastBin nBins bin) 1) (List.replicate nBins 0)
    let inv ← quotient (1 : F) (count : F)
    return bins.map (· * inv)

/-- The bins that are appended, of `count` numbers. -/
def floatHistogram (values : List F) (count nBins : ℕ) : Option (List F) :=
  if count = 0 then some (List.replicate nBins 0)
  else do
    let first ← values[0]?
    let (minV, maxV) ← (List.range' 1 (count - 1)).foldlM (fun bounds i => do
      let v ← values[i]?
      return (if v < bounds.1 then v else bounds.1, if bounds.2 < v then v else bounds.2))
      (first, first)
    let range := maxV - minV
    if range < decimal 1 1000000 then store (List.replicate nBins 0) 0 1
    else
      let scale ← quotient (nBins : F) range
      let bins ← loop count (fun i (bins : List F) => do
        let v ← values[i]?
        let bin := FloatMath.toSize ((v - minV) * scale)
        addAt bins (lastBin nBins bin) 1) (List.replicate nBins 0)
      let inv ← quotient (1 : F) (count : F)
      return bins.map (· * inv)

/-- One of the buffers that the first loop of `ExtractPatch` fills, of `size` entries. -/
def plane {α : Type} (ps size : ℕ) (a : α) (pixel : ℕ → ℕ → Option α) : Option (List α) :=
  loop ps (fun dy buf => fillLine ps (dy * ps) (pixel dy) buf) (List.replicate size a)

/-- The positions of the loops over `dy` and `dx` that leave out the border. -/
def interior (ps : ℕ) : List (ℕ × ℕ) :=
  (List.range' 1 (ps - 2)).flatMap fun dy => (List.range' 1 (ps - 2)).map fun dx => (dy, dx)

/-- Mean, deviation, skewness and kurtosis of a channel. -/
def moments (chan : List UInt8) (ps2 : ℕ) : Option (List F) := do
  let values : List F := chan.map fun v => (v.toNat : F)
  let n : F := (ps2 : F)
  let mean ← quotient (accumulate values) n
  let mean2 ← quotient (accumulate (values.map fun v => v * v)) n
  let mean3 ← quotient (accumulate (values.map fun v => v * v * v)) n
  let mean4 ← quotient (accumulate (values.map fun v => v * v * v * v)) n
  let variance := mean2 - mean * mean
  let stdDev := FloatMath.sqrt (stdMax variance 0)
  let skewness ← (if decimal 1 1000000000 < stdDev then
      quotient (mean3 - ((3 : ℕ) : F) * mean * variance - mean * mean * mean)
        (stdDev * stdDev * stdDev)
    else some 0)
  let kurtosis ← (if decimal 1 1000000000 < variance then
      (quotient (mean4 - ((4 : ℕ) : F) * mean * mean3 +
        ((6 : ℕ) : F) * mean * mean * mean2 - ((3 : ℕ) : F) * mean * mean * mean * mean)
        (variance * variance)).map (· - ((3 : ℕ) : F))
    else some 0)
  return [mean / ((255 : ℕ) : F), stdDev / ((255 : ℕ) : F),
    clamp skewness (-((5 : ℕ) : F)) ((5 : ℕ) : F) / ((5 : ℕ) : F),
    clamp kurtosis (-((5 : ℕ) : F)) ((5 : ℕ) : F) / ((5 : ℕ) : F)]

/-- The horizontal and the vertical Sobel sum of luminances. -/
def sobel (gray : List UInt8) (ps dy dx : ℕ) : Option (F × F) := do
  let lum := fun y x => (gray[y * ps + x]?).map fun v => (v.toNat : F)
  let nw ← lum (dy - 1) (dx - 1)
  let n ← lum (dy - 1) dx
  let ne ← lum (dy - 1) (dx + 1)
  let w ← lum dy (dx - 1)
  let e ← lum dy (dx + 1)
  let sw ← lum (dy + 1) (dx - 1)
  let s ← lum (dy + 1) dx
  let se ← lum (dy + 1) (dx + 1)
  let two : F := ((2 : ℕ) : F)
  return (-nw + ne - two * w + two * e - sw + se, -nw - two * n - ne + sw + two * s + se)

variable (atan2 : F → F → F)

/-- `grad_mag` and `grad_orient`: nothing at the border. -/
def gradients (gray : List UInt8) (ps ps2 : ℕ) : Option (List F × List F) :=
  (interior ps).foldlM (fun grads p => do
    let (gx, gy) ← sobel gray ps p.1 p.2
    let mag ← store grads.1 (p.1 * ps + p.2) (FloatMath.sqrt (gx * gx + gy * gy))
    let orient ← store grads.2 (p.1 * ps + p.2) (atan2 gy gx)
    return (mag, orient)) (List.replicate ps2 0, List.replicate ps2 0)

/-- `kPi`. -/
def pi : F := decimal 314159265358979323846 100000000000000000000

def orientationHistogram (mag orient : List F) (ps2 : ℕ) : Option (List F) := do
  let (bins, totalWeight) ← loop ps2 (fun i state => do
    let weight ← mag[i]?
    if weight < decimal 1 1000000 then return state
    else
      let angle ← orient[i]?
      let angle := if angle < 0 then angle + pi else angle
      let bin := FloatMath.toSize (angle / pi * ((9 : ℕ) : F))
      return (← addAt state.1 (lastBin 9 bin) weight, state.2 + weight))
    ((List.replicate 9 0, 0) : List F × F)
  if decimal 1 1000000000 < totalWeight then
    let inv ← quotient (1 : F) totalWeight
    return bins.map (· * inv)
  else return bins

/-- The offsets of the eight neighbours, shifted by one. -/
def neighbours : List (ℕ × ℕ) :=
  [(0, 0), (0, 1), (0, 2), (1, 0), (1, 2), (2, 0), (2, 1), (2, 2)]

/-- How many neighbours of a pixel are brighter than it. -/
def brighter (gray : List UInt8) (ps dy dx : ℕ) : Option ℕ := do
  let center ← gray[dy * ps + dx]?
  neighbours.foldlM (fun count d => do
    let v ← gray[(dy + d.1 - 1) * ps + (dx + d.2 - 1)]?
    return if center < v then count + 1 else count) 0

def lbpHistogram (gray : List UInt8) (ps : ℕ) : Option (List F) := do
  let (bins, interiorCount) ← (interior ps).foldlM (fun state p => do
    let count ← brighter gray ps p.1 p.2
    let bins ← (if count < 10 then addAt state.1 count 1 else some state.1)
    return (bins, state.2 + 1)) ((List.replicate 10 0, 0) : List F × ℕ)
  if 0 < interiorCount then
    let inv ← quotient (1 : F) (interiorCount : F)
    return bins.map (· * inv)
  else return bins

/-- The pixels of a cell of the downsampling, of `cell` rows and columns. -/
def cellPixels (ps cell cy cx : ℕ) : List (ℕ × ℕ) :=
  (List.range' (cy * cell) (min ((cy + 1) * cell) ps - cy * cell)).flatMap fun dy =>
    (List.range' (cx * cell) (min ((cx + 1) * cell) ps - cx * cell)).map fun dx => (dy, dx)

/-- The mean of one channel over the pixels. -/
def cellMean (chan : List UInt8) (ps : ℕ) (pixels : List (ℕ × ℕ)) : Option F := do
  let sum ← pixels.foldlM (fun sum p => do
    let v ← chan[p.1 * ps + p.2]?
    return sum + (v.toNat : F)) (0 : F)
  let inv ← quotient (1 : F) ((pixels.length : F) * ((255 : ℕ) : F))
  return sum * inv

/-- The nine cells, three channels each. -/
def downsample (r g b : List UInt8) (ps : ℕ) : Option (List F) := do
  let cells ← ((List.range 3).flatMap fun cy => (List.range 3).map fun cx => (cy, cx)).mapM
    fun c => [r, g, b].mapM fun chan => cellMean chan ps (cellPixels ps (ps / 3) c.1 c.2)
  return cells.flatten

end Helpers

namespace SimplePatchEmbedder

variable {F : Type} [Zero F] [One F] [Add F] [Sub F] [Mul F] [Div F] [Neg F] [NatCast F]
  [LT F] [DecidableLT F] [DecidableEq F] [FloatMath F] (atan2 : F → F → F)
  (e : SimplePatchEmbedder)

/-- Where channel `c` of a pixel of a patch is read. -/
def offset (stride gy gx dy dx c : ℕ) : ℕ :=
  ((gy * e.cfg.patchSize + dy) * stride + (gx * e.cfg.patchSize + dx) * 3 + c) % 2 ^ 64

def extractPatch (data : List UInt8) (stride gy gx : ℕ) : Option (List F) := do
  let ps := e.cfg.patchSize
  let ps2 := ps * ps % 2 ^ 64
  let channel := fun c dy dx => data[e.offset stride gy gx dy dx c]?
  let r ← plane ps ps2 0 (channel 0)
  let g ← plane ps ps2 0 (channel 1)
  let b ← plane ps ps2 0 (channel 2)
  let gray ← plane ps ps2 0 fun dy dx => do
    return luminanceByte F (← channel 0 dy dx) (← channel 1 dy dx) (← channel 2 dy dx)
  let rawNorm : List F := (r.zip (g.zip b)).flatMap fun p =>
    [p.1, p.2.1, p.2.2].map fun v => (v.toNat : F) / ((255 : ℕ) : F)
  let hists ← [r, g, b].mapM fun chan => uint8Histogram chan ps2 16
  let stats ← [r, g, b].mapM fun chan => moments chan ps2
  let (mag, orient) ← gradients atan2 gray ps ps2
  let magHist ← floatHistogram mag ps2 16
  let orientHist ← orientationHistogram mag orient ps2
  let lbp ← lbpHistogram gray ps
  let cells ← downsample r g b ps
  return rawNorm ++ hists.flatten ++ stats.flatten ++ magHist ++ orientHist ++ lbp ++ cells

end SimplePatchEmbedder

section Reduction

variable {F : Type} [Zero F] [One F] [Add F] [Sub F] [Mul F] [Div F] [Neg F] [NatCast F]
  [LT F] [DecidableLT F] [DecidableEq F] [FloatMath F]

/-- The bounds of an averaging block. -/
def block (ratio : F) (rawDim d : ℕ) : ℕ × ℕ :=
  let start := FloatMath.toSize ((d : F) * ratio)
  let stop := FloatMath.toSize (((d + 1 : ℕ) : F) * ratio)
  let stop := if stop ≤ start then start + 1 else stop
  (start, if rawDim < stop then rawDim else stop)

/-- The mean of the raw values of a block. -/
def blockMean (raw : List F) (bounds : ℕ × ℕ) : Option F := do
  let acc ← (List.range' bounds.1 (bounds.2 - bounds.1)).foldlM (fun acc i => do
    return acc + (← raw[i]?)) 0
  quotient acc (((bounds.2 + 2 ^ 64 - bounds.1) % 2 ^ 64 : ℕ) : F)

/-- The raw values of a patch, padded or averaged to the dimension asked for. -/
def reduce (featureDim : ℕ) (raw : List F) : Option (List F) :=
  if raw.length ≤ featureDim then some (raw ++ List.replicate (featureDim - raw.length) 0)
  else do
    let ratio ← quotient (raw.length : F) (featureDim : F)
    (List.range featureDim).mapM fun d => blockMean raw (block ratio raw.length d)

/-- One patch vector of the array is divided by its length, unless that is next to zero. -/
def normalizePatch (featureDim p : ℕ) (features : List F) : Option (List F) := do
  let start := p * featureDim % 2 ^ 64
  let normSq ← (List.range featureDim).foldlM (fun acc d => do
    let x ← features[start + d]?
    return acc + x * x) 0
  if decimal 1 1000000000000 < normSq then
    let inv ← quotient (1 : F) (FloatMath.sqrt normSq)
    loop featureDim (fun d features => do
      store features (start + d) ((← features[start + d]?) * inv)) features
  else return features

end Reduction

namespace SimplePatchEmbedder

variable {F : Type} [Zero F] [One F] [Add F] [Sub F] [Mul F] [Div F] [Neg F] [NatCast F]
  [LT F] [DecidableLT F] [DecidableEq F] [FloatMath F] (atan2 : F → F → F)
  (e : SimplePatchEmbedder)

/-- The patches in the order of the grid. -/
def patches : List (ℕ × ℕ) :=
  (List.range e.gridH).flatMap fun gy => (List.range e.gridW).map fun gx => (gy, gx)

def extract (image : Image) : Option (Result (Embedding F)) :=
  let m := image.imageMeta
  if m.width ≠ e.cfg.imageWidth ∨ m.height ≠ e.cfg.imageHeight then
    some (fail .embeddingDimensionMismatch ("SimplePatchEmbedder: image size mismatch (expected " ++
      toString e.cfg.imageWidth ++ "x" ++ toString e.cfg.imageHeight ++ ", got " ++
      toString m.width ++ "x" ++ toString m.height ++ ")"))
  else if m.channels ≠ 3 then
    some (fail .embeddingDimensionMismatch
      ("SimplePatchEmbedder: expected 3-channel RGB8 image, got " ++ toString m.channels ++
        " channels"))
  else do
    let totalPatches := e.gridH * e.gridW % 2 ^ 64
    let stride := m.width * m.channels % 2 ^ 64
    let rows ← e.patches.mapM fun p => do
      reduce e.cfg.featureDim (← e.extractPatch atan2 image.bytes stride p.1 p.2)
    let features ← (if e.cfg.normalize then
        loop totalPatches (normalizePatch e.cfg.featureDim) rows.flatten
      else some rows.flatten)
    return .ok (Embedding.fromCpu features ⟨e.cfg.featureDim, totalPatches, e.gridH, e.gridW⟩)

end SimplePatchEmbedder

end SurfaceAi.Embeddings
