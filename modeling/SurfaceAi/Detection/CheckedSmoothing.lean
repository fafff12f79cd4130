import SurfaceAi.Core.Arithmetic
import SurfaceAi.Detection.PostProcess
import SurfaceAi.Library.Checked
import Mathlib.Algebra.Order.Floor.Semiring

/-! Upsampling and blurring with every subscript checked. A source coordinate is clamped to its
axis before it is truncated, and so is the position under a kernel weight, so no access leaves its
buffer and the checked loops compute what the unchecked ones do. -/

namespace SurfaceAi.Detection

open Checked

section Definitions

variable {F : Type*} [Zero F] [One F] [Add F] [Sub F] [Mul F] [Div F] [Neg F] [NatCast F]
  [LT F] [DecidableLT F] [FloatMath F]

def upsampledPixelChecked (src : List F) (srcH srcW dstH dstW y x : ℕ) : Option F := do
  let srcY : F := sourceCoordinate y srcH dstH
  let y0 := FloatMath.toSize srcY
  let y1 := min (y0 + 1) (srcH - 1)
  let wy := srcY - (y0 : F)
  let srcX : F := sourceCoordinate x srcW dstW
  let x0 := FloatMath.toSize srcX
  let x1 := min (x0 + 1) (srcW - 1)
  let wx := srcX - (x0 : F)
  let v00 ← src[y0 * srcW + x0]?
  let v01 ← src[y0 * srcW + x1]?
  let v10 ← src[y1 * srcW + x0]?
  let v11 ← src[y1 * srcW + x1]?
  let v0 := v00 * (1 - wx) + v01 * wx
  let v1 := v10 * (1 - wx) + v11 * wx
  return v0 * (1 - wy) + v1 * wy

def bilinearUpsampleChecked (src : List F) (srcH srcW dstH dstW : ℕ) : Option (List F) :=
  if srcH = 0 ∨ srcW = 0 ∨ dstH = 0 ∨ dstW = 0 then some []
  else fillGrid dstH dstW 0 (upsampledPixelChecked src srcH srcW dstH dstW)

/-- The weights before they are divided by their sum. -/
def gaussianWeight (sigma i : ℕ) : F :=
  let r : F := (i : F) - ((3 * sigma : ℕ) : F)
  FloatMath.exp (-(1 / (2 : ℕ)) * r * r / ((sigma : F) * (sigma : F)))

def gaussianKernelChecked (sigma : ℕ) : Option (List F) := do
  let size := 2 * (3 * sigma) + 1
  let kernel ← fillLine size 0 (fun i => some (gaussianWeight sigma i)) (List.replicate size 0)
  return kernel.map (· / accumulate kernel)

/-- The weighted sum around position `i`, from checked reads of the line and the kernel. -/
def blurAtChecked (kernel : List F) (radius n : ℕ) (line : ℕ → Option F) (i : ℕ) : Option F :=
  loop kernel.length (fun k val => do
    return val + (← line (min (i + k - radius) (n - 1))) * (← kernel[k]?)) 0

def gaussianBlurChecked (src : List F) (h w sigma : ℕ) : Option (List F) :=
  if h = 0 ∨ w = 0 then some []
  else if sigma = 0 then if h * w ≤ src.length then some (src.take (h * w)) else none
  else do
    let kernel : List F ← gaussianKernelChecked sigma
    let temp ← fillGrid h w 0 fun y x =>
      blurAtChecked kernel (3 * sigma) w (fun sx => src[y * w + sx]?) x
    fillGrid h w 0 fun y x => blurAtChecked kernel (3 * sigma) h (fun sy => temp[sy * w + x]?) y

end Definitions

/-! ### Flat grids -/

section Grids

variable {α : Type*} {h w y x : ℕ}

theorem length_gridOf (h w : ℕ) (f : ℕ → ℕ → α) : (gridOf h w f).length = h * w := by
  induction h with
  | zero => simp [gridOf]
  | succ h ih =>
    rw [gridOf, List.range_succ, List.flatMap_append, ← gridOf, List.length_append, ih]
    simp [Nat.succ_mul]

theorem mem_gridOf {f : ℕ → ℕ → α} {a : α} :
    a ∈ gridOf h w f ↔ ∃ y < h, ∃ x < w, f y x = a := by
  simp [gridOf]

end Grids

section Exact

variable {F : Type*} [Field F] [LinearOrder F] [IsStrictOrderedRing F] [FloorSemiring F]
  [FloatMath F]

/-- A clamped coordinate lies between the pixel it truncates to and the next one. -/
theorem sourceCoordinate_spec (htrunc : Truncates F) {srcSize : ℕ} (hsize : 0 < srcSize)
    (dst dstSize : ℕ) :
    FloatMath.toSize (sourceCoordinate dst srcSize dstSize : F) < srcSize ∧
      ((FloatMath.toSize (sourceCoordinate dst srcSize dstSize : F) : ℕ) : F) ≤
        sourceCoordinate dst srcSize dstSize ∧
      (sourceCoordinate dst srcSize dstSize : F) ≤
        ((FloatMath.toSize (sourceCoordinate dst srcSize dstSize : F) : ℕ) : F) + 1 := by
  have hlast : (0 : F) ≤ (srcSize : F) - 1 := by
    have hcast : (1 : F) ≤ srcSize := by exact_mod_cast hsize
    exact sub_nonneg.mpr hcast
  have hnonneg : (0 : F) ≤ sourceCoordinate dst srcSize dstSize := by
    rw [sourceCoordinate, stdMax_eq_max]
    exact le_max_left _ _
  have hle : (sourceCoordinate dst srcSize dstSize : F) ≤ (srcSize : F) - 1 := by
    rw [sourceCoordinate, stdMax_eq_max, stdMin_eq_min]
    exact max_le hlast (min_le_right _ _)
  rw [htrunc _ hnonneg]
  refine ⟨?_, Nat.floor_le hnonneg, (Nat.lt_floor_add_one _).le⟩
  exact (Nat.floor_lt hnonneg).mpr (hle.trans_lt (sub_lt_self _ one_pos))

/-- The position after a pixel, clamped to its axis. -/
theorem next_lt {i n : ℕ} (hn : 0 < n) : min i (n - 1) < n := by omega

variable {src : List F} {srcH srcW dstH dstW : ℕ}

theorem upsampledPixelChecked_eq (htrunc : Truncates F) (hH : 0 < srcH) (hW : 0 < srcW)
    (hlength : src.length = srcH * srcW) (y x : ℕ) :
    upsampledPixelChecked src srcH srcW dstH dstW y x =
      some (upsampledPixel src srcH srcW dstH dstW y x) := by
  have hread : ∀ {row column : ℕ}, row < srcH → column < srcW →
      src[row * srcW + column]? = some (src.getD (row * srcW + column) 0) := fun hrow hcolumn =>
    getElem?_eq_getD (hlength ▸ flat_lt hrow hcolumn) 0
  have hy := (sourceCoordinate_spec htrunc hH y dstH).1
  have hx := (sourceCoordinate_spec htrunc hW x dstW).1
  rw [upsampledPixelChecked]
  dsimp only
  rw [hread hy hx, hread hy (next_lt hW), hread (next_lt hH) hx, hread (next_lt hH) (next_lt hW)]
  rfl

theorem bilinearUpsampleChecked_eq (htrunc : Truncates F) (hlength : src.length = srcH * srcW) :
    bilinearUpsampleChecked src srcH srcW dstH dstW =
      some (bilinearUpsample src srcH srcW dstH dstW) := by
  rw [bilinearUpsampleChecked, bilinearUpsample]
  split_ifs with hempty
  · rfl
  · exact fillGrid_eq fun y _ x _ =>
      upsampledPixelChecked_eq htrunc (by omega) (by omega) hlength y x

omit [IsStrictOrderedRing F] [FloorSemiring F] in
theorem length_bilinearUpsample (hH : 0 < srcH) (hW : 0 < srcW) :
    (bilinearUpsample src srcH srcW dstH dstW).length = dstH * dstW := by
  rw [bilinearUpsample]
  split_ifs with hempty
  · have hzero : dstH * dstW = 0 := Nat.mul_eq_zero.mpr (by omega)
    exact hzero.symm
  · exact length_gridOf dstH dstW _

end Exact

section Blur

variable {F : Type*} [Field F] [FloatMath F]

theorem gaussianKernelChecked_eq (sigma : ℕ) :
    gaussianKernelChecked sigma = some (gaussianKernel sigma : List F) := by
  let size := 2 * (3 * sigma) + 1
  have hweights : ∀ i < size, some (gaussianWeight sigma i : F) = some (gaussianWeight sigma i) :=
    fun _ _ => rfl
  have hfill : fillLine size 0 (fun i => some (gaussianWeight sigma i)) (List.replicate size 0) =
      some ((List.range size).map (gaussianWeight sigma : ℕ → F)) := by
    simpa using fillLine_eq [] [] (0 : F) hweights
  rw [gaussianKernelChecked, hfill]
  rfl

omit [FloatMath F] in
theorem blurAtChecked_eq {n : ℕ} (hn : 0 < n) {line : ℕ → Option F} {value : ℕ → F}
    (hline : ∀ j < n, line j = some (value j)) (kernel : List F) (radius i : ℕ) :
    blurAtChecked kernel radius n line i = some (blurAt kernel radius n value i) := by
  let terms := kernel.zipIdx.map fun p => value (min (i + p.2 - radius) (n - 1)) * p.1
  have hlength : terms.length = kernel.length := by simp [terms]
  have hturn : ∀ k < kernel.length, (do
      return accumulate (terms.take k) +
        (← line (min (i + k - radius) (n - 1))) * (← kernel[k]?)) =
      some (accumulate (terms.take (k + 1))) := by
    intro k hk
    have hterm : terms[k]? = some (value (min (i + k - radius) (n - 1)) * kernel[k]) := by
      simp [terms, hk]
    rw [hline _ (next_lt hn), List.getElem?_eq_getElem hk, List.take_add_one, hterm, accumulate,
      accumulate, List.foldl_append]
    rfl
  have hloop : blurAtChecked kernel radius n line i =
      some (accumulate (terms.take kernel.length)) :=
    loop_eq (fun k => accumulate (terms.take k)) hturn
  rw [hloop, ← hlength, List.take_length]
  rfl

/-- Every access of a blur is to an entry of the image, of the first pass or of the kernel. -/
theorem gaussianBlurChecked_eq {src : List F} {h w : ℕ} (hlength : src.length = h * w) (sigma : ℕ) :
    gaussianBlurChecked src h w sigma = some (gaussianBlur src h w sigma) := by
  rw [gaussianBlurChecked, gaussianBlur]
  split_ifs with hempty hsigma hshort
  · rfl
  · rfl
  · exact absurd hlength.ge hshort
  · have hrow : ∀ y < h, ∀ j < w, src[y * w + j]? = some (src.getD (y * w + j) 0) := fun y hy j hj =>
      getElem?_eq_getD (hlength ▸ flat_lt hy hj) 0
    let kernel : List F := gaussianKernel sigma
    let temp := gridOf h w fun y x =>
      blurAt kernel (3 * sigma) w (fun sx => src.getD (y * w + sx) 0) x
    have htemp : fillGrid h w 0 (fun y x =>
        blurAtChecked kernel (3 * sigma) w (fun sx => src[y * w + sx]?) x) = some temp :=
      fillGrid_eq fun y hy x _ => blurAtChecked_eq (by omega) (hrow y hy) kernel _ x
    have hcolumn : ∀ x < w, ∀ j < h, temp[j * w + x]? = some (temp.getD (j * w + x) 0) :=
      fun x hx j hj => getElem?_eq_getD ((length_gridOf h w _).symm ▸ flat_lt hj hx) 0
    rw [gaussianKernelChecked_eq]
    change (fillGrid h w 0 (fun y x =>
      blurAtChecked kernel (3 * sigma) w (fun sx => src[y * w + sx]?) x)).bind _ = _
    rw [htemp]
    exact fillGrid_eq fun y _ x hx => blurAtChecked_eq (by omega) (hcolumn x hx) kernel _ y

end Blur

end SurfaceAi.Detection
