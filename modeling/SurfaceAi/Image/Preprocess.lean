import SurfaceAi.Core.Error
import SurfaceAi.Core.Image
import SurfaceAi.Library.Double
import SurfaceAi.Library.Stores

/-! The preprocessing chain: each step rewrites the buffer of an image or allocates one of its
own size. Positions are computed in machine arithmetic, and an access outside of a buffer is
undefined. -/

namespace SurfaceAi.Images

open Double Stores

/-- What the platform decides: how doubles round, the byte that a NaN is converted to, and which
allocations succeed. -/
structure Machine extends Rounding where
  nanByte : UInt8
  allocates : ℕ → Bool

/-- How a step ends. A failed allocation throws. -/
inductive StepEnd where
  | outOfBounds
  | badAlloc
  | returned (result : Result Image)

structure CalibrationParams where
  cameraMatrix : Fin 9 → Double
  distCoeffs : Fin 5 → Double

inductive PreprocessStep where
  | debayer
  | flatField (correctionFrame : Image)
  | whiteBalance (rGain gGain bGain : Double)
  | resize (targetWidth targetHeight : ℕ)
  | calibration (params : CalibrationParams)
  | hdr (numExposures : ℕ)

/-- `n - 1` of a `size_t`. -/
def pred64 (n : ℕ) : ℕ := if n = 0 then 2 ^ 64 - 1 else n - 1

variable (m : Machine)

/-- `static_cast<double>` of a byte. -/
def ofByte (b : UInt8) : Double := ofNat m.toRounding b.toNat

def clampU8 (v : Double) : UInt8 :=
  if lt v (.finite 0) then 0
  else if lt (.finite 255) v then 255
  else
    match v.truncate with
    | some n => UInt8.ofNat n
    | none => m.nanByte

/-! ### Buffers -/

/-- The stores of a loop into a buffer that is allocated for them, of which an image is made. -/
def intoNewBuffer (size : ℕ) (imageMeta : ImageMeta) (index : ℕ × ℕ × ℕ → ℕ)
    (value : ℕ × ℕ × ℕ → Option UInt8) (samples : List (ℕ × ℕ × ℕ)) : StepEnd :=
  if m.allocates size then
    match storeAll index (fun _ => value) samples (List.replicate size 0) with
    | some bytes => .returned (.ok ⟨imageMeta, bytes⟩)
    | none => .outOfBounds
  else .badAlloc

/-- The stores of a loop into the image's own buffer. -/
def inPlace {ι : Type} (img : Image) (index : ι → ℕ)
    (value : List UInt8 → ι → Option UInt8) (xs : List ι) : StepEnd :=
  match storeAll index value xs img.bytes with
  | some bytes => .returned (.ok { img with bytes := bytes })
  | none => .outOfBounds

/-- A loop over the first bytes of a buffer. -/
def foldBytes {σ : Type} (f : σ → UInt8 → σ) (bytes : List UInt8) (n : ℕ) (start : σ) : Option σ :=
  (List.range n).foldlM (fun acc i => (bytes[i]?).map (f acc)) start

/-! ### The steps -/

/-- Each quad of four takes its red, green and blue from its corners. -/
def makeDebayer (img : Image) : StepEnd :=
  if img.imageMeta.pixelFormat ≠ .bayerRG8 then .returned (.ok img)
  else
    let w := img.imageMeta.width
    let h := img.imageMeta.height
    intoNewBuffer m (w * h * 3 % 2 ^ 64)
      { img.imageMeta with channels := 3, pixelFormat := .rgb8 }
      (fun z => (z.1 * w + z.2.1) * 3 % 2 ^ 64 + z.2.2)
      (fun z =>
        -- the even row and column at or before the sample's, and the next ones
        let qr := z.1 / 2 * 2
        let qr1 := Nat.min (qr + 1) (pred64 h)
        let qc := z.2.1 / 2 * 2
        let qc1 := Nat.min (qc + 1) (pred64 w)
        match z.2.2 with
        | 0 => img.bytes[(qr * w + qc) % 2 ^ 64]?
        | 1 => img.bytes[(qr * w + qc1) % 2 ^ 64]?
        | _ => img.bytes[(qr1 * w + qc1) % 2 ^ 64]?)
      (grid w h 3)

/-- A sample whose correction is zero is left as it is. -/
def makeFlatField (correctionFrame img : Image) : StepEnd :=
  if img.imageMeta.width ≠ correctionFrame.imageMeta.width ∨
      img.imageMeta.height ≠ correctionFrame.imageMeta.height ∨
      img.bytes.length ≠ correctionFrame.bytes.length then
    .returned (fail .imageDimensionMismatch
      "FlatField correction frame dimensions do not match input")
  else
    let n := img.bytes.length
    match foldBytes (fun sum b => (sum + b.toNat) % 2 ^ 64) correctionFrame.bytes n 0 with
    | none => .outOfBounds
    | some sum =>
      let refMean := if n = 0 then .finite 0
        else div m.toRounding (ofNat m.toRounding sum) (ofNat m.toRounding n)
      inPlace img id
        (fun out i =>
          match correctionFrame.bytes[i]?, out[i]? with
          | some c, some v => some (clampU8 m
              (div m.toRounding (mul m.toRounding (ofByte m v) refMean) (ofByte m c)))
          | _, _ => none)
        ((List.range n).filter fun i => correctionFrame.bytes[i]? ≠ some 0)

def makeWhiteBalance (rGain gGain bGain : Double) (img : Image) : StepEnd :=
  if img.imageMeta.pixelFormat ≠ .rgb8 ∧ img.imageMeta.pixelFormat ≠ .bgr8 then
    .returned (fail .imageUnsupportedPixelFormat "WhiteBalance requires RGB8 or BGR8 pixel format")
  else
    let gain : ℕ → Double := fun k =>
      if img.imageMeta.pixelFormat = .rgb8 then
        match k with
        | 0 => rGain
        | 1 => gGain
        | _ => bGain
      else
        match k with
        | 0 => bGain
        | 1 => gGain
        | _ => rGain
    inPlace img (fun z : ℕ × ℕ × ℕ => z.2.1 * 3 + z.2.2)
      (fun data z => (data[z.2.1 * 3 + z.2.2]?).map fun v =>
        clampU8 m (mul m.toRounding (ofByte m v) (gain z.2.2)))
      (grid (img.bytes.length / 3) 1 3)

/-- The four samples around a position, each weighted with its nearness. The position is truncated
to the sample before it. -/
def bilinear (bytes : List UInt8) (w h c : ℕ) (sx sy : Double) (ch : ℕ) : Option UInt8 := do
  let x0 ← sx.truncate
  let y0 ← sy.truncate
  let x1 := Nat.min ((x0 + 1) % 2 ^ 64) (pred64 w)
  let y1 := Nat.min ((y0 + 1) % 2 ^ 64) (pred64 h)
  let v00 ← bytes[((y0 * w + x0) * c + ch) % 2 ^ 64]?
  let v10 ← bytes[((y0 * w + x1) * c + ch) % 2 ^ 64]?
  let v01 ← bytes[((y1 * w + x0) * c + ch) % 2 ^ 64]?
  let v11 ← bytes[((y1 * w + x1) * c + ch) % 2 ^ 64]?
  let r := m.toRounding
  let fx := sub r sx (ofNat r x0)
  let fy := sub r sy (ofNat r y0)
  let gx := sub r (.finite 1) fx
  let gy := sub r (.finite 1) fy
  let weighted := fun (a b : Double) (v : UInt8) => mul r (mul r a b) (ofByte m v)
  return clampU8 m (add r (add r (add r (weighted gx gy v00) (weighted fx gy v10))
    (weighted gx fy v01)) (weighted fx fy v11))

/-- The position of an output pixel's centre in the source, along one side. -/
def resizePosition (source target o : ℕ) : Double :=
  let r := m.toRounding
  let s := sub r (div r (mul r (add r (ofNat r o) (.finite (1 / 2))) (ofNat r source))
    (ofNat r target)) (.finite (1 / 2))
  max (.finite 0) (min s (sub r (ofNat r source) (.finite 1)))

def makeResize (targetWidth targetHeight : ℕ) (img : Image) : StepEnd :=
  let c := img.imageMeta.channels
  if targetWidth = 0 ∨ targetHeight = 0 then
    .returned (fail .imagePreprocessFailed "Resize target dimensions must be > 0")
  else if c ≠ 1 ∧ c ≠ 3 then
    .returned (fail .imageUnsupportedPixelFormat "Resize supports 1 or 3 channel images only")
  else
    let sw := img.imageMeta.width
    let sh := img.imageMeta.height
    intoNewBuffer m (targetWidth * targetHeight * c % 2 ^ 64)
      { img.imageMeta with width := targetWidth, height := targetHeight }
      (fun z => (z.1 * targetWidth + z.2.1) * c % 2 ^ 64 + z.2.2)
      (fun z => bilinear m img.bytes sw sh c (resizePosition m sw targetWidth z.2.1)
        (resizePosition m sh targetHeight z.1) z.2.2)
      (grid targetWidth targetHeight c)

namespace CalibrationParams

variable (params : CalibrationParams)

/-- The Brown-Conrady model: where in the source a pixel of the undistorted image is. -/
def sourcePosition (dx dy : ℕ) : Double × Double :=
  let r := m.toRounding
  let fx := params.cameraMatrix 0
  let fy := params.cameraMatrix 4
  let cx := params.cameraMatrix 2
  let cy := params.cameraMatrix 5
  let k1 := params.distCoeffs 0
  let k2 := params.distCoeffs 1
  let p1 := params.distCoeffs 2
  let p2 := params.distCoeffs 3
  let k3 := params.distCoeffs 4
  let two := Double.finite 2
  let xn := div r (sub r (ofNat r dx) cx) fx
  let yn := div r (sub r (ofNat r dy) cy) fy
  let r2 := add r (mul r xn xn) (mul r yn yn)
  let r4 := mul r r2 r2
  let r6 := mul r r4 r2
  let radial := add r (add r (add r (.finite 1) (mul r k1 r2)) (mul r k2 r4)) (mul r k3 r6)
  let xTang := add r (mul r (mul r (mul r two p1) xn) yn)
    (mul r p2 (add r r2 (mul r (mul r two xn) xn)))
  let yTang := add r (mul r p1 (add r r2 (mul r (mul r two yn) yn)))
    (mul r (mul r (mul r two p2) xn) yn)
  let xd := add r (mul r xn radial) xTang
  let yd := add r (mul r yn radial) yTang
  (add r (mul r xd fx) cx, add r (mul r yd fy) cy)

end CalibrationParams

/-- A position that is compared to be outside of the image. A NaN is not. -/
def outside (w h : ℕ) (s : Double × Double) : Bool :=
  lt s.1 (.finite 0) || lt s.2 (.finite 0) || le (ofNat m.toRounding w) s.1 ||
    le (ofNat m.toRounding h) s.2

def makeCalibration (params : CalibrationParams) (img : Image) : StepEnd :=
  let w := img.imageMeta.width
  let h := img.imageMeta.height
  let c := img.imageMeta.channels
  intoNewBuffer m (w * h * c % 2 ^ 64) img.imageMeta
    (fun z => (z.1 * w + z.2.1) * c % 2 ^ 64 + z.2.2)
    (fun z =>
      let s := params.sourcePosition m z.2.1 z.1
      if outside m w h s then some 0 else bilinear m img.bytes w h c s.1 s.2 z.2.2)
    (grid w h c)

/-- The values are stretched from the least and the greatest to the whole range. -/
def makeHDR (numExposures : ℕ) (img : Image) : StepEnd :=
  if numExposures = 0 then
    .returned (fail .imagePreprocessFailed "MakeHDR requires num_exposures > 0")
  else
    let n := img.bytes.length
    if n = 0 then .returned (.ok img)
    else
      match foldBytes (fun (acc : UInt8 × UInt8) b =>
          (if b < acc.1 then b else acc.1, if acc.2 < b then b else acc.2))
          img.bytes n (255, 0) with
      | none => .outOfBounds
      | some (minVal, maxVal) =>
        if minVal = maxVal then .returned (.ok img)
        else
          let r := m.toRounding
          let range := sub r (ofByte m maxVal) (ofByte m minVal)
          inPlace img id
            (fun data i => (data[i]?).map fun v => clampU8 m
              (div r (mul r (.finite 255) (sub r (ofByte m v) (ofByte m minVal))) range))
            (List.range n)

def PreprocessStep.run : PreprocessStep → Image → StepEnd
  | .debayer => makeDebayer m
  | .flatField correctionFrame => makeFlatField m correctionFrame
  | .whiteBalance rGain gGain bGain => makeWhiteBalance m rGain gGain bGain
  | .resize targetWidth targetHeight => makeResize m targetWidth targetHeight
  | .calibration params => makeCalibration m params
  | .hdr numExposures => makeHDR m numExposures

/-- `Compose`: the first step that fails ends the chain. -/
def compose : List PreprocessStep → Image → StepEnd
  | [], img => .returned (.ok img)
  | step :: steps, img =>
    match step.run m img with
    | .returned (.ok next) => compose steps next
    | stopped => stopped

/-! ### What is asked of a chain -/

/-- `SizeBytes() = ByteSize(Meta())`, in machine arithmetic. -/
def Matches (img : Image) : Prop := img.bytes.length = img.imageMeta.byteSize % 2 ^ 64

/-- A step stays inside its buffers, and the image it returns matches its metadata. -/
def StepEnd.Sound : StepEnd → Prop
  | .outOfBounds => False
  | .returned (.ok img) => Matches img
  | _ => True

/-- Every step that is reached is sound. -/
def ChainSound : List PreprocessStep → Image → Prop
  | [], _ => True
  | step :: steps, img => (step.run m img).Sound ∧
      ∀ next, step.run m img = .returned (.ok next) → ChainSound steps next

end SurfaceAi.Images
