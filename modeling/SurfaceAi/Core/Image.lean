import Mathlib.Data.Nat.Notation

/-! Images as the pipeline hands them on: the metadata and the pixel bytes. Only the
metadata a modelled function reads is kept. -/

namespace SurfaceAi

inductive PixelFormat where
  | mono8 | mono10 | mono12 | mono16
  | bayerRG8 | bayerRG10 | bayerRG12 | bayerRG16
  | rgb8 | bgr8 | rgb16
  | undefined
  deriving DecidableEq, Repr

structure ImageMeta where
  width : ℕ := 0
  height : ℕ := 0
  channels : ℕ := 0
  pixelFormat : PixelFormat := .undefined
  surfaceId : String := ""
  positionId : ℕ := 0
  deriving DecidableEq, Repr

/-- Ten- and twelve-bit samples are packed into two bytes. -/
def bytesPerChannel : PixelFormat → ℕ
  | .mono10 | .mono12 | .bayerRG10 | .bayerRG12 | .mono16 | .bayerRG16 | .rgb16 => 2
  | _ => 1

def ImageMeta.byteSize (m : ImageMeta) : ℕ :=
  m.width * m.height * (m.channels * bytesPerChannel m.pixelFormat)

/-- A buffer with its metadata; raw, surface and GPU images differ only in where it lives. -/
structure Image where
  imageMeta : ImageMeta
  bytes : List UInt8
  deriving DecidableEq, Repr

end SurfaceAi
