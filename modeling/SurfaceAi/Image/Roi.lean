import Mathlib.Tactic.NormNum
import SurfaceAi.Core.Error
import SurfaceAi.Core.Image
import SurfaceAi.Library.OrderStatistics
import SurfaceAi.Library.Stores

/-! Regions of interest: the box around all regions, and the crop to the first one. Coordinates are
words of 64 bits whose sums wrap around. -/

namespace SurfaceAi.Images

open Stores

structure Rect where
  x : UInt64 := 0
  y : UInt64 := 0
  width : UInt64 := 0
  height : UInt64 := 0
  deriving DecidableEq

structure Roi where
  regions : List Rect

def bytesPerPixel (im : ImageMeta) : ℕ := im.channels * bytesPerChannel im.pixelFormat % 2 ^ 64

/-! ### The box -/

def least (first : UInt64) (words : List UInt64) : UInt64 :=
  words.foldl (Extremes.keep (· < ·)) first

def greatest (first : UInt64) (words : List UInt64) : UInt64 :=
  words.foldl (Extremes.keep fun x kept => kept < x) first

namespace Roi

variable (roi : Roi)

def boundingBox : Rect :=
  match roi.regions with
  | [] => {}
  | front :: _ =>
    let minX := least front.x (roi.regions.map Rect.x)
    let minY := least front.y (roi.regions.map Rect.y)
    let maxX := greatest (front.x + front.width) (roi.regions.map fun r => r.x + r.width)
    let maxY := greatest (front.y + front.height) (roi.regions.map fun r => r.y + r.height)
    ⟨minX, minY, maxX - minX, maxY - minY⟩

/-! ### The crop -/

/-- The test that lets a region through. -/
def Admits (im : ImageMeta) (region : Rect) : Prop :=
  ¬ (region.width = 0 ∨ region.height = 0 ∨ im.width < (region.x + region.width).toNat ∨
    im.height < (region.y + region.height).toNat)

instance (im : ImageMeta) (region : Rect) : Decidable (Admits im region) :=
  inferInstanceAs (Decidable (¬ _))

/-- The rows of the region are copied one after another into a new buffer; nothing when a copy
leaves one of the buffers. -/
def crop (src : Image) (region : Rect) : Option Image :=
  let im := src.imageMeta
  let srcStride := im.width * bytesPerPixel im % 2 ^ 64
  let dstStride := region.width.toNat * bytesPerPixel im % 2 ^ 64
  (storeAll (fun z => z.1 * dstStride % 2 ^ 64 + z.2.2)
    (fun _ z => src.bytes[((region.y.toNat + z.1) * srcStride + region.x.toNat * bytesPerPixel im) %
      2 ^ 64 + z.2.2]?)
    (grid 1 region.height.toNat dstStride)
    (List.replicate (dstStride * region.height.toNat % 2 ^ 64) 0)).map fun bytes =>
      ⟨{ im with width := region.width.toNat, height := region.height.toNat }, bytes⟩

/-- `ROI::Apply`: only the first region is cropped. -/
def apply (src : Image) : Option (Result Image) :=
  match roi.regions with
  | [] => some (fail .imageDimensionMismatch "ROI has no regions to apply")
  | region :: _ =>
    if Admits src.imageMeta region then (crop src region).map .ok
    else some (fail .imageDimensionMismatch "ROI region exceeds source image bounds")

end Roi

/-! ### What is asked -/

/-- The image has its metadata in words, and the buffer of its size in machine arithmetic. -/
structure Sized (img : Image) : Prop where
  width_lt : img.imageMeta.width < 2 ^ 64
  height_lt : img.imageMeta.height < 2 ^ 64
  size_eq : img.bytes.length = img.imageMeta.byteSize % 2 ^ 64

/-- A byte of the pixel at a row and a column. -/
def pixelByte (img : Image) (row col k : ℕ) : Option UInt8 :=
  img.bytes[(row * img.imageMeta.width + col) * bytesPerPixel img.imageMeta + k]?

namespace Rect

variable (r outer : Rect)

/-- The region is not empty and lies in the image. -/
structure Inside (im : ImageMeta) : Prop where
  width_pos : 0 < r.width.toNat
  height_pos : 0 < r.height.toNat
  right_le : r.x.toNat + r.width.toNat ≤ im.width
  bottom_le : r.y.toNat + r.height.toNat ≤ im.height

structure Within : Prop where
  left : outer.x.toNat ≤ r.x.toNat
  right : r.x.toNat + r.width.toNat ≤ outer.x.toNat + outer.width.toNat
  top : outer.y.toNat ≤ r.y.toNat
  bottom : r.y.toNat + r.height.toNat ≤ outer.y.toNat + outer.height.toNat

end Rect

/-- The pixels of the region, with its width and height. -/
structure IsCrop (src : Image) (region : Rect) (out : Image) : Prop where
  imageMeta_eq : out.imageMeta =
    { src.imageMeta with width := region.width.toNat, height := region.height.toNat }
  length_eq : out.bytes.length =
    region.width.toNat * region.height.toNat * bytesPerPixel src.imageMeta
  pixel_eq : ∀ row < region.height.toNat, ∀ col < region.width.toNat,
    ∀ k < bytesPerPixel src.imageMeta, ∃ b, pixelByte out row col k = some b ∧
      pixelByte src (region.y.toNat + row) (region.x.toNat + col) k = some b

namespace Roi

/-- The first region is cropped exactly when it lies in the image, otherwise it is refused; and the
box contains every region. -/
structure Exact (roi : Roi) (src : Image) : Prop where
  crops : ∀ region, roi.regions.head? = some region → region.Inside src.imageMeta →
    ∃ out, roi.apply src = some (.ok out) ∧ IsCrop src region out
  refuses : (∀ region, roi.regions.head? = some region → ¬ region.Inside src.imageMeta) →
    ∃ message, roi.apply src = some (fail .imageDimensionMismatch message)
  contains : ∀ r ∈ roi.regions, r.Within roi.boundingBox

/-- Along one side either no region reaches the end of the words, or every one does, and wraps
around to before the start of each. -/
def SideFits (start length : Rect → UInt64) (regions : List Rect) : Prop :=
  (∀ r ∈ regions, (start r).toNat + (length r).toNat < 2 ^ 64) ∨
    ∀ r ∈ regions, 2 ^ 64 ≤ (start r).toNat + (length r).toNat ∧
      ∀ r' ∈ regions, start r + length r < start r'

/-- The sums of the first region do not wrap around, and it ends inside the buffer. -/
structure EndsInside (src : Image) (region : Rect) : Prop where
  right_lt : region.x.toNat + region.width.toNat < 2 ^ 64
  bottom_lt : region.y.toNat + region.height.toNat < 2 ^ 64
  last_le : ((region.y.toNat + region.height.toNat - 1) * src.imageMeta.width + region.x.toNat +
    region.width.toNat) * bytesPerPixel src.imageMeta ≤ src.bytes.length

/-- When regions can be trusted. -/
structure Fits (roi : Roi) (src : Image) : Prop where
  first : ∀ region, roi.regions.head? = some region → Admits src.imageMeta region →
    EndsInside src region
  columns : SideFits Rect.x Rect.width roi.regions
  rows : SideFits Rect.y Rect.height roi.regions

end Roi


/-! ### The box around regions -/

section Side

variable {first : UInt64} {words : List UInt64} {v : UInt64}

theorem least_le (hv : v ∈ first :: words) : least first words ≤ v :=
  UInt64.not_lt.mp (Extremes.not_before_foldl_keep (· < ·) UInt64.lt_trans UInt64.lt_irrefl words
    first v hv)

theorem le_greatest (hv : v ∈ first :: words) : v ≤ greatest first words :=
  UInt64.not_lt.mp (Extremes.not_before_foldl_keep (fun x kept => kept < x)
    (fun h h' => UInt64.lt_trans h' h) UInt64.lt_irrefl words first v hv)

theorem least_mem (first : UInt64) (words : List UInt64) : least first words ∈ first :: words := by
  obtain hfirst | hmem := Extremes.foldl_keep_mem (· < ·) words first
  · exact List.mem_cons.mpr (.inl hfirst)
  · exact List.mem_cons_of_mem first hmem

theorem greatest_mem (first : UInt64) (words : List UInt64) :
    greatest first words ∈ first :: words := by
  obtain hfirst | hmem := Extremes.foldl_keep_mem (fun x kept => kept < x) words first
  · exact List.mem_cons.mpr (.inl hfirst)
  · exact List.mem_cons_of_mem first hmem

/-- Along one side, the box reaches from the least start to the greatest end exactly when the
regions fit. -/
theorem side_contains_iff {start length : Rect → UInt64} {front : Rect} {rest : List Rect} :
    (∀ r ∈ front :: rest,
      (least (start front) ((front :: rest).map start)).toNat ≤ (start r).toNat ∧
      (start r).toNat + (length r).toNat ≤
        (least (start front) ((front :: rest).map start)).toNat +
          (greatest (start front + length front)
            ((front :: rest).map fun r => start r + length r) -
            least (start front) ((front :: rest).map start)).toNat) ↔
      Roi.SideFits start length (front :: rest) := by
  set low := least (start front) ((front :: rest).map start) with hlow
  set high := greatest (start front + length front)
    ((front :: rest).map fun r => start r + length r) with hhigh
  have hlowLe : ∀ r ∈ front :: rest, low.toNat ≤ (start r).toNat := fun r hr =>
    UInt64.le_iff_toNat_le.mp (least_le (List.mem_cons_of_mem _ (List.mem_map_of_mem hr)))
  have hleHigh : ∀ r ∈ front :: rest, (start r + length r).toNat ≤ high.toNat := fun r hr =>
    UInt64.le_iff_toNat_le.mp (le_greatest (List.mem_cons_of_mem _
      (List.mem_map_of_mem (f := fun r => start r + length r) hr)))
  have hlowMem : ∃ r ∈ front :: rest, start r = low := by
    obtain hfirst | hmem := List.mem_cons.mp (least_mem (start front) ((front :: rest).map start))
    · exact ⟨front, List.mem_cons_self, hfirst.symm⟩
    · exact List.mem_map.mp hmem
  have hhighMem : ∃ r ∈ front :: rest, start r + length r = high := by
    obtain hfirst | hmem := List.mem_cons.mp (greatest_mem (start front + length front)
      ((front :: rest).map fun r => start r + length r))
    · exact ⟨front, List.mem_cons_self, hfirst.symm⟩
    · exact List.mem_map.mp hmem
  have hend : ∀ r, (start r + length r).toNat =
      ((start r).toNat + (length r).toNat) % 2 ^ 64 := fun r => UInt64.toNat_add _ _
  have hwidth : (high - low).toNat = (2 ^ 64 - low.toNat + high.toNat) % 2 ^ 64 :=
    UInt64.toNat_sub _ _
  have hlowLt := low.toNat_lt
  have hhighLt := high.toNat_lt
  constructor
  · intro hbox
    by_cases hfits : ∀ r ∈ front :: rest, (start r).toNat + (length r).toNat < 2 ^ 64
    · exact .inl hfits
    · push Not at hfits
      obtain ⟨wrapped, hwrapped, hends⟩ := hfits
      -- the box is as wide as only a wrapped difference can be
      have hbefore : high.toNat < low.toNat := by
        have hright := (hbox wrapped hwrapped).2
        by_contra hafter
        omega
      refine .inr fun r hr => ?_
      have hall : ∀ r' ∈ front :: rest, (start r + length r).toNat < (start r').toNat := by
        intro r' hr'
        have hle := hleHigh r hr
        have hge := hlowLe r' hr'
        omega
      constructor
      · have hself := hall r hr
        rw [hend r] at hself
        omega
      · intro r' hr'
        exact UInt64.lt_iff_toNat_lt.mpr (hall r' hr')
  · rintro (hfits | hwraps) r hr
    · refine ⟨hlowLe r hr, ?_⟩
      have hfront := hleHigh front List.mem_cons_self
      have hstart := hlowLe front List.mem_cons_self
      have hfit := hfits front List.mem_cons_self
      have hright := hleHigh r hr
      have hrfit := hfits r hr
      rw [hend] at hfront hright
      omega
    · refine ⟨hlowLe r hr, ?_⟩
      obtain ⟨first, hfirst, hfirstEq⟩ := hlowMem
      obtain ⟨last, hlast, hlastEq⟩ := hhighMem
      have hbefore := UInt64.lt_iff_toNat_lt.mp ((hwraps last hlast).2 first hfirst)
      rw [hfirstEq, hlastEq] at hbefore
      have hright := hleHigh r hr
      have hrwraps := (hwraps r hr).1
      have hx := (start r).toNat_lt
      have hw := (length r).toNat_lt
      rw [hend] at hright
      omega

end Side

theorem Roi.contains_iff (roi : Roi) :
    (∀ r ∈ roi.regions, r.Within roi.boundingBox) ↔
      SideFits Rect.x Rect.width roi.regions ∧ SideFits Rect.y Rect.height roi.regions := by
  obtain ⟨regions⟩ := roi
  cases regions with
  | nil => exact ⟨fun _ => ⟨.inl (by simp), .inl (by simp)⟩, fun _ r hr => absurd hr (by simp)⟩
  | cons front rest =>
    rw [← side_contains_iff, ← side_contains_iff]
    constructor
    · intro h
      exact ⟨fun r hr => ⟨(h r hr).left, (h r hr).right⟩,
        fun r hr => ⟨(h r hr).top, (h r hr).bottom⟩⟩
    · rintro ⟨hx, hy⟩ r hr
      exact ⟨(hx r hr).1, (hx r hr).2, (hy r hr).1, (hy r hr).2⟩

/-! ### The crop -/

section Crop

variable {src : Image} {region : Rect}

theorem Rect.Inside.admits (h : region.Inside src.imageMeta) (hsrc : Sized src) :
    Roi.Admits src.imageMeta region := by
  have hw := h.width_pos
  have hh := h.height_pos
  have hright := h.right_le
  have hbottom := h.bottom_le
  have hwlt := hsrc.width_lt
  have hhlt := hsrc.height_lt
  rintro (hzero | hzero | hover | hover)
  · rw [hzero] at hw
    exact absurd hw (by decide)
  · rw [hzero] at hh
    exact absurd hh (by decide)
  · rw [UInt64.toNat_add] at hover
    omega
  · rw [UInt64.toNat_add] at hover
    omega

theorem Rect.Inside.of_admits (h : Roi.Admits src.imageMeta region)
    (hends : Roi.EndsInside src region) : region.Inside src.imageMeta := by
  simp only [Roi.Admits, not_or, not_lt] at h
  obtain ⟨hw, hh, hright, hbottom⟩ := h
  have hrlt := hends.right_lt
  have hblt := hends.bottom_lt
  rw [UInt64.toNat_add] at hright hbottom
  refine ⟨Nat.pos_of_ne_zero fun hzero => hw (UInt64.toNat_inj.mp hzero),
    Nat.pos_of_ne_zero fun hzero => hh (UInt64.toNat_inj.mp hzero), ?_, ?_⟩
  · omega
  · omega

theorem Sized.length_lt (hsrc : Sized src) : src.bytes.length < 2 ^ 64 :=
  hsrc.size_eq ▸ Nat.mod_lt _ (by norm_num)

/-- A row of the region is in the buffer. -/
theorem row_le (hends : Roi.EndsInside src region) {row : ℕ} (hrow : row < region.height.toNat) :
    ((region.y.toNat + row) * src.imageMeta.width + region.x.toNat) * bytesPerPixel src.imageMeta +
      region.width.toNat * bytesPerPixel src.imageMeta ≤ src.bytes.length := by
  have hrows : (region.y.toNat + row) * src.imageMeta.width ≤
      (region.y.toNat + region.height.toNat - 1) * src.imageMeta.width :=
    Nat.mul_le_mul_right _ (by omega)
  rw [← Nat.add_mul]
  exact (Nat.mul_le_mul_right _ (by omega)).trans hends.last_le

/-- The offset that is computed for a row is where the row starts. -/
theorem rowOffset_eq (hends : Roi.EndsInside src region) (hsrc : Sized src) {row : ℕ}
    (hrow : row < region.height.toNat) :
    ((region.y.toNat + row) * (src.imageMeta.width * bytesPerPixel src.imageMeta % 2 ^ 64) +
        region.x.toNat * bytesPerPixel src.imageMeta) % 2 ^ 64 =
      ((region.y.toNat + row) * src.imageMeta.width + region.x.toNat) *
        bytesPerPixel src.imageMeta := by
  have hle := row_le hends hrow
  have hlt := hsrc.length_lt
  rw [Nat.add_mod, Nat.mul_mod, Nat.mod_mod, ← Nat.mul_mod, ← Nat.add_mod, ← Nat.mul_assoc,
    ← Nat.add_mul, Nat.mod_eq_of_lt (by omega)]

/-- The region is not larger than the buffer. -/
theorem regionSize_lt (hinside : region.Inside src.imageMeta) (hends : Roi.EndsInside src region)
    (hsrc : Sized src) :
    region.width.toNat * bytesPerPixel src.imageMeta * region.height.toNat < 2 ^ 64 := by
  have hh := hinside.height_pos
  have hright := hinside.right_le
  have hrows : (region.height.toNat - 1) * region.width.toNat ≤
      (region.y.toNat + region.height.toNat - 1) * src.imageMeta.width :=
    Nat.mul_le_mul (by omega) (by omega)
  have hpixels : region.width.toNat * region.height.toNat ≤
      (region.y.toNat + region.height.toNat - 1) * src.imageMeta.width + region.x.toNat +
        region.width.toNat := by
    rw [Nat.sub_one_mul, Nat.mul_comm region.height.toNat] at hrows
    omega
  calc region.width.toNat * bytesPerPixel src.imageMeta * region.height.toNat
      = region.width.toNat * region.height.toNat * bytesPerPixel src.imageMeta :=
        Nat.mul_right_comm ..
    _ ≤ _ := Nat.mul_le_mul_right _ hpixels
    _ ≤ src.bytes.length := hends.last_le
    _ < 2 ^ 64 := hsrc.length_lt

/-- A region that ends inside the buffer is cropped. -/
theorem crop_eq (hinside : region.Inside src.imageMeta) (hends : Roi.EndsInside src region)
    (hsrc : Sized src) : ∃ out, Roi.crop src region = some out ∧ IsCrop src region out := by
  have hsize := regionSize_lt hinside hends hsrc
  have hstride : region.width.toNat * bytesPerPixel src.imageMeta < 2 ^ 64 :=
    (Nat.le_mul_of_pos_right _ hinside.height_pos).trans_lt hsize
  obtain ⟨bytes, hbytes, hlength, hrows⟩ := exists_copyRows
    (fun row => ((region.y.toNat + row) *
      (src.imageMeta.width * bytesPerPixel src.imageMeta % 2 ^ 64) +
        region.x.toNat * bytesPerPixel src.imageMeta) % 2 ^ 64) src.bytes 0 hsize
    fun row hrow => by
      rw [rowOffset_eq hends hsrc hrow]
      exact row_le hends hrow
  refine ⟨⟨{ src.imageMeta with width := region.width.toNat, height := region.height.toNat }, bytes⟩,
    ?_, rfl, ?_, ?_⟩
  · rw [Roi.crop, Nat.mod_eq_of_lt hstride, hbytes]
    rfl
  · rw [hlength, Nat.mul_right_comm]
  · intro row hrow col hcol k hk
    have hbyte : col * bytesPerPixel src.imageMeta + k <
        region.width.toNat * bytesPerPixel src.imageMeta := by
      have hlast := Nat.mul_le_mul_right (bytesPerPixel src.imageMeta) (Nat.succ_le_of_lt hcol)
      rw [Nat.succ_mul] at hlast
      omega
    have hcopied := hrows row hrow _ hbyte
    rw [rowOffset_eq hends hsrc hrow] at hcopied
    have hle := row_le hends hrow
    have hout : (row * region.width.toNat + col) * bytesPerPixel src.imageMeta + k =
        row * (region.width.toNat * bytesPerPixel src.imageMeta) +
          (col * bytesPerPixel src.imageMeta + k) := by
      rw [Nat.add_mul, Nat.mul_assoc, Nat.add_assoc]
    have hsource : ((region.y.toNat + row) * src.imageMeta.width + (region.x.toNat + col)) *
        bytesPerPixel src.imageMeta + k =
        ((region.y.toNat + row) * src.imageMeta.width + region.x.toNat) *
          bytesPerPixel src.imageMeta + (col * bytesPerPixel src.imageMeta + k) := by
      rw [← Nat.add_assoc, Nat.add_mul, Nat.add_assoc]
    obtain ⟨v, hread⟩ : ∃ v, src.bytes[((region.y.toNat + row) * src.imageMeta.width +
        region.x.toNat) * bytesPerPixel src.imageMeta + (col * bytesPerPixel src.imageMeta + k)]? =
          some v :=
      ⟨_, List.getElem?_eq_getElem (by omega)⟩
    refine ⟨v, ?_, ?_⟩
    · exact (congrArg (bytes[·]?) hout).trans (hcopied.trans hread)
    · exact (congrArg (src.bytes[·]?) hsource).trans hread

/-- The last pixel of a cropped region is in the buffer. -/
theorem IsCrop.last_le {out : Image} (h : IsCrop src region out)
    (hinside : region.Inside src.imageMeta) :
    ((region.y.toNat + region.height.toNat - 1) * src.imageMeta.width + region.x.toNat +
      region.width.toNat) * bytesPerPixel src.imageMeta ≤ src.bytes.length := by
  have hw := hinside.width_pos
  have hh := hinside.height_pos
  obtain hzero | hpos := Nat.eq_zero_or_pos (bytesPerPixel src.imageMeta)
  · rw [hzero, Nat.mul_zero]
    exact Nat.zero_le _
  · obtain ⟨v, -, hv⟩ := h.pixel_eq (region.height.toNat - 1) (by omega) (region.width.toNat - 1)
      (by omega) (bytesPerPixel src.imageMeta - 1) (by omega)
    have hlt := (List.getElem?_eq_some_iff.mp hv).1
    rw [← Nat.add_sub_assoc (show 1 ≤ region.height.toNat from hh),
      ← Nat.add_sub_assoc (show 1 ≤ region.width.toNat from hw),
      ← Nat.add_sub_assoc (show 1 ≤ bytesPerPixel src.imageMeta from hpos)] at hlt
    have hlast : ((region.y.toNat + region.height.toNat - 1) * src.imageMeta.width +
        region.x.toNat + region.width.toNat) * bytesPerPixel src.imageMeta =
        ((region.y.toNat + region.height.toNat - 1) * src.imageMeta.width +
          (region.x.toNat + region.width.toNat - 1)) * bytesPerPixel src.imageMeta +
            bytesPerPixel src.imageMeta := by
      rw [← Nat.succ_mul]
      congr 1
      omega
    omega

end Crop

namespace Roi

variable {roi : Roi} {src : Image} {region : Rect}

theorem apply_of_admits (hregion : roi.regions.head? = some region)
    (hadmits : Admits src.imageMeta region) : roi.apply src = (crop src region).map .ok := by
  obtain ⟨rest, hrest⟩ := List.head?_eq_some_iff.mp hregion
  rw [apply, hrest]
  exact if_pos hadmits

/-- A region that is not let through is refused, and so is a list of none. -/
theorem apply_of_not_admits
    (h : ∀ region, roi.regions.head? = some region → ¬ Admits src.imageMeta region) :
    ∃ message, roi.apply src = some (fail .imageDimensionMismatch message) := by
  rw [apply]
  cases hregions : roi.regions with
  | nil => exact ⟨_, rfl⟩
  | cons front rest => exact ⟨_, if_neg (h front (by rw [hregions]; rfl))⟩

/-- Regions are cropped, refused and enclosed as they lie in the image exactly when they fit. -/
theorem exact_iff_fits (hsrc : Sized src) : roi.Exact src ↔ roi.Fits src := by
  constructor
  · intro h
    obtain ⟨hcolumns, hrows⟩ := roi.contains_iff.mp h.contains
    refine ⟨?_, hcolumns, hrows⟩
    intro region hregion hadmits
    by_cases hinside : region.Inside src.imageMeta
    · obtain ⟨out, -, hcrop⟩ := h.crops region hregion hinside
      have hright := hinside.right_le
      have hbottom := hinside.bottom_le
      have hwlt := hsrc.width_lt
      have hhlt := hsrc.height_lt
      exact ⟨by omega, by omega, hcrop.last_le hinside⟩
    · obtain ⟨message, hfail⟩ := h.refuses fun r hr => by
        rw [hregion] at hr
        exact Option.some.inj hr ▸ hinside
      rw [apply_of_admits hregion hadmits] at hfail
      cases hcrop : crop src region with
      | none =>
        rw [hcrop] at hfail
        cases hfail
      | some out =>
        rw [hcrop] at hfail
        cases hfail
  · intro h
    refine ⟨?_, ?_, roi.contains_iff.mpr ⟨h.columns, h.rows⟩⟩
    · intro region hregion hinside
      have hadmits := hinside.admits hsrc
      obtain ⟨out, hout, hcrop⟩ := crop_eq hinside (h.first region hregion hadmits) hsrc
      refine ⟨out, ?_, hcrop⟩
      rw [apply_of_admits hregion hadmits, hout]
      rfl
    · intro houtside
      apply apply_of_not_admits
      intro region hregion hadmits
      exact houtside region hregion (Rect.Inside.of_admits hadmits (h.first region hregion hadmits))

/-- A row of four bytes. -/
def fourBytes : Image :=
  ⟨{ width := 4, height := 1, channels := 1, pixelFormat := .mono8 }, [1, 2, 3, 4]⟩

theorem sized_fourBytes : Sized fourBytes := ⟨by decide, by decide, rfl⟩

theorem exact_iff_fits_fourBytes : Exact ⟨[⟨1, 0, 2, 1⟩]⟩ fourBytes ↔ Fits ⟨[⟨1, 0, 2, 1⟩]⟩ fourBytes :=
  exact_iff_fits sized_fourBytes

/-- A region before the start of the words' wrap is let through, and read before the buffer. -/
theorem wrapped_region_admitted :
    ¬ Exact ⟨[⟨0xFFFFFFFFFFFFFFFF, 0, 2, 1⟩]⟩ fourBytes ∧
      apply ⟨[⟨0xFFFFFFFFFFFFFFFF, 0, 2, 1⟩]⟩ fourBytes = none ∧
      boundingBox ⟨[⟨0, 0, 2, 1⟩, ⟨0xFFFFFFFFFFFFFFFF, 0, 2, 1⟩]⟩ = ⟨0, 0, 2, 1⟩ := by
  have hnone : apply ⟨[⟨0xFFFFFFFFFFFFFFFF, 0, 2, 1⟩]⟩ fourBytes = none := by decide +kernel
  refine ⟨fun h => ?_, hnone, by decide +kernel⟩
  obtain ⟨message, hfail⟩ := h.refuses fun region hregion hinside => by
    obtain rfl := Option.some.inj hregion
    exact absurd hinside.right_le (by decide)
  rw [hnone] at hfail
  cases hfail

end Roi

end SurfaceAi.Images
