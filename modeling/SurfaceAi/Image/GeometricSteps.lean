import Mathlib.Data.Set.Finite.Lemmas
import Mathlib.Order.Bounds.Basic
import Mathlib.Tactic.FieldSimp
import Mathlib.Tactic.Ring
import SurfaceAi.Image.PreprocessBounds
import SurfaceAi.Library.ExactDouble
import SurfaceAi.Library.OrderStatistics

/-! The steps that interpolate or stretch, in exact arithmetic. Resizing to the same size and
calibrating without distortion copy the image, resizing to any size stays within the values of each
channel, and stretching a second time changes nothing. -/

namespace SurfaceAi.Images

open Double Stores

/-! ### What is asked -/

/-- An image of one or three channels with a byte for each, and the buffer of its size. -/
structure EightBit (img : Image) : Prop where
  format : bytesPerChannel img.imageMeta.pixelFormat = 1
  width_pos : 0 < img.imageMeta.width
  height_pos : 0 < img.imageMeta.height
  channels : img.imageMeta.channels = 1 ∨ img.imageMeta.channels = 3
  size_lt : img.imageMeta.byteSize < 2 ^ 64
  size_eq : img.bytes.length = img.imageMeta.byteSize

/-- No distortion, and focal lengths that are not zero. -/
structure CalibrationParams.Undistorted (params : CalibrationParams) : Prop where
  focalX : ∃ fx ≠ 0, Denotes (params.cameraMatrix 0) fx
  focalY : ∃ fy ≠ 0, Denotes (params.cameraMatrix 4) fy
  centreX : ∃ cx, Denotes (params.cameraMatrix 2) cx
  centreY : ∃ cy, Denotes (params.cameraMatrix 5) cy
  coeffs : ∀ i, Denotes (params.distCoeffs i) 0

/-- The byte of a channel at a row and a column. -/
def sample (img : Image) (y x ch : ℕ) : Option UInt8 :=
  img.bytes[(y * img.imageMeta.width + x) * img.imageMeta.channels + ch]?

/-- The bytes that a channel takes in an image. -/
def channelBytes (img : Image) (ch : ℕ) : Set UInt8 :=
  {b | ∃ y < img.imageMeta.height, ∃ x < img.imageMeta.width, sample img y x ch = some b}

/-- A copy of the image in a buffer of its own, if there is one. -/
def copied (m : Machine) (img : Image) : StepEnd :=
  if m.allocates img.bytes.length then .returned (.ok img) else .badAlloc

/-- Every byte of the image that is returned is between the least and the greatest of its channel
in the image that is given. -/
def KeepsWithin (img out : Image) : Prop :=
  ∀ ch < img.imageMeta.channels, ∃ lo hi, IsLeast (channelBytes img ch) lo ∧
    IsGreatest (channelBytes img ch) hi ∧
    ∀ y < out.imageMeta.height, ∀ x < out.imageMeta.width,
      ∃ v, sample out y x ch = some v ∧ lo ≤ v ∧ v ≤ hi

/-- A resize returns an image of the target size where the target and the machine have room, and
what it returns stays within the image that is given. -/
structure ResizesWithin (m : Machine) (targetWidth targetHeight : ℕ) (img : Image) : Prop where
  returns : 0 < targetWidth → 0 < targetHeight →
    targetWidth * targetHeight * img.imageMeta.channels < 2 ^ 64 →
    m.allocates (targetWidth * targetHeight * img.imageMeta.channels) = true →
    ∃ out, makeResize m targetWidth targetHeight img = .returned (.ok out)
  size : ∀ out, makeResize m targetWidth targetHeight img = .returned (.ok out) →
    out.imageMeta.width = targetWidth ∧ out.imageMeta.height = targetHeight ∧
      out.imageMeta.channels = img.imageMeta.channels
  within : ∀ out, makeResize m targetWidth targetHeight img = .returned (.ok out) →
    KeepsWithin img out

variable {m : Machine} {img : Image}

/-! ### The samples of an image -/

namespace EightBit

theorem length_eq (himg : EightBit img) :
    img.bytes.length =
      img.imageMeta.width * img.imageMeta.height * img.imageMeta.channels := by
  rw [himg.size_eq, ImageMeta.byteSize, himg.format, Nat.mul_one]

theorem length_lt (himg : EightBit img) : img.bytes.length < 2 ^ 64 :=
  himg.size_eq.trans_lt himg.size_lt

theorem supported (himg : EightBit img) :
    ¬ (img.imageMeta.channels ≠ 1 ∧ img.imageMeta.channels ≠ 3) := by
  have hc := himg.channels
  omega

theorem channels_pos (himg : EightBit img) : 0 < img.imageMeta.channels := by
  obtain hone | hthree := himg.channels
  · omega
  · omega

theorem width_lt (himg : EightBit img) : img.imageMeta.width < 2 ^ 64 := by
  have hlt := himg.length_lt
  rw [himg.length_eq, Nat.mul_assoc] at hlt
  have hrest := Nat.mul_pos himg.height_pos himg.channels_pos
  exact (Nat.le_mul_of_pos_right _ hrest).trans_lt hlt

theorem height_lt (himg : EightBit img) : img.imageMeta.height < 2 ^ 64 := by
  have hlt := himg.length_lt
  rw [himg.length_eq, Nat.mul_comm img.imageMeta.width, Nat.mul_assoc] at hlt
  have hrest := Nat.mul_pos himg.width_pos himg.channels_pos
  exact (Nat.le_mul_of_pos_right _ hrest).trans_lt hlt

/-- A sample inside the image is read, and its position needs no reduction. -/
theorem exists_sample (himg : EightBit img) {y x ch : ℕ} (hy : y < img.imageMeta.height)
    (hx : x < img.imageMeta.width) (hch : ch < img.imageMeta.channels) :
    ∃ v, sample img y x ch = some v ∧
      img.bytes[((y * img.imageMeta.width + x) * img.imageMeta.channels + ch) % 2 ^ 64]? =
        some v := by
  have hinside := index_lt hy hx hch
  rw [← himg.length_eq] at hinside
  refine ⟨_, List.getElem?_eq_getElem hinside, ?_⟩
  rw [Nat.mod_eq_of_lt (hinside.trans himg.length_lt)]
  exact List.getElem?_eq_getElem hinside

end EightBit

/-! ### Truncation to a byte -/

theorem toNat_clampU8 {v : Double} {q : ℚ} {n : ℕ} (hv : Denotes v q) (hle : (n : ℚ) ≤ q)
    (hlt : q < n + 1) (hq : q ≤ 255) : (clampU8 m v).toNat = n := by
  have hn : n ≤ 255 := by exact_mod_cast hle.trans hq
  have hnonneg : (0 : ℚ) ≤ q := (Nat.cast_nonneg n).trans hle
  have hlow : ¬ lt v (.finite 0) = true := by
    rw [hv.lt_iff (.finite 0), not_lt]
    exact hnonneg
  have hhigh : ¬ lt (.finite 255) v = true := by
    rw [(Denotes.finite 255).lt_iff hv, not_lt]
    exact hq
  rw [clampU8, if_neg hlow, if_neg hhigh, hv.truncate hle hlt (by omega)]
  exact UInt8.toNat_ofNat_of_lt' (Nat.lt_succ_of_le hn)

/-- What stands for a byte is truncated to it. -/
theorem clampU8_byte {v : Double} {b : UInt8} (hv : Denotes v (b.toNat : ℚ)) : clampU8 m v = b := by
  have hbyte : b.toNat ≤ 255 := by have := b.toNat_lt; omega
  apply UInt8.toNat_inj.mp
  exact toNat_clampU8 hv le_rfl (lt_add_one _) (by exact_mod_cast hbyte)

/-- Truncation does not leave an interval between bytes. -/
theorem clampU8_between {v : Double} {q : ℚ} {lo hi : UInt8} (hv : Denotes v q)
    (hlo : (lo.toNat : ℚ) ≤ q) (hhi : q ≤ hi.toNat) : lo ≤ clampU8 m v ∧ clampU8 m v ≤ hi := by
  have hbyte : (hi.toNat : ℚ) ≤ 255 := by
    have hlt := hi.toNat_lt
    exact_mod_cast (by omega : hi.toNat ≤ 255)
  obtain ⟨n, -, hle, hlt⟩ := exists_whole ((Nat.cast_nonneg lo.toNat).trans hlo)
  have hvalue := toNat_clampU8 (m := m) hv hle hlt (hhi.trans hbyte)
  rw [UInt8.le_iff_toNat_le, UInt8.le_iff_toNat_le, hvalue]
  constructor
  · have hnext : (lo.toNat : ℚ) < (n + 1 : ℕ) := by
      push_cast
      linarith
    exact Nat.lt_succ_iff.mp (by exact_mod_cast hnext)
  · exact_mod_cast hle.trans hhi

/-! ### Interpolation -/

/-- The weighted sum of four bytes around a position. -/
def blend (p q : ℚ) (v00 v10 v01 v11 : UInt8) : ℚ :=
  (1 - p) * (1 - q) * v00.toNat + p * (1 - q) * v10.toNat + (1 - p) * q * v01.toNat +
    p * q * v11.toNat

theorem le_weighted {p a b lo : ℚ} (hp : 0 ≤ p) (hp1 : p ≤ 1) (ha : lo ≤ a) (hb : lo ≤ b) :
    lo ≤ (1 - p) * a + p * b := by
  have ha' := mul_le_mul_of_nonneg_left ha (sub_nonneg.mpr hp1)
  have hb' := mul_le_mul_of_nonneg_left hb hp
  linarith

theorem weighted_le {p a b hi : ℚ} (hp : 0 ≤ p) (hp1 : p ≤ 1) (ha : a ≤ hi) (hb : b ≤ hi) :
    (1 - p) * a + p * b ≤ hi := by
  have ha' := mul_le_mul_of_nonneg_left ha (sub_nonneg.mpr hp1)
  have hb' := mul_le_mul_of_nonneg_left hb hp
  linarith

theorem blend_eq (p q : ℚ) (v00 v10 v01 v11 : UInt8) :
    blend p q v00 v10 v01 v11 = (1 - q) * ((1 - p) * v00.toNat + p * v10.toNat) +
      q * ((1 - p) * v01.toNat + p * v11.toNat) := by
  rw [blend]
  ring

/-- The four samples that are read around a position, and the byte that they give. -/
theorem bilinear_eq (hexact : m.toRounding.Exact) (himg : EightBit img) {sx sy : Double} {a b : ℚ}
    {x y ch : ℕ} (hch : ch < img.imageMeta.channels) (hsx : Denotes sx a) (hsy : Denotes sy b)
    (hx : x < img.imageMeta.width) (hy : y < img.imageMeta.height)
    (hxle : (x : ℚ) ≤ a) (hxlt : a < x + 1) (hyle : (y : ℚ) ≤ b) (hylt : b < y + 1) :
    ∃ x1 < img.imageMeta.width, ∃ y1 < img.imageMeta.height, ∃ v00 v10 v01 v11 val,
      sample img y x ch = some v00 ∧ sample img y x1 ch = some v10 ∧
      sample img y1 x ch = some v01 ∧ sample img y1 x1 ch = some v11 ∧
      Denotes val (blend (a - x) (b - y) v00 v10 v01 v11) ∧
      bilinear m img.bytes img.imageMeta.width img.imageMeta.height img.imageMeta.channels sx sy ch =
        some (clampU8 m val) := by
  have htruncateX := hsx.truncate hxle hxlt (hx.trans himg.width_lt)
  have htruncateY := hsy.truncate hyle hylt (hy.trans himg.height_lt)
  have hx1 : Nat.min ((x + 1) % 2 ^ 64) (pred64 img.imageMeta.width) < img.imageMeta.width := by
    rw [pred64_of_pos himg.width_pos]
    exact (Nat.min_le_right _ _).trans_lt (Nat.sub_lt himg.width_pos one_pos)
  have hy1 : Nat.min ((y + 1) % 2 ^ 64) (pred64 img.imageMeta.height) < img.imageMeta.height := by
    rw [pred64_of_pos himg.height_pos]
    exact (Nat.min_le_right _ _).trans_lt (Nat.sub_lt himg.height_pos one_pos)
  obtain ⟨v00, h00, hread00⟩ := himg.exists_sample hy hx hch
  obtain ⟨v10, h10, hread10⟩ := himg.exists_sample hy hx1 hch
  obtain ⟨v01, h01, hread01⟩ := himg.exists_sample hy1 hx hch
  obtain ⟨v11, h11, hread11⟩ := himg.exists_sample hy1 hx1 hch
  -- the fractions of the position, and what is left of them to one
  have hone := Denotes.finite 1
  have hfx := hsx.sub hexact (denotes_ofNat hexact x)
  have hfy := hsy.sub hexact (denotes_ofNat hexact y)
  have hgx := hone.sub hexact hfx
  have hgy := hone.sub hexact hfy
  have hweighted : ∀ {s t : Double} {p q : ℚ} (v : UInt8), Denotes s p → Denotes t q →
      Denotes (mul m.toRounding (mul m.toRounding s t) (ofByte m v)) (p * q * v.toNat) :=
    fun v hs ht => (hs.mul hexact ht).mul hexact (denotes_ofNat hexact v.toNat)
  have hsum := (((hweighted v00 hgx hgy).add hexact (hweighted v10 hfx hgy)).add hexact
    (hweighted v01 hgx hfy)).add hexact (hweighted v11 hfx hfy)
  refine ⟨_, hx1, _, hy1, v00, v10, v01, v11, _, h00, h10, h01, h11, hsum, ?_⟩
  rw [bilinear, htruncateX, htruncateY]
  simp only [Option.bind_eq_bind, Option.bind_some, hread00, hread10, hread01, hread11]
  rfl

/-- A whole position is the sample there. -/
theorem bilinear_whole (hexact : m.toRounding.Exact) (himg : EightBit img) {sx sy : Double}
    {x y ch : ℕ} (hch : ch < img.imageMeta.channels) (hsx : Denotes sx x) (hsy : Denotes sy y)
    (hx : x < img.imageMeta.width) (hy : y < img.imageMeta.height) :
    bilinear m img.bytes img.imageMeta.width img.imageMeta.height img.imageMeta.channels sx sy ch =
      sample img y x ch := by
  obtain ⟨x1, -, y1, -, v00, v10, v01, v11, val, h00, -, -, -, hval, hbilinear⟩ :=
    bilinear_eq hexact himg hch hsx hsy hx hy le_rfl (lt_add_one _) le_rfl (lt_add_one _)
  have hbyte : Denotes val v00.toNat := by
    apply hval.of_eq
    rw [blend, sub_self, sub_self]
    ring
  rw [hbilinear, clampU8_byte hbyte, h00]

/-- At any position inside, the byte is between those of its channel. -/
theorem bilinear_between (hexact : m.toRounding.Exact) (himg : EightBit img) {sx sy : Double}
    {a b : ℚ} {ch : ℕ} (hch : ch < img.imageMeta.channels) (hsx : Denotes sx a)
    (hsy : Denotes sy b) (ha : 0 ≤ a) (hxlt : a ≤ img.imageMeta.width - 1) (hb : 0 ≤ b)
    (hylt : b ≤ img.imageMeta.height - 1) {lo hi : UInt8}
    (hlo : lo ∈ lowerBounds (channelBytes img ch)) (hhi : hi ∈ upperBounds (channelBytes img ch)) :
    ∃ v, bilinear m img.bytes img.imageMeta.width img.imageMeta.height img.imageMeta.channels sx sy
      ch = some v ∧ lo ≤ v ∧ v ≤ hi := by
  obtain ⟨x, -, hxle, hxnext⟩ := exists_whole ha
  obtain ⟨y, -, hyle, hynext⟩ := exists_whole hb
  have hx : x < img.imageMeta.width := by
    have hcast : (x : ℚ) < img.imageMeta.width := by linarith
    exact_mod_cast hcast
  have hy : y < img.imageMeta.height := by
    have hcast : (y : ℚ) < img.imageMeta.height := by linarith
    exact_mod_cast hcast
  obtain ⟨x1, hx1, y1, hy1, v00, v10, v01, v11, val, h00, h10, h01, h11, hval, hbilinear⟩ :=
    bilinear_eq hexact himg hch hsx hsy hx hy hxle hxnext hyle hynext
  have hbetween : ∀ {y x : ℕ} {v : UInt8}, y < img.imageMeta.height → x < img.imageMeta.width →
      sample img y x ch = some v → (lo.toNat : ℚ) ≤ v.toNat ∧ (v.toNat : ℚ) ≤ hi.toNat := by
    intro y x v hy hx hv
    have hmem : v ∈ channelBytes img ch := ⟨y, hy, x, hx, hv⟩
    exact ⟨by exact_mod_cast UInt8.le_iff_toNat_le.mp (hlo hmem),
      by exact_mod_cast UInt8.le_iff_toNat_le.mp (hhi hmem)⟩
  have hb00 := hbetween hy hx h00
  have hb10 := hbetween hy hx1 h10
  have hb01 := hbetween hy1 hx h01
  have hb11 := hbetween hy1 hx1 h11
  refine ⟨_, hbilinear, clampU8_between hval ?_ ?_⟩
  · rw [blend_eq]
    apply le_weighted (by linarith) (by linarith)
    · exact le_weighted (by linarith) (by linarith) hb00.1 hb10.1
    · exact le_weighted (by linarith) (by linarith) hb01.1 hb11.1
  · rw [blend_eq]
    apply weighted_le (by linarith) (by linarith)
    · exact weighted_le (by linarith) (by linarith) hb00.2 hb10.2
    · exact weighted_le (by linarith) (by linarith) hb01.2 hb11.2

/-! ### Positions -/

/-- The position is clamped to the source's rows or columns. -/
theorem denotes_resizePosition (hexact : m.toRounding.Exact) {source target : ℕ}
    (htarget : 0 < target) (o : ℕ) :
    Denotes (resizePosition m source target o)
      (Max.max 0 (Min.min (((o : ℚ) + 1 / 2) * source / target - 1 / 2) (source - 1))) := by
  have hnonzero : (target : ℚ) ≠ 0 := by exact_mod_cast htarget.ne'
  have hsource := denotes_ofNat hexact source
  have hhalf := Denotes.finite (1 / 2)
  have hcentre := (denotes_ofNat hexact o).add hexact hhalf
  have hscaled := (hcentre.mul hexact hsource).div hexact (denotes_ofNat hexact target) hnonzero
  have hlast := hsource.sub hexact (Denotes.finite 1)
  exact (Denotes.finite 0).max ((hscaled.sub hexact hhalf).min hlast)

/-- At the same size, each pixel's position is its own. -/
theorem resizePosition_same (hexact : m.toRounding.Exact) {n o : ℕ} (ho : o < n) :
    Denotes (resizePosition m n n o) o := by
  have hpos : 0 < n := by omega
  apply (denotes_resizePosition hexact hpos o).of_eq
  have hnonzero : (n : ℚ) ≠ 0 := by exact_mod_cast hpos.ne'
  have hown : ((o : ℚ) + 1 / 2) * n / n - 1 / 2 = o := by
    rw [mul_div_cancel_right₀ _ hnonzero]
    ring
  have hlast : (o : ℚ) ≤ n - 1 := by
    have hcast : (o : ℚ) + 1 ≤ n := by exact_mod_cast ho
    linarith
  rw [hown, min_eq_left hlast, max_eq_right (Nat.cast_nonneg o)]

/-- Without distortion, each pixel's position in the source is its own. -/
theorem CalibrationParams.sourcePosition_undistorted (hexact : m.toRounding.Exact)
    {params : CalibrationParams} (hparams : params.Undistorted) (dx dy : ℕ) :
    Denotes (params.sourcePosition m dx dy).1 dx ∧
      Denotes (params.sourcePosition m dx dy).2 dy := by
  obtain ⟨fx, hfxne, hfx⟩ := hparams.focalX
  obtain ⟨fy, hfyne, hfy⟩ := hparams.focalY
  obtain ⟨cx, hcx⟩ := hparams.centreX
  obtain ⟨cy, hcy⟩ := hparams.centreY
  have hk1 := hparams.coeffs 0
  have hk2 := hparams.coeffs 1
  have hp1 := hparams.coeffs 2
  have hp2 := hparams.coeffs 3
  have hk3 := hparams.coeffs 4
  have htwo := Denotes.finite 2
  have hxn := ((denotes_ofNat hexact dx).sub hexact hcx).div hexact hfx hfxne
  have hyn := ((denotes_ofNat hexact dy).sub hexact hcy).div hexact hfy hfyne
  have hr2 := (hxn.mul hexact hxn).add hexact (hyn.mul hexact hyn)
  have hr4 := hr2.mul hexact hr2
  have hr6 := hr4.mul hexact hr2
  have hradial := (((Denotes.finite 1).add hexact (hk1.mul hexact hr2)).add hexact
    (hk2.mul hexact hr4)).add hexact (hk3.mul hexact hr6)
  have hxTang := (((htwo.mul hexact hp1).mul hexact hxn).mul hexact hyn).add hexact
    (hp2.mul hexact (hr2.add hexact ((htwo.mul hexact hxn).mul hexact hxn)))
  have hyTang := (hp1.mul hexact (hr2.add hexact ((htwo.mul hexact hyn).mul hexact hyn))).add hexact
    (((htwo.mul hexact hp2).mul hexact hxn).mul hexact hyn)
  have hxd := (hxn.mul hexact hradial).add hexact hxTang
  have hyd := (hyn.mul hexact hradial).add hexact hyTang
  constructor
  · apply ((hxd.mul hexact hfx).add hexact hcx).of_eq
    field_simp
    ring
  · apply ((hyd.mul hexact hfy).add hexact hcy).of_eq
    field_simp
    ring

/-! ### The steps into a new buffer -/

variable {w h c : ℕ} {im : ImageMeta} {value : ℕ × ℕ × ℕ → Option UInt8} {out : Image}

/-- The loop is defined where every value is and the positions need no reduction. -/
theorem isSome_storeGrid_iff (value : ℕ × ℕ × ℕ → Option UInt8) (size : ℕ) :
    (storeAll (fun z : ℕ × ℕ × ℕ => (z.1 * w + z.2.1) * c % 2 ^ 64 + z.2.2) (fun _ => value)
      (grid w h c) (List.replicate size 0)).isSome = true ↔
      ∀ z ∈ grid w h c, (value z).isSome = true ∧ (z.1 * w + z.2.1) * c % 2 ^ 64 + z.2.2 < size := by
  have hvalue : ∀ b : List UInt8, b.length = (List.replicate size (0 : UInt8)).length →
      ∀ z ∈ grid w h c, ((value z).isSome = true ↔ (value z).isSome = true) :=
    fun _ _ _ _ => Iff.rfl
  rw [isSome_storeAll_iff hvalue, List.length_replicate]

/-- A loop over an image stores each value at its position. -/
theorem intoNewBuffer_grid (im : ImageMeta) (hsize : w * h * c < 2 ^ 64)
    (hvalue : ∀ z ∈ grid w h c, (value z).isSome = true) :
    ∃ bytes : List UInt8, bytes.length = w * h * c ∧
      (∀ y < h, ∀ x < w, ∀ ch < c, bytes[(y * w + x) * c + ch]? = value (y, x, ch)) ∧
      intoNewBuffer m (w * h * c % 2 ^ 64) im (fun z => (z.1 * w + z.2.1) * c % 2 ^ 64 + z.2.2) value
        (grid w h c) =
        if m.allocates (w * h * c) then .returned (.ok ⟨im, bytes⟩) else .badAlloc := by
  have hinside := (forall_index_lt_iff (by norm_num)).mpr hsize
  have hdefined := (isSome_storeGrid_iff value (w * h * c % 2 ^ 64)).mpr
    fun z hz => ⟨hvalue z hz, hinside z hz⟩
  obtain ⟨bytes, hbytes⟩ := Option.isSome_iff_exists.mp hdefined
  refine ⟨bytes, ?_, ?_, ?_⟩
  · rw [length_of_storeAll hbytes, List.length_replicate, Nat.mod_eq_of_lt hsize]
  · intro y hy x hx ch hch
    have hposition : ∀ {y x ch : ℕ}, (y, x, ch) ∈ grid w h c →
        (y * w + x) * c % 2 ^ 64 = (y * w + x) * c := by
      intro y x ch hz
      obtain ⟨hy, hx, hch⟩ := mem_grid.mp hz
      have hlt := index_lt hy hx hch
      exact Nat.mod_eq_of_lt (by omega)
    have hz : (y, x, ch) ∈ grid w h c := mem_grid.mpr ⟨hy, hx, hch⟩
    rw [← hposition hz]
    apply getElem?_storeAll hbytes hz
    rintro ⟨y', x', ch'⟩ hz' hindex
    obtain ⟨hy', hx', hch'⟩ := mem_grid.mp hz'
    simp only [hposition hz, hposition hz'] at hindex
    rw [index_inj hx' hx hch' hch hindex]
  · rw [intoNewBuffer, hbytes, Nat.mod_eq_of_lt hsize]

/-- An image is returned only where the positions need no reduction. -/
theorem size_lt_of_intoNewBuffer
    (hreturned : intoNewBuffer m (w * h * c % 2 ^ 64) im
      (fun z => (z.1 * w + z.2.1) * c % 2 ^ 64 + z.2.2) value (grid w h c) = .returned (.ok out)) :
    w * h * c < 2 ^ 64 ∧ m.allocates (w * h * c) = true := by
  rw [intoNewBuffer] at hreturned
  split_ifs at hreturned with hallocates
  cases hbytes : storeAll (fun z : ℕ × ℕ × ℕ => (z.1 * w + z.2.1) * c % 2 ^ 64 + z.2.2)
      (fun _ => value) (grid w h c) (List.replicate (w * h * c % 2 ^ 64) 0) with
  | none =>
    rw [hbytes] at hreturned
    cases hreturned
  | some bytes =>
    have hdefined := (isSome_storeGrid_iff value (w * h * c % 2 ^ 64)).mp
      (Option.isSome_iff_exists.mpr ⟨bytes, hbytes⟩)
    have hsize := (forall_index_lt_iff (by norm_num)).mp fun z hz => (hdefined z hz).2
    rw [Nat.mod_eq_of_lt hsize] at hallocates
    exact ⟨hsize, hallocates⟩

/-- A loop that stores each sample of an image copies it. -/
theorem intoNewBuffer_same (himg : EightBit img)
    (hvalue : ∀ y < img.imageMeta.height, ∀ x < img.imageMeta.width,
      ∀ ch < img.imageMeta.channels, value (y, x, ch) = sample img y x ch) :
    intoNewBuffer m (img.imageMeta.width * img.imageMeta.height * img.imageMeta.channels % 2 ^ 64)
      img.imageMeta
      (fun z => (z.1 * img.imageMeta.width + z.2.1) * img.imageMeta.channels % 2 ^ 64 + z.2.2) value
      (grid img.imageMeta.width img.imageMeta.height img.imageMeta.channels) = copied m img := by
  have hlength := himg.length_eq
  have hdefined : ∀ z ∈ grid img.imageMeta.width img.imageMeta.height img.imageMeta.channels,
      (value z).isSome = true := by
    rintro ⟨y, x, ch⟩ hz
    obtain ⟨hy, hx, hch⟩ := mem_grid.mp hz
    obtain ⟨v, hv, -⟩ := himg.exists_sample hy hx hch
    rw [hvalue y hy x hx ch hch, hv]
    rfl
  obtain ⟨bytes, hbytes, hstored, heq⟩ := intoNewBuffer_grid (m := m) img.imageMeta
    (hlength ▸ himg.length_lt) hdefined
  have hsame : bytes = img.bytes := by
    apply List.ext_getElem?
    intro i
    by_cases hi : i < bytes.length
    · obtain ⟨y, x, ch, hy, hx, hch, rfl⟩ := exists_index (hbytes ▸ hi)
      rw [hstored y hy x hx ch hch, hvalue y hy x hx ch hch]
      rfl
    · rw [List.getElem?_eq_none (by omega), List.getElem?_eq_none (by omega)]
  rw [heq, hsame, copied, hlength]

/-! ### Resizing and calibrating -/

theorem resize_same (hexact : m.toRounding.Exact) (himg : EightBit img) :
    makeResize m img.imageMeta.width img.imageMeta.height img = copied m img := by
  have hpositive : ¬ (img.imageMeta.width = 0 ∨ img.imageMeta.height = 0) := by
    have hw := himg.width_pos
    have hh := himg.height_pos
    omega
  rw [makeResize, if_neg hpositive, if_neg himg.supported]
  apply intoNewBuffer_same himg
  intro y hy x hx ch hch
  exact bilinear_whole hexact himg hch (resizePosition_same hexact hx)
    (resizePosition_same hexact hy) hx hy

theorem calibration_undistorted (hexact : m.toRounding.Exact) (himg : EightBit img)
    {params : CalibrationParams} (hparams : params.Undistorted) :
    makeCalibration m params img = copied m img := by
  rw [makeCalibration]
  apply intoNewBuffer_same himg
  intro y hy x hx ch hch
  obtain ⟨hsx, hsy⟩ := params.sourcePosition_undistorted hexact hparams x y
  have hinside : ¬ outside m img.imageMeta.width img.imageMeta.height
      (params.sourcePosition m x y) = true := by
    have hzero := Denotes.finite 0
    have hw := denotes_ofNat hexact img.imageMeta.width
    have hh := denotes_ofNat hexact img.imageMeta.height
    rw [outside, Bool.or_eq_true, Bool.or_eq_true, Bool.or_eq_true, hsx.lt_iff hzero,
      hsy.lt_iff hzero, hw.le_iff hsx, hh.le_iff hsy]
    have hxlt : (x : ℚ) < img.imageMeta.width := by exact_mod_cast hx
    have hylt : (y : ℚ) < img.imageMeta.height := by exact_mod_cast hy
    have hxle : (0 : ℚ) ≤ x := Nat.cast_nonneg x
    have hyle : (0 : ℚ) ≤ y := Nat.cast_nonneg y
    simp only [not_or, not_lt, not_le]
    exact ⟨⟨⟨hxle, hyle⟩, hxlt⟩, hylt⟩
  simp only [if_neg hinside]
  exact bilinear_whole hexact himg hch hsx hsy hx hy

/-- A channel has a least and a greatest byte. -/
theorem EightBit.exists_extremes (himg : EightBit img) {ch : ℕ}
    (hch : ch < img.imageMeta.channels) :
    ∃ lo hi, IsLeast (channelBytes img ch) lo ∧ IsGreatest (channelBytes img ch) hi := by
  obtain ⟨v, hv, -⟩ := himg.exists_sample himg.height_pos himg.width_pos hch
  have hnonempty : (channelBytes img ch).Nonempty :=
    ⟨v, 0, himg.height_pos, 0, himg.width_pos, hv⟩
  have hfinite : (channelBytes img ch).Finite := by
    apply (List.finite_toSet img.bytes).subset
    rintro b ⟨y, -, x, -, hb⟩
    exact List.mem_of_getElem? hb
  obtain ⟨lo, hlo, hleast⟩ := Set.exists_min_image _ UInt8.toNat hfinite hnonempty
  obtain ⟨hi, hhi, hgreatest⟩ := Set.exists_max_image _ UInt8.toNat hfinite hnonempty
  exact ⟨lo, hi, ⟨hlo, fun b hb => UInt8.le_iff_toNat_le.mpr (hleast b hb)⟩, hhi,
    fun b hb => UInt8.le_iff_toNat_le.mpr (hgreatest b hb)⟩

/-- The byte at each position of the target. -/
theorem resize_value (hexact : m.toRounding.Exact) (himg : EightBit img)
    {targetWidth targetHeight x y ch : ℕ} (hwidth : 0 < targetWidth) (hheight : 0 < targetHeight)
    (hch : ch < img.imageMeta.channels) {lo hi : UInt8}
    (hlo : lo ∈ lowerBounds (channelBytes img ch)) (hhi : hi ∈ upperBounds (channelBytes img ch)) :
    ∃ v, bilinear m img.bytes img.imageMeta.width img.imageMeta.height img.imageMeta.channels
      (resizePosition m img.imageMeta.width targetWidth x)
      (resizePosition m img.imageMeta.height targetHeight y) ch = some v ∧ lo ≤ v ∧ v ≤ hi := by
  have hw : (0 : ℚ) ≤ img.imageMeta.width - 1 := by
    have hcast : (1 : ℚ) ≤ img.imageMeta.width := by exact_mod_cast himg.width_pos
    linarith
  have hh : (0 : ℚ) ≤ img.imageMeta.height - 1 := by
    have hcast : (1 : ℚ) ≤ img.imageMeta.height := by exact_mod_cast himg.height_pos
    linarith
  exact bilinear_between hexact himg hch (denotes_resizePosition hexact hwidth x)
    (denotes_resizePosition hexact hheight y) (le_max_left _ _)
    (max_le hw (min_le_right _ _)) (le_max_left _ _) (max_le hh (min_le_right _ _)) hlo hhi

/-- What a resize returns where the target has a size that needs no reduction. -/
theorem resize_eq (hexact : m.toRounding.Exact) (himg : EightBit img) {targetWidth targetHeight : ℕ}
    (hwidth : 0 < targetWidth) (hheight : 0 < targetHeight)
    (hsize : targetWidth * targetHeight * img.imageMeta.channels < 2 ^ 64) :
    ∃ bytes, KeepsWithin img
        ⟨{ img.imageMeta with width := targetWidth, height := targetHeight }, bytes⟩ ∧
      makeResize m targetWidth targetHeight img =
        if m.allocates (targetWidth * targetHeight * img.imageMeta.channels) then
          .returned (.ok ⟨{ img.imageMeta with width := targetWidth, height := targetHeight }, bytes⟩)
        else .badAlloc := by
  have hbetween : ∀ {y x ch : ℕ}, ch < img.imageMeta.channels → ∀ {lo hi : UInt8},
      lo ∈ lowerBounds (channelBytes img ch) → hi ∈ upperBounds (channelBytes img ch) → ∃ v,
        bilinear m img.bytes img.imageMeta.width img.imageMeta.height img.imageMeta.channels
          (resizePosition m img.imageMeta.width targetWidth x)
          (resizePosition m img.imageMeta.height targetHeight y) ch = some v ∧ lo ≤ v ∧ v ≤ hi :=
    fun hch _ _ hlo hhi => resize_value hexact himg hwidth hheight hch hlo hhi
  have hdefined : ∀ z ∈ grid targetWidth targetHeight img.imageMeta.channels,
      (bilinear m img.bytes img.imageMeta.width img.imageMeta.height img.imageMeta.channels
        (resizePosition m img.imageMeta.width targetWidth z.2.1)
        (resizePosition m img.imageMeta.height targetHeight z.1) z.2.2).isSome = true := by
    rintro ⟨y, x, ch⟩ hz
    obtain ⟨-, -, hch⟩ := mem_grid.mp hz
    obtain ⟨lo, hi, hlo, hhi⟩ := himg.exists_extremes hch
    obtain ⟨v, hv, -⟩ := hbetween hch hlo.2 hhi.2
    exact Option.isSome_iff_exists.mpr ⟨v, hv⟩
  obtain ⟨bytes, -, hstored, heq⟩ := intoNewBuffer_grid (m := m)
    { img.imageMeta with width := targetWidth, height := targetHeight } hsize hdefined
  refine ⟨bytes, ?_, ?_⟩
  · intro ch hch
    obtain ⟨lo, hi, hlo, hhi⟩ := himg.exists_extremes hch
    refine ⟨lo, hi, hlo, hhi, ?_⟩
    intro y hy x hx
    obtain ⟨v, hv, hinside⟩ := hbetween hch hlo.2 hhi.2
    exact ⟨v, (hstored y hy x hx ch hch).trans hv, hinside⟩
  · have hpositive : ¬ (targetWidth = 0 ∨ targetHeight = 0) := by omega
    rw [makeResize, if_neg hpositive, if_neg himg.supported]
    exact heq

/-- An image is returned only for a target that has a size. -/
theorem target_of_resize (himg : EightBit img) {targetWidth targetHeight : ℕ} {out : Image}
    (hout : makeResize m targetWidth targetHeight img = .returned (.ok out)) :
    0 < targetWidth ∧ 0 < targetHeight ∧
      targetWidth * targetHeight * img.imageMeta.channels < 2 ^ 64 ∧
      m.allocates (targetWidth * targetHeight * img.imageMeta.channels) = true := by
  rw [makeResize] at hout
  split_ifs at hout with hzero
  · cases hout
  · exact absurd ‹_› himg.supported
  · obtain ⟨hsize, hallocates⟩ := size_lt_of_intoNewBuffer hout
    exact ⟨by omega, by omega, hsize, hallocates⟩

theorem resize_within (hexact : m.toRounding.Exact) (himg : EightBit img)
    (targetWidth targetHeight : ℕ) : ResizesWithin m targetWidth targetHeight img := by
  have hreturned : ∀ out, makeResize m targetWidth targetHeight img = .returned (.ok out) →
      out.imageMeta = { img.imageMeta with width := targetWidth, height := targetHeight } ∧
        KeepsWithin img out := by
    intro out hout
    obtain ⟨hwidth, hheight, hsize, hallocates⟩ := target_of_resize himg hout
    obtain ⟨bytes, hwithin, heq⟩ := resize_eq hexact himg hwidth hheight hsize
    rw [heq, if_pos hallocates] at hout
    cases hout
    exact ⟨rfl, hwithin⟩
  refine ⟨?_, ?_, fun out hout => (hreturned out hout).2⟩
  · intro hwidth hheight hsize hallocates
    obtain ⟨bytes, -, heq⟩ := resize_eq hexact himg hwidth hheight hsize
    exact ⟨_, heq.trans (if_pos hallocates)⟩
  · intro out hout
    rw [(hreturned out hout).1]
    exact ⟨rfl, rfl, rfl⟩

/-! ### Stretching -/

/-- The least byte, `255` where there is none. -/
def leastByte (bytes : List UInt8) : UInt8 := bytes.foldl (Extremes.keep (· < ·)) 255

/-- The greatest byte, `0` where there is none. -/
def greatestByte (bytes : List UInt8) : UInt8 :=
  bytes.foldl (Extremes.keep fun x kept => kept < x) 0

/-- A byte after its range is stretched to the whole one. -/
def stretchByte (m : Machine) (minVal maxVal v : UInt8) : UInt8 :=
  let r := m.toRounding
  clampU8 m (div r (mul r (.finite 255) (sub r (ofByte m v) (ofByte m minVal)))
    (sub r (ofByte m maxVal) (ofByte m minVal)))

/-- The bytes after their range is stretched, if they are not all the same. -/
def stretch (m : Machine) (bytes : List UInt8) : List UInt8 :=
  if leastByte bytes = greatestByte bytes then bytes
  else bytes.map (stretchByte m (leastByte bytes) (greatestByte bytes))

section Bytes

variable {bytes : List UInt8} {v : UInt8}

theorem leastByte_le (hv : v ∈ bytes) : leastByte bytes ≤ v :=
  UInt8.not_lt.mp (Extremes.not_before_foldl_keep (· < ·) UInt8.lt_trans UInt8.lt_irrefl bytes 255 v
    (List.mem_cons_of_mem _ hv))

theorem le_greatestByte (hv : v ∈ bytes) : v ≤ greatestByte bytes :=
  UInt8.not_lt.mp (Extremes.not_before_foldl_keep (fun x kept => kept < x)
    (fun h h' => UInt8.lt_trans h' h) UInt8.lt_irrefl bytes 0 v (List.mem_cons_of_mem _ hv))

theorem leastByte_mem (hv : v ∈ bytes) : leastByte bytes ∈ bytes := by
  obtain hstart | hmem := Extremes.foldl_keep_mem (· < ·) bytes 255
  · have hall : leastByte bytes = 255 := hstart
    have hle := leastByte_le hv
    rw [hall] at hle ⊢
    rwa [UInt8.le_antisymm hle (UInt8.le_iff_toNat_le.mpr
      (Nat.le_of_lt_succ v.toNat_lt))]
  · exact hmem

theorem greatestByte_mem (hv : v ∈ bytes) : greatestByte bytes ∈ bytes := by
  obtain hstart | hmem := Extremes.foldl_keep_mem (fun x kept => kept < x) bytes 0
  · have hall : greatestByte bytes = 0 := hstart
    have hle := le_greatestByte hv
    rw [hall] at hle ⊢
    rwa [UInt8.le_antisymm (UInt8.zero_le) hle]
  · exact hmem

theorem leastByte_eq (hv : v ∈ bytes) (hle : ∀ b ∈ bytes, v ≤ b) : leastByte bytes = v :=
  UInt8.le_antisymm (leastByte_le hv) (hle _ (leastByte_mem hv))

theorem greatestByte_eq (hv : v ∈ bytes) (hle : ∀ b ∈ bytes, b ≤ v) : greatestByte bytes = v :=
  UInt8.le_antisymm (hle _ (greatestByte_mem hv)) (le_greatestByte hv)

end Bytes

theorem foldBytes_eq {σ : Type} (f : σ → UInt8 → σ) (bytes : List UInt8) (start : σ) :
    foldBytes f bytes bytes.length start = some (bytes.foldl f start) := by
  have htake : ∀ n ≤ bytes.length, foldBytes f bytes n start = some ((bytes.take n).foldl f start) := by
    intro n hn
    induction n with
    | zero => rfl
    | succ n ih =>
      have hprefix := ih (by omega)
      rw [foldBytes] at hprefix ⊢
      have hread : bytes[n]? = some bytes[n] := List.getElem?_eq_getElem (by omega)
      rw [List.range_succ, List.foldlM_append, hprefix, List.take_add_one, List.foldl_append]
      simp only [Option.bind_eq_bind, Option.bind_some, List.foldlM_cons, List.foldlM_nil, hread]
      rfl
  have hwhole := htake bytes.length le_rfl
  rwa [List.take_length] at hwhole

/-- A loop that replaces each byte of an image by a function of it. -/
theorem inPlace_map (f : UInt8 → UInt8) :
    inPlace img id (fun data i => (data[i]?).map f) (List.range img.bytes.length) =
      .returned (.ok { img with bytes := img.bytes.map f }) := by
  rw [inPlace, storeAll_map]

theorem hdr_eq {numExposures : ℕ} (hn : 0 < numExposures) :
    makeHDR m numExposures img = .returned (.ok { img with bytes := stretch m img.bytes }) := by
  rw [makeHDR, if_neg hn.ne']
  have hfold : foldBytes (fun (acc : UInt8 × UInt8) b =>
      (if b < acc.1 then b else acc.1, if acc.2 < b then b else acc.2)) img.bytes img.bytes.length
      (255, 0) = some (leastByte img.bytes, greatestByte img.bytes) := by
    rw [foldBytes_eq]
    exact congrArg some (List.foldl_hom₂ img.bytes Prod.mk (Extremes.keep (· < ·))
      (Extremes.keep fun x kept => kept < x) _ 255 0 fun _ _ _ => rfl)
  simp only [hfold]
  by_cases hempty : img.bytes.length = 0
  · have hsame : stretch m img.bytes = img.bytes := by
      rw [List.length_eq_zero_iff.mp hempty]
      rfl
    rw [if_pos hempty, hsame]
  · rw [if_neg hempty, stretch]
    split_ifs with hflat
    · rfl
    · exact inPlace_map _

/-! ### Stretching twice -/

section Exact

variable {minVal maxVal v : UInt8}

/-- What is truncated when a byte is stretched. -/
theorem denotes_stretched (hexact : m.toRounding.Exact) (hlt : minVal < maxVal) :
    Denotes (div m.toRounding (mul m.toRounding (.finite 255)
        (sub m.toRounding (ofByte m v) (ofByte m minVal)))
      (sub m.toRounding (ofByte m maxVal) (ofByte m minVal)))
      (255 * ((v.toNat : ℚ) - minVal.toNat) / (maxVal.toNat - minVal.toNat)) := by
  have hv := denotes_ofNat hexact v.toNat
  have hmin := denotes_ofNat hexact minVal.toNat
  have hmax := denotes_ofNat hexact maxVal.toNat
  have hrange : (maxVal.toNat : ℚ) - minVal.toNat ≠ 0 := by
    have hcast : (minVal.toNat : ℚ) < maxVal.toNat := by exact_mod_cast UInt8.lt_iff_toNat_lt.mp hlt
    linarith
  exact (((Denotes.finite 255).mul hexact (hv.sub hexact hmin)).div hexact (hmax.sub hexact hmin)
    hrange)

theorem stretchByte_least (hexact : m.toRounding.Exact) (hlt : minVal < maxVal) :
    stretchByte m minVal maxVal minVal = 0 := by
  apply clampU8_byte
  apply (denotes_stretched hexact hlt).of_eq
  rw [sub_self, mul_zero, zero_div]
  rfl

theorem stretchByte_greatest (hexact : m.toRounding.Exact) (hlt : minVal < maxVal) :
    stretchByte m minVal maxVal maxVal = 255 := by
  apply clampU8_byte
  apply (denotes_stretched hexact hlt).of_eq
  have hcast : (minVal.toNat : ℚ) < maxVal.toNat := by exact_mod_cast UInt8.lt_iff_toNat_lt.mp hlt
  rw [mul_div_cancel_right₀ _ (by linarith)]
  rfl

/-- A byte of the whole range is left as it is. -/
theorem stretchByte_whole (hexact : m.toRounding.Exact) : stretchByte m 0 255 v = v := by
  apply clampU8_byte
  apply (denotes_stretched hexact (by decide)).of_eq
  show 255 * ((v.toNat : ℚ) - (0 : ℕ)) / ((255 : ℕ) - (0 : ℕ)) = v.toNat
  push_cast
  ring

end Exact

/-- Bytes that reach from `0` to `255` are left as they are. -/
theorem stretch_whole (hexact : m.toRounding.Exact) {bytes : List UInt8} (hzero : 0 ∈ bytes)
    (hfull : 255 ∈ bytes) : stretch m bytes = bytes := by
  have hleast : leastByte bytes = 0 := leastByte_eq hzero fun _ _ => UInt8.zero_le
  have hgreatest : greatestByte bytes = 255 :=
    greatestByte_eq hfull fun b _ => UInt8.le_iff_toNat_le.mpr (Nat.le_of_lt_succ b.toNat_lt)
  rw [stretch, hleast, hgreatest, if_neg (by decide)]
  calc bytes.map (stretchByte m 0 255)
      = bytes.map id := List.map_congr_left fun v _ => stretchByte_whole hexact
    _ = bytes := List.map_id bytes

theorem stretch_stretch (hexact : m.toRounding.Exact) (bytes : List UInt8) :
    stretch m (stretch m bytes) = stretch m bytes := by
  cases bytes with
  | nil => rfl
  | cons v rest =>
    by_cases hflat : leastByte (v :: rest) = greatestByte (v :: rest)
    · have hsame : stretch m (v :: rest) = v :: rest := if_pos hflat
      rw [hsame, hsame]
    · have hv : v ∈ v :: rest := List.mem_cons_self
      have hlt : leastByte (v :: rest) < greatestByte (v :: rest) :=
        UInt8.lt_of_le_of_ne (UInt8.le_trans (leastByte_le hv) (le_greatestByte hv)) hflat
      have hmap : stretch m (v :: rest) = (v :: rest).map
        (stretchByte m (leastByte (v :: rest)) (greatestByte (v :: rest))) := if_neg hflat
      -- the least byte goes to zero, and the greatest to the end of the range
      apply stretch_whole hexact
      · rw [hmap, ← stretchByte_least hexact hlt]
        exact List.mem_map_of_mem (leastByte_mem hv)
      · rw [hmap, ← stretchByte_greatest hexact hlt]
        exact List.mem_map_of_mem (greatestByte_mem hv)

theorem hdr_twice (hexact : m.toRounding.Exact) (numExposures : ℕ) (img : Image) :
    compose m [.hdr numExposures, .hdr numExposures] img = compose m [.hdr numExposures] img := by
  obtain rfl | hn := Nat.eq_zero_or_pos numExposures
  · rfl
  · simp only [compose, PreprocessStep.run, hdr_eq hn, stretch_stretch hexact]

/-! ### All of them -/

/-- In exact arithmetic an image is copied by a resize to its own size and by a calibration without
distortion, a resize to any size stays within its channels, and what is stretched stays so. -/
theorem geometric_steps_exact (hexact : m.toRounding.Exact) (himg : EightBit img) :
    makeResize m img.imageMeta.width img.imageMeta.height img = copied m img ∧
      (∀ params : CalibrationParams, params.Undistorted →
        makeCalibration m params img = copied m img) ∧
      (∀ targetWidth targetHeight, ResizesWithin m targetWidth targetHeight img) ∧
      ∀ numExposures,
        compose m [.hdr numExposures, .hdr numExposures] img =
            compose m [.hdr numExposures] img ∧
          (0 < numExposures → ∃ out, makeHDR m numExposures img = .returned (.ok out)) := by
  refine ⟨resize_same hexact himg, ?_, resize_within hexact himg, ?_⟩
  · intro params hparams
    exact calibration_undistorted hexact himg hparams
  · intro numExposures
    exact ⟨hdr_twice hexact numExposures img, fun hn => ⟨_, hdr_eq hn⟩⟩

/-- Two rows of three bytes. -/
def ramp : Image :=
  ⟨{ width := 3, height := 2, channels := 1, pixelFormat := .mono8 }, [10, 20, 30, 40, 50, 60]⟩

/-- A camera whose centre is outside of the image. -/
def offCentre : CalibrationParams where
  cameraMatrix := fun i => .finite ([2, 0, 1 / 2, 0, 3, -7, 0, 0, 1].getD i 0)
  distCoeffs := fun _ => .finite 0

theorem geometric_steps_exact_ramp :
    makeResize exactMachine 3 2 ramp = .returned (.ok ramp) ∧
      makeCalibration exactMachine offCentre ramp = .returned (.ok ramp) ∧
      ResizesWithin exactMachine 5 4 ramp ∧
      compose exactMachine [.hdr 1, .hdr 1] ramp = compose exactMachine [.hdr 1] ramp := by
  have hexact : exactMachine.toRounding.Exact := fun _ => rfl
  have hramp : EightBit ramp :=
    ⟨rfl, by decide, by decide, .inl rfl, by decide, rfl⟩
  have hcamera : offCentre.Undistorted :=
    ⟨⟨2, by norm_num, .finite 2⟩, ⟨3, by norm_num, .finite 3⟩, ⟨1 / 2, .finite _⟩,
      ⟨-7, .finite _⟩, fun _ => .finite 0⟩
  obtain ⟨hresize, hcalibration, hwithin, hstretch⟩ := geometric_steps_exact hexact hramp
  exact ⟨hresize, hcalibration offCentre hcamera, hwithin 5 4, (hstretch 1).1⟩

end SurfaceAi.Images
