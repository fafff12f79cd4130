import Mathlib.Tactic.NormNum
import SurfaceAi.Image.Preprocess

/-! Which preprocessing chains keep every image at the size of its metadata and every access inside
a buffer. The condition of each step is on the metadata it is given and on its own parameters. -/

namespace SurfaceAi.Images

open Double Stores

variable (m : Machine)

/-! ### The conditions -/

/-- A position can be truncated, and the four samples around it are in the first `n` bytes. -/
def Sampled (n w h c : ℕ) (sx sy : Double) (ch : ℕ) : Prop :=
  ∃ x0 y0, sx.truncate = some x0 ∧ sy.truncate = some y0 ∧
    ((y0 * w + x0) * c + ch) % 2 ^ 64 < n ∧
    ((y0 * w + Nat.min ((x0 + 1) % 2 ^ 64) (pred64 w)) * c + ch) % 2 ^ 64 < n ∧
    ((Nat.min ((y0 + 1) % 2 ^ 64) (pred64 h) * w + x0) * c + ch) % 2 ^ 64 < n ∧
    ((Nat.min ((y0 + 1) % 2 ^ 64) (pred64 h) * w + Nat.min ((x0 + 1) % 2 ^ 64) (pred64 w)) * c + ch)
      % 2 ^ 64 < n

/-- The sides are doubles, so the last row and column are reached exactly. -/
def ExactSides (im : ImageMeta) : Prop := im.width ≤ 2 ^ 53 ∧ im.height ≤ 2 ^ 53

def DebayerFits (im : ImageMeta) : Prop :=
  im.pixelFormat = .bayerRG8 → m.allocates (im.width * im.height * 3 % 2 ^ 64) = true →
    im.width * im.height * 3 < 2 ^ 64 ∧ im.width * im.height ≤ im.byteSize % 2 ^ 64

def ResizeFits (targetWidth targetHeight : ℕ) (im : ImageMeta) : Prop :=
  0 < targetWidth → 0 < targetHeight → im.channels = 1 ∨ im.channels = 3 →
    m.allocates (targetWidth * targetHeight * im.channels % 2 ^ 64) = true →
    bytesPerChannel im.pixelFormat = 1 ∧ targetWidth * targetHeight * im.channels < 2 ^ 64 ∧
      (ExactSides im → im.width * im.height * im.channels < 2 ^ 64 →
        0 < im.width ∧ 0 < im.height) ∧
      -- beyond that what is read depends on the rounding and on the reduced size
      (¬ (ExactSides im ∧ im.width * im.height * im.channels < 2 ^ 64) →
        ∀ z ∈ grid targetWidth targetHeight im.channels,
          Sampled (im.byteSize % 2 ^ 64) im.width im.height im.channels
            (resizePosition m im.width targetWidth z.2.1)
            (resizePosition m im.height targetHeight z.1) z.2.2)

def CalibrationFits (params : CalibrationParams) (im : ImageMeta) : Prop :=
  0 < im.width * im.height * im.channels →
    m.allocates (im.width * im.height * im.channels % 2 ^ 64) = true →
    bytesPerChannel im.pixelFormat = 1 ∧ im.width * im.height * im.channels < 2 ^ 64 ∧
      ∀ z ∈ grid im.width im.height im.channels,
        outside m im.width im.height (params.sourcePosition m z.2.1 z.1) = true ∨
          (ExactSides im → (params.sourcePosition m z.2.1 z.1).1 ≠ .nan ∧
            (params.sourcePosition m z.2.1 z.1).2 ≠ .nan) ∧
          (¬ ExactSides im → Sampled (im.byteSize % 2 ^ 64) im.width im.height im.channels
            (params.sourcePosition m z.2.1 z.1).1 (params.sourcePosition m z.2.1 z.1).2 z.2.2)

namespace PreprocessStep

/-- When a step is sound on an image with the given metadata. -/
def Fits : PreprocessStep → ImageMeta → Prop
  | .debayer => DebayerFits m
  | .resize targetWidth targetHeight => ResizeFits m targetWidth targetHeight
  | .calibration params => CalibrationFits m params
  | _ => fun _ => True

/-- The metadata of the image that a step returns; nothing when it fails. -/
def after : PreprocessStep → ImageMeta → Option ImageMeta
  | .debayer, im =>
    if im.pixelFormat ≠ .bayerRG8 then some im
    else if m.allocates (im.width * im.height * 3 % 2 ^ 64) then
      some { im with channels := 3, pixelFormat := .rgb8 }
    else none
  | .flatField correctionFrame, im =>
    if im.width ≠ correctionFrame.imageMeta.width ∨ im.height ≠ correctionFrame.imageMeta.height ∨
        im.byteSize % 2 ^ 64 ≠ correctionFrame.bytes.length then none
    else some im
  | .whiteBalance _ _ _, im =>
    if im.pixelFormat ≠ .rgb8 ∧ im.pixelFormat ≠ .bgr8 then none else some im
  | .resize targetWidth targetHeight, im =>
    if targetWidth = 0 ∨ targetHeight = 0 then none
    else if im.channels ≠ 1 ∧ im.channels ≠ 3 then none
    else if m.allocates (targetWidth * targetHeight * im.channels % 2 ^ 64) then
      some { im with width := targetWidth, height := targetHeight }
    else none
  | .calibration _, im =>
    if m.allocates (im.width * im.height * im.channels % 2 ^ 64) then some im else none
  | .hdr numExposures, im => if numExposures = 0 then none else some im

end PreprocessStep

/-- Every step that is reached fits. -/
def ChainFits : List PreprocessStep → ImageMeta → Prop
  | [], _ => True
  | step :: steps, im =>
    step.Fits m im ∧ ∀ next, step.after m im = some next → ChainFits steps next

/-! ### The specification of a step -/

namespace StepEnd

/-- The metadata of the image that is returned. -/
def imageMeta? : StepEnd → Option ImageMeta
  | .returned (.ok img) => some img.imageMeta
  | _ => none

/-- A step is sound under a condition, and then returns an image with known metadata or fails. -/
structure Follows (e : StepEnd) (fits : Prop) (next : Option ImageMeta) : Prop where
  sound_iff : e.Sound ↔ fits
  next_eq : e.Sound → e.imageMeta? = next

variable {img : Image}

theorem Follows.congr {e : StepEnd} {fits fits' : Prop} {next : Option ImageMeta}
    (h : e.Follows fits next) (hfits : fits ↔ fits') : e.Follows fits' next :=
  ⟨h.sound_iff.trans hfits, h.next_eq⟩

theorem follows_fail (code : ErrorCode) (message : String) :
    (StepEnd.returned (fail code message)).Follows True none :=
  ⟨Iff.rfl, fun _ => rfl⟩

theorem follows_same (h : Matches img) :
    (StepEnd.returned (.ok img)).Follows True (some img.imageMeta) :=
  ⟨iff_true_intro h, fun _ => rfl⟩

end StepEnd

variable {m} {img : Image}

/-- Stores of values read out of the image's own bytes, all inside of them, keep its size. -/
theorem inPlace_follows {ι : Type} {index : ι → ℕ} {value : List UInt8 → ι → Option UInt8}
    {xs : List ι} (h : Matches img)
    (hvalue : ∀ b : List UInt8, b.length = img.bytes.length → ∀ x ∈ xs, (value b x).isSome = true)
    (hindex : ∀ x ∈ xs, index x < img.bytes.length) :
    (inPlace img index value xs).Follows True (some img.imageMeta) := by
  have hreadable : ∀ b : List UInt8, b.length = img.bytes.length →
      ∀ x ∈ xs, (value b x).isSome = true ↔ True :=
    fun b hb x hx => iff_true_intro (hvalue b hb x hx)
  have hdefined : (storeAll index value xs img.bytes).isSome = true := by
    apply (isSome_storeAll_iff hreadable).mpr
    intro x hx
    exact ⟨trivial, hindex x hx⟩
  obtain ⟨bytes, hbytes⟩ := Option.isSome_iff_exists.mp hdefined
  rw [inPlace, hbytes]
  apply StepEnd.follows_same
  rw [Matches, length_of_storeAll hbytes]
  exact h

theorem intoNewBuffer_follows {size : ℕ} {im : ImageMeta} {index : ℕ × ℕ × ℕ → ℕ}
    {value : ℕ × ℕ × ℕ → Option UInt8} {samples : List (ℕ × ℕ × ℕ)}
    (readable : ℕ × ℕ × ℕ → Prop) (hvalue : ∀ z ∈ samples, (value z).isSome = true ↔ readable z) :
    (intoNewBuffer m size im index value samples).Follows
      (m.allocates size = true → (∀ z ∈ samples, readable z) ∧ (∀ z ∈ samples, index z < size) ∧
        size = im.byteSize % 2 ^ 64)
      (if m.allocates size then some im else none) := by
  have hstores : (storeAll index (fun _ => value) samples (List.replicate size 0)).isSome = true ↔
      ∀ z ∈ samples, readable z ∧ index z < (List.replicate size (0 : UInt8)).length :=
    isSome_storeAll_iff fun _ _ => hvalue
  rw [List.length_replicate] at hstores
  rw [intoNewBuffer]
  by_cases hallocates : m.allocates size = true
  · rw [if_pos hallocates, if_pos hallocates]
    cases hbytes : storeAll index (fun _ => value) samples (List.replicate size 0) with
    | none =>
      rw [hbytes] at hstores
      refine ⟨⟨False.elim, fun hfits => ?_⟩, False.elim⟩
      obtain ⟨hreadable, hindex, -⟩ := hfits hallocates
      exact absurd (hstores.mpr fun z hz => ⟨hreadable z hz, hindex z hz⟩) Bool.false_ne_true
    | some bytes =>
      rw [hbytes] at hstores
      have hsize : bytes.length = size := by
        rw [length_of_storeAll hbytes, List.length_replicate]
      have hinside := hstores.mp rfl
      refine ⟨⟨fun hsound _ => ⟨fun z hz => (hinside z hz).1, fun z hz => (hinside z hz).2, ?_⟩,
        fun hfits => ?_⟩, fun _ => rfl⟩
      · rw [← hsize]
        exact hsound
      · exact hsize.trans (hfits hallocates).2.2
  · rw [if_neg hallocates, if_neg hallocates]
    exact ⟨iff_of_true trivial fun h => absurd h hallocates, fun _ => rfl⟩

/-! ### The steps in place -/

theorem foldBytes_isSome {σ : Type} (f : σ → UInt8 → σ) {bytes : List UInt8} {n : ℕ}
    (hn : n ≤ bytes.length) (start : σ) : ∃ acc, foldBytes f bytes n start = some acc := by
  induction n with
  | zero => exact ⟨start, rfl⟩
  | succ n ih =>
    obtain ⟨acc, hacc⟩ := ih (by omega)
    refine ⟨f acc bytes[n], ?_⟩
    rw [foldBytes] at hacc
    rw [foldBytes, List.range_succ, List.foldlM_append, hacc]
    simp [List.getElem?_eq_getElem (show n < bytes.length by omega)]

theorem flatField_follows (correctionFrame : Image) (h : Matches img) :
    (makeFlatField m correctionFrame img).Follows True
      ((PreprocessStep.flatField correctionFrame).after m img.imageMeta) := by
  rw [makeFlatField, PreprocessStep.after, ← show img.bytes.length = _ from h]
  split_ifs with hmismatch
  · exact StepEnd.follows_fail _ _
  · have hlength : img.bytes.length = correctionFrame.bytes.length := by
      by_contra hne
      exact hmismatch (.inr (.inr hne))
    obtain ⟨sum, hsum⟩ := foldBytes_isSome (fun sum b => (sum + b.toNat) % 2 ^ 64) hlength.le 0
    simp only [hsum]
    apply inPlace_follows h
    · intro b hb i hi
      have hlt : i < img.bytes.length := List.mem_range.mp (List.mem_filter.mp hi).1
      simp [List.getElem?_eq_getElem (show i < b.length by omega),
        List.getElem?_eq_getElem (show i < correctionFrame.bytes.length by omega)]
    · intro i hi
      exact List.mem_range.mp (List.mem_filter.mp hi).1

theorem whiteBalance_follows (rGain gGain bGain : Double) (h : Matches img) :
    (makeWhiteBalance m rGain gGain bGain img).Follows True
      ((PreprocessStep.whiteBalance rGain gGain bGain).after m img.imageMeta) := by
  rw [makeWhiteBalance, PreprocessStep.after]
  by_cases hformat : img.imageMeta.pixelFormat ≠ .rgb8 ∧ img.imageMeta.pixelFormat ≠ .bgr8
  · rw [if_pos hformat, if_pos hformat]
    exact StepEnd.follows_fail _ _
  · rw [if_neg hformat, if_neg hformat]
    have hindex : ∀ z ∈ grid (img.bytes.length / 3) 1 3, z.2.1 * 3 + z.2.2 < img.bytes.length := by
      rintro ⟨y, x, ch⟩ hz
      obtain ⟨-, hx, hch⟩ := mem_grid.mp hz
      show x * 3 + ch < img.bytes.length
      omega
    apply inPlace_follows h
    · intro b hb z hz
      have hlt := hindex z hz
      simp [List.getElem?_eq_getElem (show z.2.1 * 3 + z.2.2 < b.length by omega)]
    · exact hindex

theorem hdr_follows (numExposures : ℕ) (h : Matches img) :
    (makeHDR m numExposures img).Follows True
      ((PreprocessStep.hdr numExposures).after m img.imageMeta) := by
  rw [makeHDR, PreprocessStep.after]
  by_cases hzero : numExposures = 0
  · rw [if_pos hzero, if_pos hzero]
    exact StepEnd.follows_fail _ _
  · rw [if_neg hzero, if_neg hzero]
    by_cases hempty : img.bytes.length = 0
    · rw [if_pos hempty]
      exact StepEnd.follows_same h
    · obtain ⟨⟨minVal, maxVal⟩, hfold⟩ := foldBytes_isSome (fun (acc : UInt8 × UInt8) b =>
        (if b < acc.1 then b else acc.1, if acc.2 < b then b else acc.2))
        (le_refl img.bytes.length) (255, 0)
      simp only [if_neg hempty, hfold]
      by_cases hflat : minVal = maxVal
      · rw [if_pos hflat]
        exact StepEnd.follows_same h
      · rw [if_neg hflat]
        apply inPlace_follows h
        · intro b hb i hi
          have hlt : i < img.bytes.length := List.mem_range.mp hi
          simp [List.getElem?_eq_getElem (show i < b.length by omega)]
        · intro i hi
          exact List.mem_range.mp hi

/-! ### The steps into a new buffer -/

theorem pred64_of_pos {n : ℕ} (h : 0 < n) : pred64 n = n - 1 := if_neg h.ne'

theorem bytesPerChannel_eq (format : PixelFormat) :
    bytesPerChannel format = 1 ∨ bytesPerChannel format = 2 := by
  cases format <;> simp [bytesPerChannel]

theorem isSome_getElem?_iff {bytes : List UInt8} {i : ℕ} :
    (bytes[i]?).isSome = true ↔ i < bytes.length := by
  simp

/-- The position of the corner of its quad that a sample is taken from. -/
def debayerSource (w h : ℕ) (z : ℕ × ℕ × ℕ) : ℕ :=
  let qr := z.1 / 2 * 2
  let qc := z.2.1 / 2 * 2
  match z.2.2 with
  | 0 => qr * w + qc
  | 1 => qr * w + Nat.min (qc + 1) (pred64 w)
  | _ => Nat.min (qr + 1) (pred64 h) * w + Nat.min (qc + 1) (pred64 w)

theorem debayerSource_lt {w h : ℕ} {z : ℕ × ℕ × ℕ} (hz : z ∈ grid w h 3) :
    debayerSource w h z < w * h := by
  obtain ⟨y, x, ch⟩ := z
  obtain ⟨hy, hx, -⟩ := mem_grid.mp hz
  have hcorner : ∀ r c, r < h → c < w → r * w + c < w * h := by
    intro r c hr hc
    have hlt := index_lt hr hc Nat.one_pos
    omega
  have hqr : y / 2 * 2 < h := by omega
  have hqc : x / 2 * 2 < w := by omega
  have hqr1 : Nat.min (y / 2 * 2 + 1) (pred64 h) < h := by
    rw [pred64_of_pos (by omega)]
    exact (Nat.min_le_right _ _).trans_lt (by omega)
  have hqc1 : Nat.min (x / 2 * 2 + 1) (pred64 w) < w := by
    rw [pred64_of_pos (by omega)]
    exact (Nat.min_le_right _ _).trans_lt (by omega)
  match ch with
  | 0 => exact hcorner _ _ hqr hqc
  | 1 => exact hcorner _ _ hqr hqc1
  | _ + 2 => exact hcorner _ _ hqr1 hqc1

/-- The last sample is taken from the last byte. -/
theorem debayerSource_last {w h : ℕ} (hw : 0 < w) (hh : 0 < h) :
    debayerSource w h (h - 1, w - 1, 2) + 1 = w * h := by
  have hlast : ∀ n : ℕ, 0 < n → Nat.min ((n - 1) / 2 * 2 + 1) (pred64 n) = n - 1 := by
    intro n hn
    rw [pred64_of_pos hn]
    exact Nat.min_eq_right (by omega)
  show Nat.min ((h - 1) / 2 * 2 + 1) (pred64 h) * w + Nat.min ((w - 1) / 2 * 2 + 1) (pred64 w) + 1 = _
  obtain ⟨h, rfl⟩ := Nat.exists_eq_add_of_le' hh
  rw [hlast _ hw, hlast _ hh, Nat.add_sub_cancel, Nat.add_assoc, Nat.sub_add_cancel hw,
    Nat.mul_comm w, Nat.succ_mul]

theorem debayer_inside_iff {w h n : ℕ} (hsize : w * h * 3 < 2 ^ 64) :
    (∀ z ∈ grid w h 3, debayerSource w h z % 2 ^ 64 < n) ↔ w * h ≤ n := by
  constructor
  · intro hinside
    by_contra hlarge
    have hpos : 0 < w * h := by omega
    have hw : 0 < w := Nat.pos_of_mul_pos_right hpos
    have hh : 0 < h := Nat.pos_of_mul_pos_left hpos
    have hread := hinside (h - 1, w - 1, 2) (mem_grid.mpr ⟨by omega, by omega, by omega⟩)
    have hlast := debayerSource_last hw hh
    rw [Nat.mod_eq_of_lt (by omega)] at hread
    omega
  · intro hn z hz
    have hlt := debayerSource_lt hz
    rw [Nat.mod_eq_of_lt (by omega)]
    omega

theorem debayer_follows (h : Matches img) :
    (makeDebayer m img).Follows (DebayerFits m img.imageMeta)
      (PreprocessStep.debayer.after m img.imageMeta) := by
  rw [makeDebayer, PreprocessStep.after, DebayerFits, ← show img.bytes.length = _ from h]
  by_cases hformat : img.imageMeta.pixelFormat = .bayerRG8
  · rw [if_neg (not_not.mpr hformat), if_neg (not_not.mpr hformat)]
    apply (intoNewBuffer_follows (fun z =>
      debayerSource img.imageMeta.width img.imageMeta.height z % 2 ^ 64 < img.bytes.length) _).congr
    · have hmeta : ({ img.imageMeta with channels := 3, pixelFormat := .rgb8 } : ImageMeta).byteSize =
          img.imageMeta.width * img.imageMeta.height * 3 := rfl
      rw [forall_index_lt_iff (by norm_num), hmeta]
      constructor
      · intro hfits _ hallocates
        obtain ⟨hinside, hsize, -⟩ := hfits hallocates
        exact ⟨hsize, (debayer_inside_iff hsize).mp hinside⟩
      · intro hfits hallocates
        obtain ⟨hsize, hn⟩ := hfits hformat hallocates
        exact ⟨(debayer_inside_iff hsize).mpr hn, hsize, rfl⟩
    · rintro ⟨y, x, ch⟩ -
      match ch with
      | 0 => exact isSome_getElem?_iff
      | 1 => exact isSome_getElem?_iff
      | _ + 2 => exact isSome_getElem?_iff
  · rw [if_pos hformat, if_pos hformat]
    exact ⟨iff_of_true h fun h => absurd h hformat, fun _ => rfl⟩

variable {w h c n y x ch : ℕ} {sx sy : Double}

theorem isSome_read_iff {α : Type} {bytes : List UInt8} {i : ℕ} {f : UInt8 → Option α} {p : Prop}
    (hf : ∀ v, (f v).isSome = true ↔ p) :
    (bytes[i]? >>= f).isSome = true ↔ i < bytes.length ∧ p := by
  by_cases hi : i < bytes.length
  · rw [List.getElem?_eq_getElem hi]
    exact (hf _).trans (and_iff_right hi).symm
  · rw [List.getElem?_eq_none (Nat.not_lt.mp hi)]
    exact iff_of_false Bool.false_ne_true fun h => hi h.1

theorem isSome_bilinear_iff {bytes : List UInt8} :
    (bilinear m bytes w h c sx sy ch).isSome = true ↔ Sampled bytes.length w h c sx sy ch := by
  rw [bilinear, Sampled]
  cases hx : sx.truncate with
  | none => simp
  | some x0 =>
    cases hy : sy.truncate with
    | none => simp
    | some y0 =>
      simp only [Option.some.injEq, exists_and_left, exists_eq_left']
      exact isSome_read_iff fun _ => isSome_read_iff fun _ => isSome_read_iff fun _ =>
        (isSome_read_iff fun _ => iff_true_intro rfl).trans (Iff.of_eq (and_true _))

/-- A position truncated to a pixel of the image is sampled inside of it. -/
theorem sampled_of_lt (hn : n = w * h * c) (hsize : w * h * c < 2 ^ 64) (hch : ch < c)
    (hx : ∃ x0 < w, sx.truncate = some x0) (hy : ∃ y0 < h, sy.truncate = some y0) :
    Sampled n w h c sx sy ch := by
  obtain ⟨x0, hx0, hx⟩ := hx
  obtain ⟨y0, hy0, hy⟩ := hy
  have hnext : ∀ i k : ℕ, i < k → Nat.min ((i + 1) % 2 ^ 64) (pred64 k) < k := by
    intro i k hi
    rw [pred64_of_pos (by omega)]
    exact (Nat.min_le_right _ _).trans_lt (by omega)
  have hinside : ∀ y x, y < h → x < w → ((y * w + x) * c + ch) % 2 ^ 64 < n := by
    intro y x hy hx
    have hlt := index_lt hy hx hch
    rw [Nat.mod_eq_of_lt (hlt.trans hsize), hn]
    exact hlt
  exact ⟨x0, y0, hx, hy, hinside _ _ hy0 hx0, hinside _ _ hy0 (hnext _ _ hx0),
    hinside _ _ (hnext _ _ hy0) hx0, hinside _ _ (hnext _ _ hy0) (hnext _ _ hx0)⟩

theorem Sampled.pos (h : Sampled n w h c sx sy ch) : 0 < n := by
  obtain ⟨_, _, _, _, hlt, _⟩ := h
  omega

theorem Sampled.ne_nan (h : Sampled n w h c sx sy ch) : sx ≠ .nan ∧ sy ≠ .nan := by
  obtain ⟨x0, y0, hx, hy, _⟩ := h
  constructor
  · rintro rfl
    cases hx
  · rintro rfl
    cases hy

/-- A size without the bytes per channel is the right one only where there is one. -/
theorem size_eq_iff {k b : ℕ} (hk : 0 < k) (hlt : k < 2 ^ 64) (hb : b = 1 ∨ b = 2) :
    k % 2 ^ 64 = k * b % 2 ^ 64 ↔ b = 1 := by
  obtain rfl | rfl := hb <;> omega

theorem byteSize_eq {im : ImageMeta} (hbytes : bytesPerChannel im.pixelFormat = 1)
    (hsize : im.width * im.height * im.channels < 2 ^ 64) :
    im.byteSize % 2 ^ 64 = im.width * im.height * im.channels := by
  rw [ImageMeta.byteSize, hbytes, Nat.mul_one, Nat.mod_eq_of_lt hsize]

theorem resizePosition_truncates {source : ℕ} (hpos : 0 < source) (hexact : source ≤ 2 ^ 53)
    (target o : ℕ) : ∃ k < source, (resizePosition m source target o).truncate = some k :=
  truncate_clamp hpos hexact _

theorem resize_inside_iff {tw th : ℕ} {im : ImageMeta} (hw : 0 < tw) (hh : 0 < th)
    (hc : 0 < im.channels) (hbytes : bytesPerChannel im.pixelFormat = 1) :
    (∀ z ∈ grid tw th im.channels, Sampled (im.byteSize % 2 ^ 64) im.width im.height im.channels
        (resizePosition m im.width tw z.2.1) (resizePosition m im.height th z.1) z.2.2) ↔
      (ExactSides im → im.width * im.height * im.channels < 2 ^ 64 →
        0 < im.width ∧ 0 < im.height) ∧
      (¬ (ExactSides im ∧ im.width * im.height * im.channels < 2 ^ 64) →
        ∀ z ∈ grid tw th im.channels,
          Sampled (im.byteSize % 2 ^ 64) im.width im.height im.channels
            (resizePosition m im.width tw z.2.1) (resizePosition m im.height th z.1) z.2.2) := by
  constructor
  · intro hsampled
    refine ⟨fun _ hsize => ?_, fun _ => hsampled⟩
    have hpos := (hsampled (0, 0, 0) (mem_grid.mpr ⟨hh, hw, hc⟩)).pos
    rw [byteSize_eq hbytes hsize] at hpos
    have hpixels : 0 < im.width * im.height := Nat.pos_of_mul_pos_right hpos
    exact ⟨Nat.pos_of_mul_pos_right hpixels, Nat.pos_of_mul_pos_left hpixels⟩
  · rintro ⟨hregular, hrest⟩
    by_cases hcase : ExactSides im ∧ im.width * im.height * im.channels < 2 ^ 64
    · obtain ⟨hexact, hsize⟩ := hcase
      obtain ⟨hwidth, hheight⟩ := hregular hexact hsize
      rintro ⟨y, x, ch⟩ hz
      exact sampled_of_lt (byteSize_eq hbytes hsize) hsize (mem_grid.mp hz).2.2
        (resizePosition_truncates hwidth hexact.1 _ _)
        (resizePosition_truncates hheight hexact.2 _ _)
    · exact hrest hcase

theorem resize_follows (targetWidth targetHeight : ℕ) (h : Matches img) :
    (makeResize m targetWidth targetHeight img).Follows
      (ResizeFits m targetWidth targetHeight img.imageMeta)
      ((PreprocessStep.resize targetWidth targetHeight).after m img.imageMeta) := by
  have hlength : img.bytes.length = img.imageMeta.byteSize % 2 ^ 64 := h
  rw [makeResize, PreprocessStep.after, ResizeFits]
  by_cases htarget : targetWidth = 0 ∨ targetHeight = 0
  · rw [if_pos htarget, if_pos htarget]
    apply (StepEnd.follows_fail _ _).congr
    exact iff_of_true trivial fun hw hh => by omega
  · rw [if_neg htarget, if_neg htarget]
    by_cases hchannels : img.imageMeta.channels ≠ 1 ∧ img.imageMeta.channels ≠ 3
    · rw [if_pos hchannels, if_pos hchannels]
      apply (StepEnd.follows_fail _ _).congr
      exact iff_of_true trivial fun hw hh hc => by omega
    · rw [if_neg hchannels, if_neg hchannels]
      have hw : 0 < targetWidth := by omega
      have hh : 0 < targetHeight := by omega
      have hc : 0 < img.imageMeta.channels := by omega
      have hpos : 0 < targetWidth * targetHeight * img.imageMeta.channels :=
        Nat.mul_pos (Nat.mul_pos hw hh) hc
      apply (intoNewBuffer_follows (fun z => Sampled img.bytes.length img.imageMeta.width
        img.imageMeta.height img.imageMeta.channels
        (resizePosition m img.imageMeta.width targetWidth z.2.1)
        (resizePosition m img.imageMeta.height targetHeight z.1) z.2.2)
        fun _ _ => isSome_bilinear_iff).congr
      rw [forall_index_lt_iff (by norm_num), hlength]
      have hmeta : ({ img.imageMeta with width := targetWidth, height := targetHeight } :
          ImageMeta).byteSize = targetWidth * targetHeight *
            (img.imageMeta.channels * bytesPerChannel img.imageMeta.pixelFormat) := rfl
      rw [hmeta, ← Nat.mul_assoc]
      constructor
      · intro hfits _ _ _ hallocates
        obtain ⟨hinside, hsize, hmatches⟩ := hfits hallocates
        have hbytes := (size_eq_iff hpos hsize (bytesPerChannel_eq _)).mp hmatches
        exact ⟨hbytes, hsize, (resize_inside_iff hw hh hc hbytes).mp hinside⟩
      · intro hfits hallocates
        obtain ⟨hbytes, hsize, hinside⟩ := hfits hw hh (by omega) hallocates
        exact ⟨(resize_inside_iff hw hh hc hbytes).mpr hinside, hsize,
          (size_eq_iff hpos hsize (bytesPerChannel_eq _)).mpr hbytes⟩

/-- What is not compared to be outside and is no NaN is truncated to a pixel. -/
theorem truncates_of_not_outside {s : Double × Double} (hw : w ≤ 2 ^ 53) (hh : h ≤ 2 ^ 53)
    (hinside : outside m w h s ≠ true) (hx : s.1 ≠ .nan) (hy : s.2 ≠ .nan) :
    (∃ k < w, s.1.truncate = some k) ∧ ∃ k < h, s.2.truncate = some k := by
  rw [outside, ofNat_eq hw, ofNat_eq hh] at hinside
  simp only [ne_eq, Bool.or_eq_true, not_or, Bool.not_eq_true] at hinside
  obtain ⟨⟨⟨hxzero, hyzero⟩, hxw⟩, hyh⟩ := hinside
  exact ⟨truncate_of_lt hx hxzero hxw (by omega), truncate_of_lt hy hyzero hyh (by omega)⟩

theorem calibration_inside_iff {params : CalibrationParams} {im : ImageMeta}
    (hbytes : bytesPerChannel im.pixelFormat = 1)
    (hsize : im.width * im.height * im.channels < 2 ^ 64) {z : ℕ × ℕ × ℕ}
    (hz : z ∈ grid im.width im.height im.channels) :
    (outside m im.width im.height (params.sourcePosition m z.2.1 z.1) = true ∨
      Sampled (im.byteSize % 2 ^ 64) im.width im.height im.channels
        (params.sourcePosition m z.2.1 z.1).1 (params.sourcePosition m z.2.1 z.1).2 z.2.2) ↔
      (outside m im.width im.height (params.sourcePosition m z.2.1 z.1) = true ∨
        (ExactSides im → (params.sourcePosition m z.2.1 z.1).1 ≠ .nan ∧
          (params.sourcePosition m z.2.1 z.1).2 ≠ .nan) ∧
        (¬ ExactSides im → Sampled (im.byteSize % 2 ^ 64) im.width im.height im.channels
          (params.sourcePosition m z.2.1 z.1).1 (params.sourcePosition m z.2.1 z.1).2 z.2.2)) := by
  by_cases houtside : outside m im.width im.height (params.sourcePosition m z.2.1 z.1) = true
  · exact iff_of_true (.inl houtside) (.inl houtside)
  · rw [or_iff_right houtside, or_iff_right houtside]
    constructor
    · intro hsampled
      exact ⟨fun _ => hsampled.ne_nan, fun _ => hsampled⟩
    · rintro ⟨hregular, hrest⟩
      by_cases hexact : ExactSides im
      · obtain ⟨hxnan, hynan⟩ := hregular hexact
        obtain ⟨hx, hy⟩ := truncates_of_not_outside hexact.1 hexact.2 houtside hxnan hynan
        exact sampled_of_lt (byteSize_eq hbytes hsize) hsize (mem_grid.mp hz).2.2 hx hy
      · exact hrest hexact

theorem calibration_follows (params : CalibrationParams) (h : Matches img) :
    (makeCalibration m params img).Follows (CalibrationFits m params img.imageMeta)
      ((PreprocessStep.calibration params).after m img.imageMeta) := by
  have hlength : img.bytes.length = img.imageMeta.byteSize % 2 ^ 64 := h
  rw [makeCalibration, PreprocessStep.after, CalibrationFits]
  apply (intoNewBuffer_follows (fun z => outside m img.imageMeta.width img.imageMeta.height
      (params.sourcePosition m z.2.1 z.1) = true ∨
    Sampled img.bytes.length img.imageMeta.width img.imageMeta.height img.imageMeta.channels
      (params.sourcePosition m z.2.1 z.1).1 (params.sourcePosition m z.2.1 z.1).2 z.2.2) _).congr
  · have hmeta : img.imageMeta.byteSize = img.imageMeta.width * img.imageMeta.height *
        img.imageMeta.channels * bytesPerChannel img.imageMeta.pixelFormat :=
      (Nat.mul_assoc _ _ _).symm
    rw [forall_index_lt_iff (by norm_num), hlength]
    constructor
    · intro hfits hpos hallocates
      obtain ⟨hinside, hsize, hmatches⟩ := hfits hallocates
      rw [hmeta] at hmatches
      have hbytes := (size_eq_iff hpos hsize (bytesPerChannel_eq _)).mp hmatches
      exact ⟨hbytes, hsize, fun z hz => (calibration_inside_iff hbytes hsize hz).mp (hinside z hz)⟩
    · intro hfits hallocates
      obtain hzero | hpos := Nat.eq_zero_or_pos
        (img.imageMeta.width * img.imageMeta.height * img.imageMeta.channels)
      · -- without a sample nothing is read, and both sizes are zero
        rw [hmeta, hzero]
        refine ⟨?_, by norm_num, by rw [Nat.zero_mul]⟩
        rintro ⟨y, x, ch⟩ hz
        obtain ⟨hy, hx, hch⟩ := mem_grid.mp hz
        have hlt := index_lt hy hx hch
        omega
      · obtain ⟨hbytes, hsize, hinside⟩ := hfits hpos hallocates
        refine ⟨fun z hz => (calibration_inside_iff hbytes hsize hz).mpr (hinside z hz), hsize, ?_⟩
        rw [hmeta]
        exact (size_eq_iff hpos hsize (bytesPerChannel_eq _)).mpr hbytes
  · intro z _
    by_cases houtside : outside m img.imageMeta.width img.imageMeta.height
        (params.sourcePosition m z.2.1 z.1) = true
    · simp only [if_pos houtside]
      exact iff_of_true rfl (.inl houtside)
    · simp only [if_neg houtside]
      exact isSome_bilinear_iff.trans (or_iff_right houtside).symm

/-! ### Chains -/

theorem PreprocessStep.run_follows (step : PreprocessStep) (h : Matches img) :
    (step.run m img).Follows (step.Fits m img.imageMeta) (step.after m img.imageMeta) := by
  cases step with
  | debayer => exact debayer_follows h
  | flatField correctionFrame => exact flatField_follows correctionFrame h
  | whiteBalance rGain gGain bGain => exact whiteBalance_follows rGain gGain bGain h
  | resize targetWidth targetHeight => exact resize_follows targetWidth targetHeight h
  | calibration params => exact calibration_follows params h
  | hdr numExposures => exact hdr_follows numExposures h

theorem StepEnd.imageMeta?_eq_some {e : StepEnd} {im : ImageMeta} :
    e.imageMeta? = some im ↔ ∃ next, e = .returned (.ok next) ∧ next.imageMeta = im := by
  constructor
  · intro h
    match e, h with
    | .returned (.ok next), h => exact ⟨next, rfl, Option.some.inj h⟩
  · rintro ⟨next, rfl, rfl⟩
    rfl

/-- A chain is sound exactly when every step of it fits the metadata it is reached with. -/
theorem chainSound_iff_chainFits (m : Machine) (steps : List PreprocessStep) (img : Image)
    (h : Matches img) : ChainSound m steps img ↔ ChainFits m steps img.imageMeta := by
  induction steps generalizing img with
  | nil => exact Iff.rfl
  | cons step steps ih =>
    have hrun := step.run_follows (m := m) h
    constructor
    · rintro ⟨hsound, hrest⟩
      refine ⟨hrun.sound_iff.mp hsound, fun im him => ?_⟩
      rw [← hrun.next_eq hsound] at him
      obtain ⟨next, hnext, rfl⟩ := StepEnd.imageMeta?_eq_some.mp him
      rw [hnext] at hsound
      exact (ih next hsound).mp (hrest next hnext)
    · rintro ⟨hfits, hrest⟩
      have hsound := hrun.sound_iff.mpr hfits
      refine ⟨hsound, fun next hnext => ?_⟩
      have him : step.after m img.imageMeta = some next.imageMeta := by
        rw [← hrun.next_eq hsound]
        exact StepEnd.imageMeta?_eq_some.mpr ⟨next, hnext, rfl⟩
      rw [hnext] at hsound
      exact (ih next hsound).mpr (hrest _ him)

/-- A platform that rounds nothing. -/
def exactMachine : Machine where
  round := .finite
  exact := fun _ _ => rfl
  nanByte := 0
  allocates := fun _ => true

def bayerQuad : Image :=
  ⟨{ width := 2, height := 2, channels := 1, pixelFormat := .bayerRG8 }, [9, 8, 7, 6]⟩

/-- A quad of four is debayered and shrunk to a pixel. -/
theorem chainSound_iff_chainFits_quad :
    ChainSound exactMachine [.debayer, .resize 1 1] bayerQuad := by
  have hmatches : Matches bayerQuad := rfl
  apply (chainSound_iff_chainFits exactMachine _ bayerQuad hmatches).mpr
  refine ⟨fun _ _ => by decide, fun im him => ⟨fun _ _ _ _ => ?_, fun _ _ => trivial⟩⟩
  obtain rfl := Option.some.inj him
  exact ⟨rfl, by decide, fun _ _ => by decide, fun h => absurd ⟨⟨by decide, by decide⟩, by decide⟩ h⟩

def mono16Pixel : Image :=
  ⟨{ width := 1, height := 1, channels := 1, pixelFormat := .mono16 }, [0, 0]⟩

/-- A pixel of two bytes is resized to one of a single byte. -/
theorem resize_halves_pixel : Matches mono16Pixel ∧
    compose exactMachine [.resize 1 1] mono16Pixel =
      .returned (.ok ⟨mono16Pixel.imageMeta, [0]⟩) ∧
    ¬ ChainSound exactMachine [.resize 1 1] mono16Pixel := by
  have hstep : (PreprocessStep.resize 1 1).run exactMachine mono16Pixel =
      .returned (.ok ⟨mono16Pixel.imageMeta, [0]⟩) := by
    with_unfolding_all rfl
  refine ⟨rfl, by rw [compose, hstep]; rfl, ?_⟩
  rintro ⟨hsound, -⟩
  rw [hstep] at hsound
  exact absurd hsound (show ¬ 1 = 2 by decide)

/-- What a sound chain ends with is sound. -/
theorem compose_sound {steps : List PreprocessStep} (h : Matches img)
    (hchain : ChainSound m steps img) : (compose m steps img).Sound := by
  induction steps generalizing img with
  | nil => exact h
  | cons step steps ih =>
    obtain ⟨hsound, hrest⟩ := hchain
    rw [compose]
    split
    · next next hnext =>
      rw [hnext] at hsound
      exact ih hsound (hrest next hnext)
    · exact hsound

end SurfaceAi.Images
