import SurfaceAi.Core.Error
import SurfaceAi.Core.Image
import SurfaceAi.Library.ByteWords
import Mathlib.Data.Int.Init

/-! Importing an image file. TIFF files go through a parser of the first directory and one strip;
what `stb_image` makes of the other files is a parameter. Sizes are 64-bit words and dimensions are
32-bit integers. `malloc` may refuse; memory is taken to suffice for the vectors. -/

namespace SurfaceAi.Io

open ByteWords

/-- `std::filesystem::path::extension`. -/
def extension (path : String) : String :=
  let name := (path.toList.reverse.takeWhile (· ≠ '/')).reverse
  let suffix := (name.reverse.takeWhile (· ≠ '.')).reverse
  if suffix.length + 1 < name.length ∧ name ≠ ['.', '.'] then String.ofList ('.' :: suffix) else ""

def isTiff (path : String) : Bool := extension path = ".tif" ∨ extension path = ".tiff"

/-- `static_cast<int>`. -/
def toInt (n : ℕ) : ℤ := (n : ℤ).bmod (2 ^ 32)

/-- `static_cast<std::size_t>` of an `int`. -/
def toSize (i : ℤ) : ℕ := (i % 2 ^ 64).toNat

theorem toInt_eq (n : ℕ) :
    toInt n = if (n : ℤ) % 4294967296 < 2147483648 then (n : ℤ) % 4294967296
      else n % 4294967296 - 4294967296 := rfl

theorem toInt_of_lt {n : ℕ} (h : n < 2 ^ 31) : toInt n = n := by
  rw [toInt_eq]
  split_ifs <;> omega

theorem toInt_pos_iff {n : ℕ} (h : n < 2 ^ 32) : 0 < toInt n ↔ 0 < n ∧ n < 2 ^ 31 := by
  rw [toInt_eq]
  split_ifs <;> omega

theorem toSize_natCast {n : ℕ} (h : n < 2 ^ 64) : toSize n = n := by
  unfold toSize
  omega

def parseFailed {α : Type} (message : String) : Outcome α :=
  some (fail .ioImportParseFailed message)

/-! ### The TIFF parser -/

/-- What an entry of the directory is read as: `value` where a short value is looked for, `valOff`
where it is not. -/
structure Entry where
  tag : ℕ
  value : ℕ
  valOff : ℕ

/-- What is kept of the directory. -/
@[ext]
structure Fields where
  imgW : ℕ := 0
  imgH : ℕ := 0
  bps : ℕ := 8
  spp : ℕ := 1
  stripOffset : ℕ := 0
  stripBytes : ℕ := 0
  deriving DecidableEq

def Fields.record (f : Fields) (e : Entry) : Fields :=
  if e.tag = 256 then { f with imgW := e.value }
  else if e.tag = 257 then { f with imgH := e.value }
  else if e.tag = 258 then { f with bps := e.value }
  else if e.tag = 277 then { f with spp := e.value }
  else if e.tag = 273 then { f with stripOffset := e.valOff }
  else if e.tag = 279 then { f with stripBytes := e.valOff }
  else f

section Parser

variable (order : Endian) (bytes : List UInt8)

/-- The short value at the place, if the entry is one; else what is offered for it. -/
def readValue (type count valOff off : ℕ) : Option ℕ :=
  if type = 3 ∧ count = 1 then order.readAt 2 bytes off else some valOff

def readEntry (off : ℕ) : Option Entry := do
  let tag ← order.readAt 2 bytes off
  let type ← order.readAt 2 bytes (off + 2)
  let count ← order.readAt 4 bytes (off + 4)
  let valOff ← order.readAt 4 bytes (off + 8)
  let value ← readValue order bytes type count valOff (off + 8)
  some ⟨tag, value, valOff⟩

/-- The loop over the entries, with so many to go; it ends where the file does. -/
def walk : ℕ → ℕ → Fields → Option Fields
  | 0, _, f => some f
  | n + 1, off, f =>
    if bytes.length < off + 12 then some f
    else (readEntry order bytes off).bind fun e => walk n (off + 12) (f.record e)

def byteOrder : Option Endian :=
  if bytes.take 2 = [0x49, 0x49] then some .little
  else if bytes.take 2 = [0x4D, 0x4D] then some .big
  else none

/-- The parser up to its check for missing tags. -/
def readFields : Outcome Fields :=
  if bytes.length < 8 then parseFailed "TIFF file too small"
  else
    match byteOrder bytes with
    | none => parseFailed "Not a valid TIFF file"
    | some order =>
      (order.readAt 4 bytes 4).bind fun ifdOffset =>
        if bytes.length < ifdOffset + 2 then parseFailed "TIFF: IFD out of bounds"
        else
          (order.readAt 2 bytes ifdOffset).bind fun n =>
            (walk order bytes n (ifdOffset + 2) {}).bind fun f =>
              if f.imgW = 0 ∨ f.imgH = 0 ∨ f.stripOffset = 0 ∨ f.stripBytes = 0 then
                parseFailed "TIFF: missing required tags"
              else some (.ok f)

end Parser

/-- `width`, `height`, `channels_in_file` and `is_16bit`, and the pixels if there are any. -/
structure Decoded where
  width : ℤ
  height : ℤ
  channels : ℤ
  is16bit : Bool
  pixels : Option (List UInt8)

/-- The product of the sizes, before it is wrapped. -/
def product (width height channels : ℤ) (is16bit : Bool) : ℕ :=
  toSize width * toSize height * toSize channels * if is16bit then 2 else 1

/-- `memcpy` from the file; it must not read past the end. -/
def copyStrip (bytes : List UInt8) (off count : ℕ) : Option (List UInt8) :=
  if off + count ≤ bytes.length then some ((bytes.drop off).take count) else none

namespace Fields

variable (f : Fields)

/-- The size of the pixels in bytes, before it is wrapped. -/
def product : ℕ := Io.product (toInt f.imgW) (toInt f.imgH) (toInt f.spp) (f.bps = 16)

def dataSize : ℕ := f.product % 2 ^ 64

end Fields

/-- The parser from the check of the strip on. -/
def decodeStrip (mallocs : ℕ → Bool) (bytes : List UInt8) (f : Fields) : Outcome Decoded :=
  if bytes.length < (f.stripOffset + f.dataSize) % 2 ^ 64 then
    parseFailed "TIFF: strip data out of bounds"
  else if mallocs f.dataSize then
    (copyStrip bytes f.stripOffset f.dataSize).map fun pixels =>
      .ok ⟨toInt f.imgW, toInt f.imgH, toInt f.spp, f.bps = 16, some pixels⟩
  else parseFailed "TIFF: malloc failed"

def decodeTiff (mallocs : ℕ → Bool) (bytes : List UInt8) : Outcome Decoded :=
  (readFields bytes).andThen (decodeStrip mallocs bytes)

/-! ### The image -/

/-- A raw image, with the bits of its samples. -/
structure RawImage where
  imageMeta : ImageMeta
  bitsPerSample : ℕ
  bytes : List UInt8
  deriving DecidableEq

def pixelFormat (channels : ℤ) (is16bit : Bool) : PixelFormat :=
  if is16bit then
    if channels = 1 then .mono16 else if channels = 3 then .rgb16 else .mono16
  else if channels = 1 then .mono8
  else .rgb8

def metaOf (d : Decoded) : ImageMeta where
  width := toSize d.width
  height := toSize d.height
  channels := toSize d.channels
  pixelFormat := pixelFormat d.channels d.is16bit

/-- The checks of what is decoded, and the image; `reason` is what `stb_image` says it failed for. -/
def finish (path reason : String) (d : Decoded) : Outcome RawImage :=
  match d.pixels with
  | none =>
    if d.is16bit then parseFailed ("16-bit image decode failed [" ++ path ++ "]")
    else parseFailed ("Image decode failed: " ++ reason ++ " [" ++ path ++ "]")
  | some pixels =>
    if d.width ≤ 0 ∨ d.height ≤ 0 then
      parseFailed ("Decoded image has invalid dimensions: " ++ path)
    else
      let total := product d.width d.height d.channels d.is16bit % 2 ^ 64
      if total ≤ pixels.length then
        some (.ok ⟨metaOf d, if d.is16bit then 16 else 8, pixels.take total⟩)
      else none

/-- What is at a path. -/
inductive FileState
  | missing
  | unopened
  | unread
  | holds (bytes : List UInt8)

/-- `ImportImage`. -/
def importImage (mallocs : ℕ → Bool) (stb : List UInt8 → Decoded × String) (path : String) :
    FileState → Outcome RawImage
  | .missing => some (fail .ioImportFileNotFound ("Image file not found: " ++ path))
  | .unopened => some (fail .ioImportFileNotFound ("Cannot open image file: " ++ path))
  | .unread => parseFailed ("Failed to read image file: " ++ path)
  | .holds bytes =>
    if bytes = [] then parseFailed ("Empty image file: " ++ path)
    else if isTiff path then
      (decodeTiff mallocs bytes).andThen (finish path "")
    else finish path (stb bytes).2 (stb bytes).1

/-! ### What the parser reads -/

section Reading

variable {order : Endian} {bytes : List UInt8}

theorem readEntry_valOff_lt {off : ℕ} {e : Entry} (h : readEntry order bytes off = some e) :
    e.valOff < 2 ^ 32 := by
  simp only [readEntry, Option.bind_eq_bind, Option.bind_eq_some_iff] at h
  obtain ⟨_, -, _, -, _, -, valOff, hval, _, -, he⟩ := h
  rw [← Option.some.inj he]
  exact Endian.readAt_lt hval

variable (order) in
theorem exists_readEntry {off : ℕ} (h : off + 12 ≤ bytes.length) :
    ∃ e, readEntry order bytes off = some e := by
  obtain ⟨tag, htag, -⟩ := order.exists_readAt (by omega : off + 2 ≤ bytes.length)
  obtain ⟨type, htype, -⟩ := order.exists_readAt (by omega : off + 2 + 2 ≤ bytes.length)
  obtain ⟨count, hcount, -⟩ := order.exists_readAt (by omega : off + 4 + 4 ≤ bytes.length)
  obtain ⟨valOff, hvalOff, -⟩ := order.exists_readAt (by omega : off + 8 + 4 ≤ bytes.length)
  obtain ⟨short, hshort, -⟩ := order.exists_readAt (by omega : off + 8 + 2 ≤ bytes.length)
  simp only [readEntry, readValue, htag, htype, hcount, hvalOff, hshort, Option.bind_eq_bind,
    Option.bind_some]
  split_ifs
  · exact ⟨_, rfl⟩
  · exact ⟨_, rfl⟩

/-- Each entry is recorded in the field of its tag. -/
theorem Fields.record_eq (f : Fields) (e : Entry) :
    f.record e =
      { imgW := if e.tag = 256 then e.value else f.imgW
        imgH := if e.tag = 257 then e.value else f.imgH
        bps := if e.tag = 258 then e.value else f.bps
        spp := if e.tag = 277 then e.value else f.spp
        stripOffset := if e.tag = 273 then e.valOff else f.stripOffset
        stripBytes := if e.tag = 279 then e.valOff else f.stripBytes } := by
  unfold record
  split_ifs <;> first | rfl | omega

variable (order bytes) in
/-- The walk never reads outside the file, and keeps an offset that the file can spell. -/
theorem exists_walk (n off : ℕ) {f : Fields} (hf : f.stripOffset < 2 ^ 32) :
    ∃ f', walk order bytes n off f = some f' ∧ f'.stripOffset < 2 ^ 32 := by
  induction n generalizing off f with
  | zero => exact ⟨f, rfl, hf⟩
  | succ n ih =>
    rw [walk]
    split_ifs with hend
    · exact ⟨f, rfl, hf⟩
    · obtain ⟨e, he⟩ := exists_readEntry order (not_lt.mp hend)
      rw [he, Option.bind_some]
      apply ih
      rw [Fields.record_eq]
      dsimp only
      split_ifs
      · exact readEntry_valOff_lt he
      · exact hf

theorem exists_readFields (bytes : List UInt8) :
    ∃ result, readFields bytes = some result ∧ ∀ f, result = .ok f → f.stripOffset < 2 ^ 32 := by
  have herror (message : String) : ∃ result, parseFailed message = some result ∧
      ∀ f : Fields, result = .ok f → f.stripOffset < 2 ^ 32 :=
    ⟨_, rfl, fun _ h => nomatch h⟩
  unfold readFields
  split_ifs with hsmall
  · exact herror _
  · cases byteOrder bytes with
    | none => exact herror _
    | some order =>
      obtain ⟨ifd, hifd, -⟩ := order.exists_readAt (by omega : 4 + 4 ≤ bytes.length)
      simp only [hifd, Option.bind_some]
      split_ifs with hout
      · exact herror _
      · obtain ⟨n, hn, -⟩ := order.exists_readAt (by omega : ifd + 2 ≤ bytes.length)
        obtain ⟨f, hwalk, hlt⟩ := exists_walk order bytes n (ifd + 2) (f := {}) (by decide)
        simp only [hn, hwalk, Option.bind_some]
        split_ifs
        · exact herror _
        · refine ⟨_, rfl, ?_⟩
          intro f' hf'
          rw [← Except.ok.inj hf']
          exact hlt

end Reading

/-! ### What is accepted -/

namespace Fields

variable (f : Fields)

/-- The directory is one the decoder makes an image of. -/
structure Accepted (mallocs : ℕ → Bool) (bytes : List UInt8) : Prop where
  width : 0 < toInt f.imgW
  height : 0 < toInt f.imgH
  strip : f.stripOffset + f.dataSize ≤ bytes.length
  malloc : mallocs f.dataSize = true

def decoded (bytes : List UInt8) : Decoded where
  width := toInt f.imgW
  height := toInt f.imgH
  channels := toInt f.spp
  is16bit := f.bps = 16
  pixels := some ((bytes.drop f.stripOffset).take f.dataSize)

def image (bytes : List UInt8) : RawImage where
  imageMeta := metaOf (f.decoded bytes)
  bitsPerSample := if f.bps = 16 then 16 else 8
  bytes := (bytes.drop f.stripOffset).take f.dataSize

theorem length_image {f : Fields} {mallocs : ℕ → Bool} {bytes : List UInt8}
    (h : f.Accepted mallocs bytes) : (f.image bytes).bytes.length = f.dataSize := by
  have := h.strip
  rw [image, List.length_take, List.length_drop]
  omega

end Fields

section Accepting

variable {mallocs : ℕ → Bool} {stb : List UInt8 → Decoded × String} {path : String}
  {bytes : List UInt8}

variable (bytes) in
/-- The offset and the size are not wrapped where `malloc` gives what is asked for. -/
theorem decodeStrip_ok (hmalloc : ∀ n, mallocs n = true → n < 2 ^ 63) {f : Fields}
    (hoffset : f.stripOffset < 2 ^ 32) :
    ∃ result, decodeStrip mallocs bytes f = some result ∧ ∀ d, result = .ok d ↔
      f.stripOffset + f.dataSize ≤ bytes.length ∧ mallocs f.dataSize = true ∧
        d = f.decoded bytes := by
  by_cases hgiven : mallocs f.dataSize = true
  · have hsize := hmalloc _ hgiven
    rw [decodeStrip, Nat.mod_eq_of_lt (by omega), if_pos hgiven]
    split_ifs with hout
    · refine ⟨_, rfl, fun d => ⟨fun h => (nomatch h), fun h => ?_⟩⟩
      omega
    · rw [copyStrip, if_pos (not_lt.mp hout)]
      refine ⟨_, rfl, fun d => ⟨fun h => ?_, fun h => ?_⟩⟩
      · exact ⟨not_lt.mp hout, hgiven, (Except.ok.inj h).symm⟩
      · rw [h.2.2]
        rfl
  · rw [decodeStrip, if_neg hgiven]
    have herror (message : String) : ∃ result, parseFailed message = some result ∧
        ∀ d, result = .ok d ↔ f.stripOffset + f.dataSize ≤ bytes.length ∧
          mallocs f.dataSize = true ∧ d = f.decoded bytes :=
      ⟨_, rfl, fun d => ⟨fun h => (nomatch h), fun h => absurd h.2.1 hgiven⟩⟩
    split_ifs
    · exact herror _
    · exact herror _

theorem finish_decoded {reason : String} {f : Fields}
    (hstrip : f.stripOffset + f.dataSize ≤ bytes.length) :
    finish path reason (f.decoded bytes) =
      if toInt f.imgW ≤ 0 ∨ toInt f.imgH ≤ 0 then
        parseFailed ("Decoded image has invalid dimensions: " ++ path)
      else some (.ok (f.image bytes)) := by
  have hlength : ((bytes.drop f.stripOffset).take f.dataSize).length = f.dataSize := by
    rw [List.length_take, List.length_drop]
    omega
  have htotal : product (toInt f.imgW) (toInt f.imgH) (toInt f.spp) (f.bps = 16) % 2 ^ 64 =
      f.dataSize := rfl
  simp only [finish, Fields.decoded, htotal, hlength, le_refl, if_true, decide_eq_true_eq]
  congr 3
  rw [List.take_of_length_le hlength.le]
  rfl

variable (stb bytes) in
/-- A file with the extension of a TIFF file never leads outside itself, and what is accepted is
the image of its directory. -/
theorem importImage_tiff (hmalloc : ∀ n, mallocs n = true → n < 2 ^ 63)
    (hpath : isTiff path = true) :
    ∃ result, importImage mallocs stb path (.holds bytes) = some result ∧
      ∀ img, result = .ok img ↔
        ∃ f, readFields bytes = some (.ok f) ∧ f.Accepted mallocs bytes ∧ img = f.image bytes := by
  have hrefused {result : Result RawImage} (hresult : ∀ img, result ≠ .ok img)
      (hnone : ∀ f, readFields bytes = some (.ok f) → ¬ f.Accepted mallocs bytes) :
      ∀ img, result = .ok img ↔
        ∃ f, readFields bytes = some (.ok f) ∧ f.Accepted mallocs bytes ∧ img = f.image bytes := by
    intro img
    refine ⟨fun h => absurd h (hresult img), ?_⟩
    rintro ⟨f, hf, haccepted, -⟩
    exact absurd haccepted (hnone f hf)
  by_cases hempty : bytes = []
  · rw [importImage, if_pos hempty]
    refine ⟨_, rfl, hrefused (fun _ h => nomatch h) ?_⟩
    intro f hf
    rw [hempty] at hf
    cases hf
  rw [importImage, if_neg hempty, if_pos hpath]
  obtain ⟨fields, hfields, hlt⟩ := exists_readFields bytes
  cases fields with
  | error e =>
    rw [decodeTiff, hfields, Outcome.andThen_error, Outcome.andThen_error]
    rw [← hfields]
    refine ⟨.error e, rfl, hrefused (fun _ h => nomatch h) ?_⟩
    intro f hf
    rw [hfields] at hf
    cases hf
  | ok f =>
    have hthis {f' : Fields} (hf' : readFields bytes = some (.ok f')) : f' = f := by
      rw [hfields] at hf'
      exact (Except.ok.inj (Option.some.inj hf')).symm
    obtain ⟨result, hdecode, hresult⟩ := decodeStrip_ok bytes hmalloc (hlt f rfl)
    have htiff : decodeTiff mallocs bytes = some result := by
      rw [decodeTiff, hfields, Outcome.andThen_ok, hdecode]
    rw [htiff]
    cases result with
    | error e =>
      rw [Outcome.andThen_error]
      refine ⟨.error e, rfl, hrefused (fun _ h => nomatch h) ?_⟩
      intro f' hf' haccepted
      rw [hthis hf'] at haccepted
      cases (hresult (f.decoded bytes)).mpr ⟨haccepted.strip, haccepted.malloc, rfl⟩
    | ok d =>
      obtain ⟨hstrip, hgiven, rfl⟩ := (hresult d).mp rfl
      rw [Outcome.andThen_ok, finish_decoded hstrip]
      split_ifs with hinvalid
      · refine ⟨_, rfl, hrefused (fun _ h => nomatch h) ?_⟩
        intro f' hf' haccepted
        rw [hthis hf'] at haccepted
        have := haccepted.width
        have := haccepted.height
        omega
      · refine ⟨_, rfl, ?_⟩
        intro img
        constructor
        · intro himg
          exact ⟨f, hfields, ⟨by omega, by omega, hstrip, hgiven⟩, (Except.ok.inj himg).symm⟩
        · rintro ⟨f', hf', -, rfl⟩
          rw [hthis hf']

end Accepting

end SurfaceAi.Io
