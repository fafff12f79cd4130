import SurfaceAi.Io.BasicImporter

/-! What a TIFF file of one uncompressed strip is, from the format and not from the parser: a grey
or RGB image, a directory of entries in the order of their tags, and the samples in the byte order of
the file. The parser takes the values of the directory for what they are exactly where the format
leaves no choice, and so its image is the file's only on some of these files. -/

namespace SurfaceAi.Io

open ByteWords

/-! ### The format -/

/-- A grey or RGB image of 8-bit or 16-bit samples. -/
structure SampleImage where
  width : ℕ
  height : ℕ
  samplesPerPixel : ℕ
  bits : ℕ
  samples : List ℕ
  width_pos : 1 ≤ width
  height_pos : 1 ≤ height
  samplesPerPixel_eq : samplesPerPixel = 1 ∨ samplesPerPixel = 3
  bits_eq : bits = 8 ∨ bits = 16
  length_samples : samples.length = width * height * samplesPerPixel
  samples_lt : ∀ s ∈ samples, s < 2 ^ bits

namespace SampleImage

variable (image : SampleImage)

/-- The samples as bytes. -/
def raw (order : Endian) : List UInt8 := image.samples.flatMap (order.spell (image.bits / 8))

def format : PixelFormat :=
  if image.bits = 16 then if image.samplesPerPixel = 1 then .mono16 else .rgb16
  else if image.samplesPerPixel = 1 then .mono8
  else .rgb8

/-- The image in memory, where a sample has its least significant byte first. -/
def inMemory : RawImage where
  imageMeta :=
    { width := image.width
      height := image.height
      channels := image.samplesPerPixel
      pixelFormat := image.format }
  bitsPerSample := image.bits
  bytes := image.raw .little

theorem length_raw (order : Endian) :
    (image.raw order).length = image.width * image.height * image.samplesPerPixel *
      (image.bits / 8) := by
  simp [raw, List.length_flatMap, image.length_samples]

theorem length_raw_pos (order : Endian) : 0 < (image.raw order).length := by
  rw [length_raw]
  have hw := image.width_pos
  have hh := image.height_pos
  have hs : 0 < image.samplesPerPixel := by
    rcases image.samplesPerPixel_eq with h | h <;> omega
  have hb : 0 < image.bits / 8 := by
    rcases image.bits_eq with h | h <;> omega
  positivity

end SampleImage

/-- Pieces of the same lengths are the same if what they are put together to is. -/
theorem flatMap_eq_iff {α β : Type} {f g : α → List β} {xs : List α}
    (hlength : ∀ x, (f x).length = (g x).length) :
    xs.flatMap f = xs.flatMap g ↔ ∀ x ∈ xs, f x = g x := by
  induction xs with
  | nil => simp
  | cons x xs ih =>
    rw [List.flatMap_cons, List.flatMap_cons, List.forall_mem_cons, ← ih]
    constructor
    · intro h
      exact List.append_inj h (hlength x)
    · rintro ⟨hx, hxs⟩
      rw [hx, hxs]

theorem spell_big_eq_iff {s : ℕ} (hs : s < 2 ^ 16) :
    Endian.big.spell 2 s = Endian.little.spell 2 s ↔ s % 256 = s / 256 := by
  have hlow : s / 256 < 256 := by omega
  simp only [Endian.spell, spell_succ, spell_zero, List.reverse_cons, List.reverse_nil,
    List.nil_append, List.cons_append, List.cons.injEq, and_true, ← UInt8.toNat_inj,
    UInt8.toNat_ofNat']
  omega

/-- The order of the bytes can only be seen in 16-bit samples of two different bytes. -/
theorem SampleImage.raw_eq_iff (image : SampleImage) (order : Endian) :
    image.raw .little = image.raw order ↔
      order = .little ∨ image.bits = 8 ∨ ∀ s ∈ image.samples, s % 256 = s / 256 := by
  cases order with
  | little => simp
  | big =>
    rw [eq_comm, raw, raw, flatMap_eq_iff (by simp)]
    rcases image.bits_eq with hbits | hbits
    · simp only [hbits, reduceCtorEq, true_or, or_true, iff_true]
      intro s _
      rfl
    · simp only [hbits, reduceCtorEq, false_or, show (16 : ℕ) ≠ 8 by decide]
      refine forall₂_congr fun s hs => spell_big_eq_iff ?_
      exact hbits ▸ image.samples_lt s hs

/-- An entry of a directory: a value of up to four bytes stands in its field from the left, and a
longer one where the field says. -/
structure DirectoryEntry where
  tag : ℕ
  type : ℕ
  count : ℕ
  field : List UInt8
  tag_lt : tag < 2 ^ 16
  type_lt : type < 2 ^ 16
  count_lt : count < 2 ^ 32
  length_field : field.length = 4

namespace DirectoryEntry

variable (order : Endian) (e : DirectoryEntry)

def encode : List UInt8 :=
  order.spell 2 e.tag ++ (order.spell 2 e.type ++ (order.spell 4 e.count ++ e.field))

/-- The entry stores one number, as a SHORT or as a LONG. What is left of the field of a SHORT is
open. -/
def Stores (v : ℕ) : Prop :=
  e.count = 1 ∧ (e.type = 3 ∧ v < 2 ^ 16 ∧ order.spell 2 v <+: e.field ∨
    e.type = 4 ∧ v < 2 ^ 32 ∧ order.spell 4 v = e.field)

@[simp] theorem length_encode : (e.encode order).length = 12 := by
  simp [encode, e.length_field]

end DirectoryEntry

/-- The two bytes that a file in this byte order starts with. -/
def mark : Endian → List UInt8
  | .little => [0x49, 0x49]
  | .big => [0x4D, 0x4D]

/-- How the bits of the samples are stored: one number in the entry, or three in a row elsewhere. -/
def StoresBits (order : Endian) (bytes : List UInt8) (image : SampleImage) (e : DirectoryEntry)
    (arrayOffset : ℕ) : Prop :=
  image.samplesPerPixel = 1 ∧ e.Stores order image.bits ∨
  image.samplesPerPixel = 3 ∧ e.type = 3 ∧ e.count = 3 ∧ arrayOffset < 2 ^ 32 ∧
    order.spell 4 arrayOffset = e.field ∧
    (List.replicate 3 (order.spell 2 image.bits)).flatten <+: bytes.drop arrayOffset

/-- The file holds the image in one uncompressed strip. The entries of other tags, and what stands
anywhere else, are open. -/
structure SingleStrip (image : SampleImage) (bytes : List UInt8) where
  order : Endian
  ifd : ℕ
  entries : List DirectoryEntry
  widthEntry : DirectoryEntry
  heightEntry : DirectoryEntry
  bitsEntry : DirectoryEntry
  stripEntry : DirectoryEntry
  countEntry : DirectoryEntry
  arrayOffset : ℕ
  stripOffset : ℕ
  ifd_lt : ifd < 2 ^ 32
  entries_lt : entries.length < 2 ^ 16
  header : mark order ++ (order.spell 2 42 ++ order.spell 4 ifd) <+: bytes
  directory : order.spell 2 entries.length ++ entries.flatMap (·.encode order) <+: bytes.drop ifd
  sorted : entries.Pairwise (·.tag < ·.tag)
  width : widthEntry ∈ entries ∧ widthEntry.tag = 256 ∧ widthEntry.Stores order image.width
  height : heightEntry ∈ entries ∧ heightEntry.tag = 257 ∧ heightEntry.Stores order image.height
  bits : bitsEntry ∈ entries ∧ bitsEntry.tag = 258 ∧
    StoresBits order bytes image bitsEntry arrayOffset
  samplesPerPixel : (∃ e ∈ entries, e.tag = 277 ∧ e.Stores order image.samplesPerPixel) ∨
    (∀ e ∈ entries, e.tag ≠ 277) ∧ image.samplesPerPixel = 1
  strip : stripEntry ∈ entries ∧ stripEntry.tag = 273 ∧ stripEntry.Stores order stripOffset
  count : countEntry ∈ entries ∧ countEntry.tag = 279 ∧
    countEntry.Stores order (image.raw order).length
  stripOffset_pos : 8 ≤ stripOffset
  data : image.raw order <+: bytes.drop stripOffset

/-! ### What is read of it -/

namespace DirectoryEntry

variable {order : Endian} {e : DirectoryEntry} {v : ℕ}

/-- What the parser reads of the entry. -/
def read (order : Endian) (e : DirectoryEntry) : Entry where
  tag := e.tag
  value := if e.type = 3 ∧ e.count = 1 then order.value (e.field.take 2) else order.value e.field
  valOff := order.value e.field

theorem Stores.value_read (h : e.Stores order v) : (e.read order).value = v := by
  obtain ⟨hcount, ⟨htype, hv, hfield⟩ | ⟨htype, hv, hfield⟩⟩ := h
  · have hprefix := List.prefix_iff_eq_take.mp hfield
    rw [Endian.length_spell] at hprefix
    rw [read, if_pos ⟨htype, hcount⟩, ← hprefix, Endian.value_spell_of_lt hv]
  · have hlong : ¬ (e.type = 3 ∧ e.count = 1) := by omega
    rw [read, if_neg hlong, ← hfield, Endian.value_spell_of_lt hv]

theorem Stores.valOff_pos (h : e.Stores order v) (hv : 0 < v) : 0 < (e.read order).valOff := by
  obtain ⟨-, ⟨-, hlt, hfield⟩ | ⟨-, hlt, hfield⟩⟩ := h
  · apply Endian.value_pos_of_prefix hfield
    rwa [Endian.value_spell_of_lt hlt]
  · rw [read, ← hfield, Endian.value_spell_of_lt hlt]
    exact hv

theorem Stores.lt (h : e.Stores order v) : v < 2 ^ 32 := by
  obtain ⟨-, ⟨-, hlt, -⟩ | ⟨-, hlt, -⟩⟩ := h
  · exact hlt.trans (by decide)
  · exact hlt

end DirectoryEntry

theorem prefix_drop_add {xs ys bytes : List UInt8} {off : ℕ} (h : xs ++ ys <+: bytes.drop off) :
    ys <+: bytes.drop (off + xs.length) := by
  obtain ⟨rest, hrest⟩ := h
  rw [← List.drop_drop, ← hrest, List.append_assoc, List.drop_left' rfl]
  exact List.prefix_append _ _

theorem readAt_spell {order : Endian} {w n off : ℕ} {bytes : List UInt8} (hw : 0 < w)
    (hn : n < 256 ^ w) (h : order.spell w n <+: bytes.drop off) :
    order.readAt w bytes off = some n := by
  have := order.readAt_of_prefix h (by rwa [Endian.length_spell])
  rwa [Endian.length_spell, Endian.value_spell_of_lt hn] at this

section Walking

variable {order : Endian} {bytes : List UInt8}

theorem readEntry_encode {e : DirectoryEntry} {off : ℕ} (h : e.encode order <+: bytes.drop off) :
    readEntry order bytes off = some (e.read order) := by
  have htype := prefix_drop_add h
  have hcount := prefix_drop_add htype
  have hfield := prefix_drop_add hcount
  simp only [Endian.length_spell, Nat.add_assoc, Nat.reduceAdd] at htype hcount hfield
  have htag := readAt_spell (by decide) e.tag_lt ((List.prefix_append _ _).trans h)
  have htype := readAt_spell (by decide) e.type_lt ((List.prefix_append _ _).trans htype)
  have hcount := readAt_spell (by decide) e.count_lt ((List.prefix_append _ _).trans hcount)
  have hlong := order.readAt_of_prefix hfield (by simp [e.length_field])
  have hshort := order.readAt_of_prefix ((List.take_prefix 2 _).trans hfield)
    (by simp [e.length_field])
  rw [e.length_field] at hlong
  rw [List.length_take, e.length_field] at hshort
  simp only [readEntry, readValue, htag, htype, hcount, hlong, Option.bind_eq_bind,
    Option.bind_some, DirectoryEntry.read]
  split_ifs
  · rw [show min 2 4 = 2 from rfl] at hshort
    rw [hshort, Option.bind_some]
  · rfl

/-- The walk over a directory records its entries. -/
theorem walk_encode {entries : List DirectoryEntry} {off : ℕ} {f : Fields}
    (h : entries.flatMap (·.encode order) <+: bytes.drop off) :
    walk order bytes entries.length off f =
      some ((entries.map (·.read order)).foldl Fields.record f) := by
  induction entries generalizing off f with
  | nil => rfl
  | cons e entries ih =>
    rw [List.flatMap_cons] at h
    have hrest := prefix_drop_add h
    rw [DirectoryEntry.length_encode] at hrest
    have hhead := (List.prefix_append _ _).trans h
    have hinside : ¬ bytes.length < off + 12 := by
      have := hhead.length_le
      rw [DirectoryEntry.length_encode, List.length_drop] at this
      omega
    rw [List.length_cons, walk, if_neg hinside, readEntry_encode hhead, Option.bind_some, ih hrest,
      List.map_cons, List.foldl_cons]

end Walking

/-! ### The fields of a directory -/

section Recording

variable (π : Fields → ℕ) (val : Entry → ℕ) {t : ℕ} {entries : List Entry}

theorem foldl_record_absent (hπ : ∀ f e, π (Fields.record f e) = if e.tag = t then val e else π f)
    (h : ∀ e ∈ entries, e.tag ≠ t) (f : Fields) : π (entries.foldl Fields.record f) = π f := by
  induction entries generalizing f with
  | nil => rfl
  | cons e entries ih =>
    rw [List.foldl_cons, ih (fun x hx => h x (List.mem_cons_of_mem e hx)), hπ,
      if_neg (h e List.mem_cons_self)]

/-- A tag that is there once is what its field has in the end. -/
theorem foldl_record_present (hπ : ∀ f e, π (Fields.record f e) = if e.tag = t then val e else π f)
    (hdistinct : entries.Pairwise (·.tag ≠ ·.tag)) {e : Entry} (he : e ∈ entries)
    (htag : e.tag = t) (f : Fields) : π (entries.foldl Fields.record f) = val e := by
  induction entries generalizing f with
  | nil => cases he
  | cons x entries ih =>
    rw [List.pairwise_cons] at hdistinct
    rw [List.foldl_cons]
    rcases List.mem_cons.mp he with rfl | he
    · have habsent : ∀ y ∈ entries, y.tag ≠ t := by
        intro y hy hyt
        exact hdistinct.1 y hy (htag.trans hyt.symm)
      rw [foldl_record_absent π val hπ habsent, hπ, if_pos htag]
    · exact ih hdistinct.2 he _

end Recording

namespace SingleStrip

variable {image : SampleImage} {bytes : List UInt8} (tiff : SingleStrip image bytes)

/-- What the parser takes the directory to say: for three samples, the bits are where the bits
stand, and the strip is where the field says as a LONG. -/
def fields : Fields where
  imgW := image.width
  imgH := image.height
  bps := if image.samplesPerPixel = 1 then image.bits else tiff.arrayOffset
  spp := image.samplesPerPixel
  stripOffset := tiff.order.value tiff.stripEntry.field
  stripBytes := tiff.order.value tiff.countEntry.field

theorem value_bitsEntry : (tiff.bitsEntry.read tiff.order).value = tiff.fields.bps := by
  rw [fields]
  obtain ⟨-, -, ⟨hspp, hstores⟩ | ⟨hspp, htype, hcount, hlt, hfield, -⟩⟩ := tiff.bits
  · rw [hstores.value_read, if_pos hspp]
  · have hlong : ¬ (tiff.bitsEntry.type = 3 ∧ tiff.bitsEntry.count = 1) := by omega
    have hthree : ¬ image.samplesPerPixel = 1 := by omega
    rw [DirectoryEntry.read, if_neg hlong, if_neg hthree, ← hfield,
      Endian.value_spell_of_lt hlt]

/-- An entry of the directory is what the field of its tag has in the end. -/
theorem recorded (π : Fields → ℕ) (val : Entry → ℕ) {t : ℕ}
    (hπ : ∀ f e, π (Fields.record f e) = if e.tag = t then val e else π f) {e : DirectoryEntry}
    (he : e ∈ tiff.entries) (htag : e.tag = t) :
    π ((tiff.entries.map (·.read tiff.order)).foldl Fields.record {}) =
      val (e.read tiff.order) := by
  have hdistinct : (tiff.entries.map (·.read tiff.order)).Pairwise (·.tag ≠ ·.tag) := by
    rw [List.pairwise_map]
    exact tiff.sorted.imp fun h => h.ne
  exact foldl_record_present π val hπ hdistinct (List.mem_map_of_mem he) htag _

theorem foldl_record :
    (tiff.entries.map (·.read tiff.order)).foldl Fields.record {} = tiff.fields := by
  ext
  · obtain ⟨he, htag, hstores⟩ := tiff.width
    rw [tiff.recorded Fields.imgW Entry.value (fun f e => by rw [Fields.record_eq]) he htag]
    exact hstores.value_read
  · obtain ⟨he, htag, hstores⟩ := tiff.height
    rw [tiff.recorded Fields.imgH Entry.value (fun f e => by rw [Fields.record_eq]) he htag]
    exact hstores.value_read
  · obtain ⟨he, htag, -⟩ := tiff.bits
    rw [tiff.recorded Fields.bps Entry.value (fun f e => by rw [Fields.record_eq]) he htag]
    exact tiff.value_bitsEntry
  · rcases tiff.samplesPerPixel with ⟨e, he, htag, hstores⟩ | ⟨habsent, hone⟩
    · rw [tiff.recorded Fields.spp Entry.value (fun f e => by rw [Fields.record_eq]) he htag]
      exact hstores.value_read
    · have habsent' : ∀ e ∈ tiff.entries.map (·.read tiff.order), e.tag ≠ 277 := by
        intro e he
        obtain ⟨x, hx, rfl⟩ := List.mem_map.mp he
        exact habsent x hx
      rw [foldl_record_absent Fields.spp Entry.value (fun f e => by rw [Fields.record_eq]) habsent']
      exact hone.symm
  · obtain ⟨he, htag, -⟩ := tiff.strip
    rw [tiff.recorded Fields.stripOffset Entry.valOff (fun f e => by rw [Fields.record_eq]) he htag]
    rfl
  · obtain ⟨he, htag, -⟩ := tiff.count
    rw [tiff.recorded Fields.stripBytes Entry.valOff (fun f e => by rw [Fields.record_eq]) he htag]
    rfl

theorem byteOrder_eq : byteOrder bytes = some tiff.order := by
  have hmark : bytes.take 2 = mark tiff.order := by
    have hprefix := (List.prefix_append _ _).trans tiff.header
    have hlength : (mark tiff.order).length = 2 := by cases tiff.order <;> rfl
    rw [← hlength]
    exact (List.prefix_iff_eq_take.mp hprefix).symm
  rw [byteOrder, hmark]
  cases tiff.order <;> rfl

theorem readFields_eq : readFields bytes = some (.ok tiff.fields) := by
  have hmarkLength : (mark tiff.order).length = 2 := by cases tiff.order <;> rfl
  have hlong : ¬ bytes.length < 8 := by
    have := tiff.header.length_le
    simp only [List.length_append, Endian.length_spell, hmarkLength] at this
    omega
  have hifd : tiff.order.readAt 4 bytes 4 = some tiff.ifd := by
    have h : mark tiff.order ++ tiff.order.spell 2 42 ++ tiff.order.spell 4 tiff.ifd <+:
        bytes.drop 0 := by
      rw [List.append_assoc]
      exact tiff.header
    have := prefix_drop_add h
    rw [List.length_append, hmarkLength, Endian.length_spell] at this
    exact readAt_spell (by decide) tiff.ifd_lt this
  have hcountPrefix := (List.prefix_append _ _).trans tiff.directory
  have hinside : ¬ bytes.length < tiff.ifd + 2 := by
    have := hcountPrefix.length_le
    rw [Endian.length_spell, List.length_drop] at this
    omega
  have hcount := readAt_spell (by decide) tiff.entries_lt hcountPrefix
  have hentries := prefix_drop_add tiff.directory
  rw [Endian.length_spell] at hentries
  have hstrip := tiff.strip.2.2.valOff_pos (by have := tiff.stripOffset_pos; omega)
  have hbytes := tiff.count.2.2.valOff_pos (image.length_raw_pos _)
  have hpresent : ¬ (tiff.fields.imgW = 0 ∨ tiff.fields.imgH = 0 ∨ tiff.fields.stripOffset = 0 ∨
      tiff.fields.stripBytes = 0) := by
    have hw := image.width_pos
    have hh := image.height_pos
    simp only [DirectoryEntry.read] at hstrip hbytes
    simp only [fields]
    omega
  rw [readFields, if_neg hlong, tiff.byteOrder_eq]
  simp only [hifd, hcount, Option.bind_some, if_neg hinside, walk_encode hentries,
    tiff.foldl_record, if_neg hpresent]

/-! ### What is decoded -/

/-- The dimensions are 32-bit integers, three values for the bits stand at the place 16 exactly if
they are 16, and the samples stand, with the least significant byte first, where the field of the
strip says as a LONG. -/
def Readable : Prop :=
  image.width < 2 ^ 31 ∧ image.height < 2 ^ 31 ∧
  (image.samplesPerPixel = 3 → (image.bits = 16 ↔ tiff.arrayOffset = 16)) ∧
  image.raw .little <+: bytes.drop (tiff.order.value tiff.stripEntry.field)

include tiff in
theorem length_raw_lt : (image.raw .little).length < 2 ^ 32 := by
  rw [SampleImage.length_raw, ← image.length_raw tiff.order]
  exact tiff.count.2.2.lt

theorem is16bit_iff (h : image.samplesPerPixel = 3 → (image.bits = 16 ↔ tiff.arrayOffset = 16)) :
    tiff.fields.bps = 16 ↔ image.bits = 16 := by
  unfold fields
  rcases image.samplesPerPixel_eq with hspp | hspp
  · simp [hspp]
  · simp [hspp, h hspp]

theorem dataSize_eq (hreadable : tiff.Readable) :
    tiff.fields.dataSize = (image.raw .little).length := by
  obtain ⟨hw, hh, hbits, -⟩ := hreadable
  have hlt := tiff.length_raw_lt
  have hspp : image.samplesPerPixel < 2 ^ 31 := by
    rcases image.samplesPerPixel_eq with h | h <;> omega
  have hbytes : (if tiff.fields.bps = 16 then 2 else 1) = image.bits / 8 := by
    simp only [tiff.is16bit_iff hbits]
    rcases image.bits_eq with h | h <;> simp [h]
  have hproduct : tiff.fields.product = (image.raw .little).length := by
    rw [SampleImage.length_raw, Fields.product, product]
    simp only [decide_eq_true_eq, hbytes]
    simp only [fields, toInt_of_lt hw, toInt_of_lt hh, toInt_of_lt hspp]
    rw [toSize_natCast (by omega), toSize_natCast (by omega), toSize_natCast (by omega)]
  rw [Fields.dataSize, hproduct, Nat.mod_eq_of_lt (by omega)]

theorem image_eq (hreadable : tiff.Readable) : tiff.fields.image bytes = image.inMemory := by
  have hsize := tiff.dataSize_eq hreadable
  obtain ⟨hw, hh, hbits, hraw⟩ := hreadable
  have hspp : image.samplesPerPixel < 2 ^ 31 := by
    rcases image.samplesPerPixel_eq with h | h <;> omega
  have hbps := tiff.is16bit_iff hbits
  have hformat : pixelFormat image.samplesPerPixel (image.bits = 16) = image.format := by
    rcases image.samplesPerPixel_eq with h | h <;> simp [pixelFormat, SampleImage.format, h]
  have hmeta : metaOf (tiff.fields.decoded bytes) = image.inMemory.imageMeta := by
    simp only [metaOf, Fields.decoded, hbps]
    simp only [fields, toInt_of_lt hw, toInt_of_lt hh, toInt_of_lt hspp, hformat,
      SampleImage.inMemory]
    rw [toSize_natCast (by omega), toSize_natCast (by omega), toSize_natCast (by omega)]
  have hbitsPerSample : (if tiff.fields.bps = 16 then 16 else 8) = image.bits := by
    simp only [hbps]
    rcases image.bits_eq with h | h <;> simp [h]
  have hraw : (bytes.drop tiff.fields.stripOffset).take tiff.fields.dataSize = image.raw .little := by
    rw [hsize]
    exact (List.prefix_iff_eq_take.mp hraw).symm
  rw [Fields.image, hmeta, hbitsPerSample, hraw]
  rfl

theorem accepted (mallocs : ℕ → Bool) (hroom : ∀ n, 1 ≤ n → n ≤ bytes.length → mallocs n = true)
    (hreadable : tiff.Readable) : tiff.fields.Accepted mallocs bytes := by
  have hsize := tiff.dataSize_eq hreadable
  obtain ⟨hw, hh, -, hraw⟩ := hreadable
  have hpos := image.length_raw_pos .little
  have hinside := hraw.length_le
  rw [List.length_drop] at hinside
  have hwpos := image.width_pos
  have hhpos := image.height_pos
  constructor
  · exact (toInt_pos_iff (by simp only [fields]; omega)).mpr ⟨hwpos, hw⟩
  · exact (toInt_pos_iff (by simp only [fields]; omega)).mpr ⟨hhpos, hh⟩
  · rw [hsize]
    simp only [fields]
    omega
  · rw [hsize]
    exact hroom _ (by omega) (by omega)

/-- What the decoder makes of the file is the image it holds exactly if the file is readable. -/
theorem image_eq_iff (mallocs : ℕ → Bool)
    (hroom : ∀ n, 1 ≤ n → n ≤ bytes.length → mallocs n = true) :
    tiff.fields.Accepted mallocs bytes ∧ image.inMemory = tiff.fields.image bytes ↔
      tiff.Readable := by
  constructor
  · rintro ⟨haccepted, himage⟩
    have hwlt := tiff.width.2.2.lt
    have hhlt := tiff.height.2.2.lt
    refine ⟨((toInt_pos_iff hwlt).mp haccepted.width).2, ((toInt_pos_iff hhlt).mp
      haccepted.height).2, ?_, ?_⟩
    · intro hspp
      have hbits : image.bits = if tiff.fields.bps = 16 then 16 else 8 :=
        congrArg RawImage.bitsPerSample himage
      have hbps : tiff.fields.bps = tiff.arrayOffset := by
        simp [fields, hspp]
      rw [hbps] at hbits
      constructor
      · intro h
        by_contra hne
        rw [if_neg hne] at hbits
        omega
      · intro h
        rw [hbits, if_pos h]
    · have hbytes : image.raw .little =
          (bytes.drop tiff.fields.stripOffset).take tiff.fields.dataSize :=
        congrArg RawImage.bytes himage
      rw [hbytes]
      exact List.take_prefix _ _
  · intro hreadable
    exact ⟨tiff.accepted mallocs hroom hreadable, (tiff.image_eq hreadable).symm⟩

/-- Where the field of the strip spells its offset, all that can go wrong with the samples is their
byte order. -/
theorem readable_iff_of_long (hstrip : tiff.order.value tiff.stripEntry.field = tiff.stripOffset) :
    tiff.Readable ↔ image.width < 2 ^ 31 ∧ image.height < 2 ^ 31 ∧
      (image.samplesPerPixel = 3 → (image.bits = 16 ↔ tiff.arrayOffset = 16)) ∧
      (tiff.order = .little ∨ image.bits = 8 ∨ ∀ s ∈ image.samples, s % 256 = s / 256) := by
  have hsame : image.raw .little <+: bytes.drop tiff.stripOffset ↔
      image.raw .little = image.raw tiff.order := by
    constructor
    · intro h
      have hlength : (image.raw .little).length = (image.raw tiff.order).length := by
        rw [SampleImage.length_raw, SampleImage.length_raw]
      exact (List.prefix_of_prefix_length_le h tiff.data hlength.le).eq_of_length hlength
    · intro h
      rw [h]
      exact tiff.data
  rw [Readable, hstrip, hsame, SampleImage.raw_eq_iff]

end SingleStrip

/-! ### The decoder -/

/-- What is returned is an error, or an image of as many bytes as its dimensions say, in numbers
that are not wrapped, all of them from the file. -/
def SizedCorrectly (bytes : List UInt8) (outcome : Outcome RawImage) : Prop :=
  ∃ result, outcome = some result ∧ ∀ img, result = .ok img →
    img.bytes.length = img.imageMeta.width * img.imageMeta.height * img.imageMeta.channels *
      (img.bitsPerSample / 8) ∧
    ∃ off, off + img.bytes.length ≤ bytes.length ∧
      img.bytes = (bytes.drop off).take img.bytes.length

/-- A directory that is accepted states a size that a 64-bit word can hold. -/
def Unwrapped (mallocs : ℕ → Bool) (bytes : List UInt8) : Prop :=
  ∀ f, readFields bytes = some (.ok f) → f.Accepted mallocs bytes → f.product < 2 ^ 64

theorem product_eq (f : Fields) (bytes : List UInt8) :
    (f.image bytes).imageMeta.width * (f.image bytes).imageMeta.height *
      (f.image bytes).imageMeta.channels * ((f.image bytes).bitsPerSample / 8) = f.product := by
  simp only [Fields.image, metaOf, Fields.decoded, Fields.product, product, decide_eq_true_eq]
  split_ifs <;> rfl

section Decoder

variable {mallocs : ℕ → Bool} {stb : List UInt8 → Decoded × String} {path : String}
  {bytes : List UInt8}

theorem sizedCorrectly_iff (hmalloc : ∀ n, mallocs n = true → n < 2 ^ 63)
    (hpath : isTiff path = true) :
    SizedCorrectly bytes (importImage mallocs stb path (.holds bytes)) ↔
      Unwrapped mallocs bytes := by
  obtain ⟨result, himport, hresult⟩ := importImage_tiff stb bytes hmalloc hpath
  rw [himport]
  constructor
  · rintro ⟨_, hsome, hsized⟩ f hf haccepted
    obtain rfl := Option.some.inj hsome
    obtain ⟨hlength, -⟩ := hsized _ ((hresult _).mpr ⟨f, hf, haccepted, rfl⟩)
    rw [product_eq, Fields.length_image haccepted] at hlength
    rw [← hlength]
    exact Nat.mod_lt _ (by decide)
  · intro hunwrapped
    refine ⟨result, rfl, ?_⟩
    intro img himg
    obtain ⟨f, hf, haccepted, rfl⟩ := (hresult img).mp himg
    have hlength := Fields.length_image haccepted
    refine ⟨?_, f.stripOffset, ?_, ?_⟩
    · rw [product_eq, hlength]
      exact Nat.mod_eq_of_lt (hunwrapped f hf haccepted)
    · rw [hlength]
      exact haccepted.strip
    · rw [hlength]
      rfl

theorem decoded_iff (hmalloc : ∀ n, mallocs n = true → n < 2 ^ 63)
    (hpath : isTiff path = true)
    (hroom : ∀ n, 1 ≤ n → n ≤ bytes.length → mallocs n = true) {image : SampleImage}
    (tiff : SingleStrip image bytes) :
    importImage mallocs stb path (.holds bytes) = some (.ok image.inMemory) ↔ tiff.Readable := by
  obtain ⟨result, himport, hresult⟩ := importImage_tiff stb bytes hmalloc hpath
  rw [himport, Option.some.injEq, hresult, ← tiff.image_eq_iff mallocs hroom]
  constructor
  · rintro ⟨f, hf, h⟩
    rw [tiff.readFields_eq] at hf
    obtain rfl := Except.ok.inj (Option.some.inj hf)
    exact h
  · intro h
    exact ⟨tiff.fields, tiff.readFields_eq, h⟩

end Decoder

/-- A file of one strip is decoded as the image it holds exactly if it is readable, and whatever is
accepted has its size exactly if that is not wrapped. `malloc` gives no object of more than half the
address space, and has room for what a file holds. -/
theorem importImage_decodes_iff (mallocs : ℕ → Bool) (hmalloc : ∀ n, mallocs n = true → n < 2 ^ 63)
    (stb : List UInt8 → Decoded × String) (path : String) (hpath : isTiff path = true)
    (bytes : List UInt8) (hroom : ∀ n, 1 ≤ n → n ≤ bytes.length → mallocs n = true) :
    (∀ image, ∀ tiff : SingleStrip image bytes,
      importImage mallocs stb path (.holds bytes) = some (.ok image.inMemory) ↔ tiff.Readable) ∧
    (SizedCorrectly bytes (importImage mallocs stb path (.holds bytes)) ↔
      Unwrapped mallocs bytes) :=
  ⟨fun _ tiff => decoded_iff hmalloc hpath hroom tiff, sizedCorrectly_iff hmalloc hpath⟩

/-! ### One pixel -/

def shortEntry (order : Endian) (tag v : ℕ) (htag : tag < 2 ^ 16) : DirectoryEntry :=
  ⟨tag, 3, 1, order.spell 2 v ++ [0, 0], htag, by decide, by decide, by simp⟩

def longEntry (order : Endian) (tag v : ℕ) (htag : tag < 2 ^ 16) : DirectoryEntry :=
  ⟨tag, 4, 1, order.spell 4 v, htag, by decide, by decide, by simp⟩

def pixelEntries (order : Endian) (bits : ℕ) : List DirectoryEntry :=
  [shortEntry order 256 1 (by decide), shortEntry order 257 1 (by decide),
    shortEntry order 258 bits (by decide), longEntry order 273 86 (by decide),
    shortEntry order 277 1 (by decide), longEntry order 279 (bits / 8) (by decide)]

/-- A file of one grey pixel behind its directory. -/
def pixelFile (order : Endian) (bits sample : ℕ) : List UInt8 :=
  mark order ++ (order.spell 2 42 ++ order.spell 4 8) ++
    (order.spell 2 6 ++ (pixelEntries order bits).flatMap (·.encode order)) ++ [0, 0, 0, 0] ++
    order.spell (bits / 8) sample

/-- One pixel of 16 bits, the bytes of which differ. -/
def pixel : SampleImage where
  width := 1
  height := 1
  samplesPerPixel := 1
  bits := 16
  samples := [0x0102]
  width_pos := by decide
  height_pos := by decide
  samplesPerPixel_eq := by decide
  bits_eq := by decide
  length_samples := by decide
  samples_lt := by decide

/-- The pixel is in its file in either byte order. -/
def pixelTiff (order : Endian) : SingleStrip pixel (pixelFile order 16 0x0102) where
  order := order
  ifd := 8
  entries := pixelEntries order 16
  widthEntry := shortEntry order 256 1 (by decide)
  heightEntry := shortEntry order 257 1 (by decide)
  bitsEntry := shortEntry order 258 16 (by decide)
  stripEntry := longEntry order 273 86 (by decide)
  countEntry := longEntry order 279 2 (by decide)
  arrayOffset := 0
  stripOffset := 86
  ifd_lt := by decide
  entries_lt := by cases order <;> decide
  header := by cases order <;> decide +kernel
  directory := by cases order <;> decide +kernel
  sorted := by cases order <;> decide +kernel
  width := ⟨.head _, rfl, rfl, .inl ⟨rfl, by decide, List.prefix_append _ _⟩⟩
  height := ⟨.tail _ (.head _), rfl, rfl, .inl ⟨rfl, by decide, List.prefix_append _ _⟩⟩
  bits := ⟨.tail _ (.tail _ (.head _)), rfl,
    .inl ⟨rfl, rfl, .inl ⟨rfl, by decide, List.prefix_append _ _⟩⟩⟩
  samplesPerPixel := .inl ⟨shortEntry order 277 1 (by decide),
    .tail _ (.tail _ (.tail _ (.tail _ (.head _)))), rfl, rfl,
    .inl ⟨rfl, by decide, List.prefix_append _ _⟩⟩
  strip := ⟨.tail _ (.tail _ (.tail _ (.head _))), rfl, rfl, .inr ⟨rfl, by decide, rfl⟩⟩
  count := by
    refine ⟨.tail _ (.tail _ (.tail _ (.tail _ (.tail _ (.head _))))), rfl, rfl, ?_⟩
    exact .inr ⟨rfl, by cases order <;> decide, by cases order <;> rfl⟩
  stripOffset_pos := by decide
  data := by cases order <;> decide +kernel

/-- A `malloc` that gives everything up to half the address space. -/
def halfSpace (n : ℕ) : Bool := n < 2 ^ 63

def noStb (_ : List UInt8) : Decoded × String := (⟨0, 0, 0, false, none⟩, "")

theorem importImage_decodes_little :
    importImage halfSpace noStb "scan.tif" (.holds (pixelFile .little 16 0x0102)) =
      some (.ok pixel.inMemory) := by
  have hlength : (pixelFile .little 16 0x0102).length = 88 := by decide +kernel
  have hdecodes := importImage_decodes_iff halfSpace (fun n h => by simpa [halfSpace] using h)
    noStb "scan.tif" (by decide +kernel) (pixelFile .little 16 0x0102) (by
      intro n _ hn
      simp only [halfSpace, decide_eq_true_eq]
      omega)
  apply (hdecodes.1 pixel (pixelTiff .little)).mpr
  refine ⟨by decide, by decide, ?_, by decide +kernel⟩
  intro hspp
  cases hspp

/-- The pixel is not read where its most significant byte stands first. -/
theorem importImage_swaps_big :
    ¬ ∀ image bytes, SingleStrip image bytes →
      importImage halfSpace noStb "scan.tif" (.holds bytes) = some (.ok image.inMemory) := by
  intro h
  have hswapped : importImage halfSpace noStb "scan.tif" (.holds (pixelFile .big 16 0x0102)) =
      some (.ok { pixel.inMemory with bytes := [0x01, 0x02] }) := by
    decide +kernel
  have hsame : ([0x01, 0x02] : List UInt8) = pixel.inMemory.bytes := by
    have himage := hswapped.symm.trans (h pixel _ (pixelTiff .big))
    exact congrArg RawImage.bytes (Except.ok.inj (Option.some.inj himage))
  exact absurd hsame (by decide +kernel)

end SurfaceAi.Io
