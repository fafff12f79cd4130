import SurfaceAi.Core.RealMath
import SurfaceAi.Embedding.SimplePatch
import SurfaceAi.Image.Preprocess
import Mathlib.Algebra.Order.Field.Basic
import Mathlib.Algebra.Order.Floor.Semifield

/-! The hand-crafted features step by step: what each buffer has to hold for a step to be defined,
how much it appends, and the blocks of the averaging. The features are well defined exactly for
patches of three rows, samples of a byte and images whose size is a word. -/

namespace SurfaceAi.Embeddings

open Checked

section Features

variable {F : Type} [Field F] [LinearOrder F] [IsStrictOrderedRing F] [FloatMath F]

theorem lastBin_lt {nBins : ℕ} (h : 0 < nBins) (bin : ℕ) : lastBin nBins bin < nBins := by
  unfold lastBin
  split_ifs <;> omega

omit [FloatMath F] in
theorem decimal_pos {n d : ℕ} (hn : 0 < n) (hd : 0 < d) : (0 : F) < decimal n d :=
  div_pos (Nat.cast_pos.mpr hn) (Nat.cast_pos.mpr hd)

theorem returns_uint8Histogram {values : List UInt8} {count nBins : ℕ} (hcount : 0 < count)
    (hvalues : values.length = count) (hbins : 0 < nBins) :
    Returns (uint8Histogram values count nBins : Option (List F)) fun out =>
      out.length = nBins := by
  have hn : (nBins : F) ≠ 0 := Nat.cast_ne_zero.mpr hbins.ne'
  have hc : (count : F) ≠ 0 := Nat.cast_ne_zero.mpr hcount.ne'
  have h256 : ((256 : ℕ) : F) ≠ 0 := Nat.cast_ne_zero.mpr (by decide)
  rw [uint8Histogram, if_neg hcount.ne']
  refine (returns_quotient _ hn).bind fun scale hscale => ?_
  have hscale' : scale ≠ 0 := hscale ▸ div_ne_zero h256 hn
  refine (returns_loop (P := fun bins : List F => bins.length = nBins) List.length_replicate
    fun i hi bins hlength => ?_).bind fun bins hlength => ?_
  · refine (returns_read (hvalues ▸ hi)).bind fun v _ => ?_
    refine (returns_quotient _ hscale').bind fun q _ => ?_
    exact (returns_addAt (hlength ▸ lastBin_lt hbins _) _).mono fun out h => h.trans hlength
  · refine (returns_quotient _ hc).bind fun inv _ => .some ?_
    rw [List.length_map, hlength]

theorem returns_floatHistogram {values : List F} {count nBins : ℕ} (hcount : 0 < count)
    (hvalues : values.length = count) (hbins : 0 < nBins) :
    Returns (floatHistogram values count nBins) fun out => out.length = nBins := by
  have hc : (count : F) ≠ 0 := Nat.cast_ne_zero.mpr hcount.ne'
  rw [floatHistogram, if_neg hcount.ne']
  refine (returns_read (hvalues ▸ hcount)).bind fun first _ => ?_
  refine (Returns.foldlM (R := fun _ => True) trivial fun bounds i hi _ => ?_).bind
    fun bounds _ => ?_
  · rw [List.mem_range'_1] at hi
    have hlt : i < values.length := by omega
    exact (returns_read hlt).bind fun v _ => .some trivial
  · obtain ⟨minV, maxV⟩ := bounds
    refine .ite (fun _ => ?_) fun hrange => ?_
    · exact (returns_store (by simpa using hbins) 1).mono fun out h =>
        h.trans List.length_replicate
    · have hpos : maxV - minV ≠ 0 := fun h0 =>
        hrange (h0 ▸ decimal_pos (by decide) (by decide))
      refine (returns_quotient _ hpos).bind fun scale _ => ?_
      refine (returns_loop (P := fun bins : List F => bins.length = nBins) List.length_replicate
        fun i hi bins hlength => ?_).bind fun bins hlength => ?_
      · refine (returns_read (hvalues ▸ hi)).bind fun v _ => ?_
        exact (returns_addAt (hlength ▸ lastBin_lt hbins _) _).mono fun out h => h.trans hlength
      · refine (returns_quotient _ hc).bind fun inv _ => .some ?_
        rw [List.length_map, hlength]

theorem returns_plane {α : Type} {ps : ℕ} {a : α} {pixel : ℕ → ℕ → Option α}
    (h : ∀ dy < ps, ∀ dx < ps, Returns (pixel dy dx) fun _ => True) :
    Returns (plane ps (ps * ps) a pixel) fun out => out.length = ps * ps := by
  refine returns_loop (P := fun buf : List α => buf.length = ps * ps) List.length_replicate
    fun dy hdy buf hlength => ?_
  refine (returns_fillLine (h dy hdy) ?_).mono fun out hout => hout.trans hlength
  have hlast : (dy + 1) * ps ≤ ps * ps := Nat.mul_le_mul_right ps hdy
  rw [Nat.succ_mul] at hlast
  omega

theorem returns_moments {chan : List UInt8} {ps2 : ℕ} (hps2 : 0 < ps2) :
    Returns (moments chan ps2 : Option (List F)) fun out => out.length = 4 := by
  have hn : (ps2 : F) ≠ 0 := Nat.cast_ne_zero.mpr hps2.ne'
  refine (returns_quotient _ hn).bind fun mean _ => (returns_quotient _ hn).bind fun mean2 _ =>
    (returns_quotient _ hn).bind fun mean3 _ => (returns_quotient _ hn).bind fun mean4 _ => ?_
  have htiny : (0 : F) < decimal 1 1000000000 := decimal_pos (by decide) (by decide)
  refine Returns.bind (Q := fun _ => True) ?_ fun skewness _ => ?_
  · refine .ite (fun hdev => ?_) fun _ => .some trivial
    have hpos := (htiny.trans hdev).ne'
    exact (returns_quotient _ (mul_ne_zero (mul_ne_zero hpos hpos) hpos)).mono fun _ _ => trivial
  · refine Returns.bind (Q := fun _ => True) ?_ fun kurtosis _ => .some rfl
    refine .ite (fun hvar => ?_) fun _ => .some trivial
    have hpos := (htiny.trans hvar).ne'
    exact (returns_quotient _ (mul_ne_zero hpos hpos)).map fun _ _ => trivial

theorem mem_interior {ps : ℕ} {p : ℕ × ℕ} (h : p ∈ interior ps) :
    1 ≤ p.1 ∧ p.1 + 1 < ps ∧ 1 ≤ p.2 ∧ p.2 + 1 < ps := by
  simp only [interior, List.mem_flatMap, List.mem_map, List.mem_range'_1] at h
  obtain ⟨dy, hdy, dx, hdx, rfl⟩ := h
  dsimp only
  omega

omit [LinearOrder F] [IsStrictOrderedRing F] [FloatMath F] in
/-- A luminance of the patch. -/
theorem returns_luminance {gray : List UInt8} {ps y x : ℕ} (hgray : gray.length = ps * ps)
    (hy : y < ps) (hx : x < ps) :
    Returns ((gray[y * ps + x]?).map fun v => (v.toNat : F)) fun _ => True :=
  (returns_read (hgray ▸ flat_lt hy hx)).map fun _ _ => trivial

omit [LinearOrder F] [IsStrictOrderedRing F] [FloatMath F] in
theorem returns_sobel {gray : List UInt8} {ps : ℕ} {p : ℕ × ℕ} (hgray : gray.length = ps * ps)
    (hp : p ∈ interior ps) : Returns (sobel gray ps p.1 p.2 : Option (F × F)) fun _ => True := by
  obtain ⟨hy, hy', hx, hx'⟩ := mem_interior hp
  have hread : ∀ y < ps, ∀ x < ps,
      Returns ((gray[y * ps + x]?).map fun v => (v.toNat : F)) fun _ => True :=
    fun y hy x hx => returns_luminance hgray hy hx
  exact (hread _ (by omega) _ (by omega)).bind fun _ _ =>
    (hread _ (by omega) _ (by omega)).bind fun _ _ =>
    (hread _ (by omega) _ (by omega)).bind fun _ _ =>
    (hread _ (by omega) _ (by omega)).bind fun _ _ =>
    (hread _ (by omega) _ (by omega)).bind fun _ _ =>
    (hread _ (by omega) _ (by omega)).bind fun _ _ =>
    (hread _ (by omega) _ (by omega)).bind fun _ _ =>
    (hread _ (by omega) _ (by omega)).bind fun _ _ => .some trivial

omit [LinearOrder F] [IsStrictOrderedRing F] in
theorem returns_gradients (atan2 : F → F → F) {gray : List UInt8} {ps : ℕ}
    (hgray : gray.length = ps * ps) :
    Returns (gradients atan2 gray ps (ps * ps)) fun grads =>
      grads.1.length = ps * ps ∧ grads.2.length = ps * ps := by
  refine Returns.foldlM ⟨List.length_replicate, List.length_replicate⟩ fun grads p hp hgrads => ?_
  obtain ⟨-, hy, -, hx⟩ := mem_interior hp
  have hlt : p.1 * ps + p.2 < ps * ps := flat_lt (by omega) (by omega)
  refine (returns_sobel hgray hp).bind fun g _ => ?_
  obtain ⟨gx, gy⟩ := g
  refine (returns_store (hgrads.1 ▸ hlt) _).bind fun mag hmag => ?_
  refine (returns_store (hgrads.2 ▸ hlt) _).bind fun orient horient => .some ?_
  exact ⟨hmag.trans hgrads.1, horient.trans hgrads.2⟩

theorem returns_orientationHistogram {mag orient : List F} {ps2 : ℕ} (hmag : mag.length = ps2)
    (horient : orient.length = ps2) :
    Returns (orientationHistogram mag orient ps2) fun out => out.length = 9 := by
  refine (returns_loop (P := fun state : List F × F => state.1.length = 9) List.length_replicate
    fun i hi state hlength => ?_).bind fun state hlength => ?_
  · refine (returns_read (hmag ▸ hi)).bind fun weight _ => ?_
    refine .ite (fun _ => .some hlength) fun _ => ?_
    refine (returns_read (horient ▸ hi)).bind fun angle _ => ?_
    have hbin := lastBin_lt (show 0 < 9 by decide)
      (FloatMath.toSize ((if angle < 0 then angle + pi else angle) / pi * ((9 : ℕ) : F)))
    refine (returns_addAt (hlength.symm ▸ hbin) _).bind fun bins hbins => ?_
    exact .some (hbins.trans hlength)
  · obtain ⟨bins, total⟩ := state
    refine .ite (fun htotal => ?_) fun _ => .some hlength
    have hpos : total ≠ 0 := ((decimal_pos (by decide) (by decide)).trans htotal).ne'
    refine (returns_quotient _ hpos).bind fun inv _ => .some ?_
    rw [List.length_map]
    exact hlength

theorem returns_brighter {gray : List UInt8} {ps : ℕ} {p : ℕ × ℕ} (hgray : gray.length = ps * ps)
    (hp : p ∈ interior ps) : Returns (brighter gray ps p.1 p.2) fun _ => True := by
  obtain ⟨hy, hy', hx, hx'⟩ := mem_interior hp
  refine (returns_read (hgray ▸ flat_lt (by omega) (by omega))).bind fun center _ => ?_
  refine Returns.foldlM trivial fun count d hd _ => ?_
  have hshift : d.1 ≤ 2 ∧ d.2 ≤ 2 := by
    revert d
    decide
  have hlt : (p.1 + d.1 - 1) * ps + (p.2 + d.2 - 1) < ps * ps := flat_lt (by omega) (by omega)
  exact (returns_read (hgray ▸ hlt)).bind fun v _ => .some trivial

omit [FloatMath F] in
theorem returns_lbpHistogram {gray : List UInt8} {ps : ℕ} (hgray : gray.length = ps * ps) :
    Returns (lbpHistogram gray ps : Option (List F)) fun out => out.length = 10 := by
  refine (Returns.foldlM (R := fun state : List F × ℕ => state.1.length = 10)
    List.length_replicate fun state p hp hlength => ?_).bind fun state hlength => ?_
  · refine (returns_brighter hgray hp).bind fun count _ => ?_
    refine Returns.bind (Q := fun bins : List F => bins.length = 10) ?_ fun bins hbins =>
      .some hbins
    refine .ite (fun hcount => ?_) fun _ => .some hlength
    exact (returns_addAt (hlength ▸ hcount) _).mono fun out h => h.trans hlength
  · obtain ⟨bins, interiorCount⟩ := state
    refine .ite (fun hcount => ?_) fun _ => .some hlength
    have hpos : (interiorCount : F) ≠ 0 := Nat.cast_ne_zero.mpr hcount.ne'
    refine (returns_quotient _ hpos).bind fun inv _ => .some ?_
    rw [List.length_map]
    exact hlength

/-- The cells lie in the patch, and no cell is empty when there are three rows. -/
theorem mem_cellPixels {ps cy cx : ℕ} {p : ℕ × ℕ} (h : p ∈ cellPixels ps (ps / 3) cy cx) :
    p.1 < ps ∧ p.2 < ps := by
  simp only [cellPixels, List.mem_flatMap, List.mem_map, List.mem_range'_1] at h
  obtain ⟨dy, hdy, dx, hdx, rfl⟩ := h
  dsimp only
  omega

theorem length_cellPixels {ps cell cy cx : ℕ} (hy : (cy + 1) * cell ≤ ps)
    (hx : (cx + 1) * cell ≤ ps) : (cellPixels ps cell cy cx).length = cell * cell := by
  have hside : ∀ c, (c + 1) * cell ≤ ps → min ((c + 1) * cell) ps - c * cell = cell := by
    intro c hc
    rw [Nat.min_eq_left hc, Nat.succ_mul, Nat.add_sub_cancel_left]
  simp only [cellPixels, List.length_flatMap, List.length_map, List.length_range', hside cy hy,
    hside cx hx]
  simp

omit [FloatMath F] in
theorem returns_cellMean {chan : List UInt8} {ps : ℕ} {pixels : List (ℕ × ℕ)}
    (hchan : chan.length = ps * ps) (hmem : ∀ p ∈ pixels, p.1 < ps ∧ p.2 < ps)
    (hne : 0 < pixels.length) :
    Returns (cellMean chan ps pixels : Option F) fun _ => True := by
  refine (Returns.foldlM (R := fun _ => True) trivial fun sum p hp _ => ?_).bind fun sum _ => ?_
  · exact (returns_read (hchan ▸ flat_lt (hmem p hp).1 (hmem p hp).2)).bind fun v _ =>
      .some trivial
  · have hpos : (pixels.length : F) * ((255 : ℕ) : F) ≠ 0 :=
      mul_ne_zero (Nat.cast_ne_zero.mpr hne.ne') (Nat.cast_ne_zero.mpr (by decide))
    exact (returns_quotient _ hpos).bind fun inv _ => .some trivial

omit [FloatMath F] in
theorem returns_downsample {r g b : List UInt8} {ps : ℕ} (hps : 3 ≤ ps)
    (hr : r.length = ps * ps) (hg : g.length = ps * ps) (hb : b.length = ps * ps) :
    Returns (downsample r g b ps : Option (List F)) fun out => out.length = 27 := by
  have hcell : 0 < ps / 3 := Nat.div_pos hps (by decide)
  refine (Returns.mapM_flatten (c := 3) fun c hc => ?_).bind fun cells hcells => .some hcells
  simp only [List.mem_flatMap, List.mem_map, List.mem_range] at hc
  obtain ⟨cy, hcy, cx, hcx, rfl⟩ := hc
  have hside : ∀ i < 3, (i + 1) * (ps / 3) ≤ ps := fun i hi =>
    (Nat.mul_le_mul_right (ps / 3) hi).trans (Nat.mul_div_le ps 3)
  refine Returns.mapM fun chan hchan => ?_
  have hlength : chan.length = ps * ps := by
    simp only [List.mem_cons, List.not_mem_nil, or_false] at hchan
    obtain rfl | rfl | rfl := hchan
    · exact hr
    · exact hg
    · exact hb
  refine returns_cellMean hlength (fun p hp => mem_cellPixels hp) ?_
  rw [length_cellPixels (hside cy hcy) (hside cx hcx)]
  exact Nat.mul_pos hcell hcell

omit [IsStrictOrderedRing F] [FloatMath F] in
/-- With fewer than three rows the cells are empty, and the first mean divides by zero. -/
theorem three_le_of_downsample {r g b : List UInt8} {ps : ℕ}
    (h : (downsample r g b ps : Option (List F)).isSome) : 3 ≤ ps := by
  by_contra hps
  have hcell : ps / 3 = 0 := Nat.div_eq_of_lt (Nat.lt_of_not_le hps)
  have hempty : cellPixels ps (ps / 3) 0 0 = [] := by
    rw [hcell]
    rfl
  have hnone : (cellMean r ps (cellPixels ps (ps / 3) 0 0) : Option F) = none := by
    have hzero : (([] : List (ℕ × ℕ)).length : F) * ((255 : ℕ) : F) = 0 := by
      rw [List.length_nil, Nat.cast_zero, zero_mul]
    rw [hempty]
    exact congrArg (Option.bind · _) (if_pos hzero)
  rw [downsample, Option.isSome_iff_exists] at h
  obtain ⟨out, hout⟩ := h
  obtain ⟨cells, hcells, -⟩ := Option.bind_eq_some_iff.mp hout
  have hall := (Returns.isSome_mapM _).mp (Option.isSome_iff_exists.mpr ⟨cells, hcells⟩) (0, 0)
    (by decide)
  have hred := (Returns.isSome_mapM _).mp hall r List.mem_cons_self
  rw [hnone] at hred
  cases hred

end Features

/-! ### The blocks of the averaging -/

section Blocks

/-- Consecutive intervals, one behind the other. -/
theorem flatMap_range' {bound : ℕ → ℕ} (h0 : bound 0 = 0) (hmono : Monotone bound) (n : ℕ) :
    (List.range n).flatMap (fun d => List.range' (bound d) (bound (d + 1) - bound d)) =
      List.range (bound n) := by
  induction n with
  | zero => rw [h0]; rfl
  | succ n ih =>
    have hle := hmono (Nat.le_succ n)
    rw [List.range_succ, List.flatMap_append, ih, List.range_eq_range', List.range_eq_range']
    have happend := List.range'_append_1 (s := 0) (m := bound n) (n := bound (n + 1) - bound n)
    rw [Nat.zero_add, Nat.add_sub_cancel' hle] at happend
    simpa using happend

variable {F : Type} [Field F] [LinearOrder F] [IsStrictOrderedRing F] [FloorSemiring F]
  [FloatMath F] {rawDim featureDim : ℕ}

/-- The truncated product of an index and the ratio. -/
theorem toSize_mul_ratio (htruncates : Truncates F) (d : ℕ) :
    FloatMath.toSize ((d : F) * ((rawDim : F) / (featureDim : F))) = d * rawDim / featureDim := by
  have hcast : (d : F) * ((rawDim : F) / (featureDim : F)) =
      ((d * rawDim : ℕ) : F) / (featureDim : F) := by
    rw [Nat.cast_mul, mul_div_assoc]
  rw [hcast, htruncates _ (div_nonneg (Nat.cast_nonneg _) (Nat.cast_nonneg _)),
    Nat.floor_div_eq_div]

theorem bound_lt (hdim : 0 < featureDim) (hlt : featureDim < rawDim) (d : ℕ) :
    d * rawDim / featureDim < (d + 1) * rawDim / featureDim := by
  rw [Nat.lt_iff_add_one_le, ← Nat.add_div_right _ hdim, Nat.succ_mul]
  exact Nat.div_le_div_right (Nat.add_le_add_left hlt.le _)

theorem block_eq (htruncates : Truncates F) (hdim : 0 < featureDim) (hlt : featureDim < rawDim)
    {d : ℕ} (hd : d < featureDim) :
    block ((rawDim : F) / (featureDim : F)) rawDim d =
      (d * rawDim / featureDim, (d + 1) * rawDim / featureDim) := by
  have hstep := bound_lt hdim hlt d
  have hlast : (d + 1) * rawDim / featureDim ≤ rawDim := by
    refine Nat.div_le_of_le_mul ?_
    exact Nat.mul_le_mul_right rawDim hd
  rw [block]
  simp only [toSize_mul_ratio htruncates]
  rw [if_neg (Nat.not_le.mpr hstep), if_neg (Nat.not_lt.mpr hlast)]

end Blocks

section Reduction

variable {F : Type} [Field F] [LinearOrder F] [IsStrictOrderedRing F] [FloorSemiring F]
  [FloatMath F] {featureDim : ℕ}

omit [IsStrictOrderedRing F] [FloatMath F] in
theorem returns_blockMean {raw : List F} {start stop : ℕ} (hlt : start < stop)
    (hstop : stop ≤ raw.length) (hword : raw.length < 2 ^ 64) :
    Returns (blockMean raw (start, stop)) fun _ => True := by
  refine (Returns.foldlM (R := fun _ => True) trivial fun acc i hi _ => ?_).bind fun acc _ => ?_
  · rw [List.mem_range'_1] at hi
    have hread : i < raw.length := by omega
    exact (returns_read hread).bind fun x _ => .some trivial
  · have hpos : (stop + 2 ^ 64 - start) % 2 ^ 64 ≠ 0 := by omega
    exact (returns_quotient _ (Nat.cast_ne_zero.mpr hpos)).mono fun _ _ => trivial

theorem returns_reduce (htruncates : Truncates F) (hdim : 0 < featureDim) {raw : List F}
    (hword : raw.length < 2 ^ 64) :
    Returns (reduce featureDim raw) fun out => out.length = featureDim := by
  refine .ite (fun hle => .some ?_) fun hlt => ?_
  · rw [List.length_append, List.length_replicate, Nat.add_sub_cancel' hle]
  · have hlt := Nat.lt_of_not_le hlt
    refine (returns_quotient _ (Nat.cast_ne_zero.mpr hdim.ne')).bind fun ratio hratio => ?_
    refine (Returns.mapM fun d hd => ?_).mono fun out hout => hout.trans List.length_range
    rw [hratio, block_eq htruncates hdim hlt (List.mem_range.mp hd)]
    refine returns_blockMean (bound_lt hdim hlt d) (Nat.div_le_of_le_mul ?_) hword
    exact Nat.mul_le_mul_right _ (List.mem_range.mp hd)

omit [FloorSemiring F] in
/-- A root that is positive where its argument is. -/
theorem returns_normalizePatch (hsqrt : ∀ x : F, 0 < x → 0 < FloatMath.sqrt x) {p n : ℕ}
    (hp : p < n) {features : List F} (hlength : features.length = n * featureDim) :
    Returns (normalizePatch featureDim p features) fun out => out.length = features.length := by
  have hread : ∀ d < featureDim, p * featureDim % 2 ^ 64 + d < features.length := by
    intro d hd
    have hflat := flat_lt hp hd
    have hmod := Nat.mod_le (p * featureDim) (2 ^ 64)
    omega
  refine (Returns.foldlM (R := fun _ => True) trivial fun acc d hd _ => ?_).bind fun normSq _ => ?_
  · exact (returns_read (hread d (List.mem_range.mp hd))).bind fun x _ => .some trivial
  · refine .ite (fun hnorm => ?_) fun _ => .some rfl
    have hroot := hsqrt normSq ((decimal_pos (by decide) (by decide)).trans hnorm)
    refine (returns_quotient _ hroot.ne').bind fun inv _ => ?_
    refine returns_loop rfl fun d hd out hout => ?_
    have hlt : p * featureDim % 2 ^ 64 + d < out.length := hout ▸ hread d hd
    exact (returns_read hlt).bind fun x _ => (returns_store hlt _).mono fun out' h => h.trans hout

end Reduction

/-! ### What is asked of an extraction -/

/-- The byte at which a sample of a pixel starts. -/
def samplePosition (m : ImageMeta) (y x c : ℕ) : ℕ :=
  ((y * m.width + x) * m.channels + c) * bytesPerChannel m.pixelFormat

namespace SimplePatchEmbedder

variable (F : Type) [Field F] [LinearOrder F] [FloatMath F] (atan2 : F → F → F)
  (e : SimplePatchEmbedder) (img : Image)

/-- The checks of `Extract`. -/
def Accepts : Prop :=
  img.imageMeta.width = e.cfg.imageWidth ∧ img.imageMeta.height = e.cfg.imageHeight ∧
    img.imageMeta.channels = 3

/-- `stride` of `Extract`. -/
def stride : ℕ := img.imageMeta.width * img.imageMeta.channels % 2 ^ 64

/-- What is read is inside the image and a sample of the patch's own pixel, every patch has the
raw values that were predicted, the result is defined and has its size, and the averaging
blocks partition the raw values in their order. -/
structure WellDefined : Prop where
  reads : ∀ gy < e.gridH, ∀ gx < e.gridW, ∀ dy < e.cfg.patchSize, ∀ dx < e.cfg.patchSize, ∀ c < 3,
    e.offset (stride img) gy gx dy dx c < img.bytes.length ∧
      e.offset (stride img) gy gx dy dx c = samplePosition img.imageMeta
        (gy * e.cfg.patchSize + dy) (gx * e.cfg.patchSize + dx) c
  raw : ∀ gy < e.gridH, ∀ gx < e.gridW,
    Returns (e.extractPatch atan2 img.bytes (stride img) gy gx) fun raw =>
      raw.length = e.rawFeatureDim
  result : Returns (e.extract atan2 img) fun result => ∃ embedding, result = .ok embedding ∧
    embedding.data.length = e.gridH * e.gridW * e.cfg.featureDim
  blocks : e.cfg.featureDim < e.rawFeatureDim →
    let bounds := block ((e.rawFeatureDim : F) / (e.cfg.featureDim : F)) e.rawFeatureDim
    (∀ d < e.cfg.featureDim, (bounds d).1 < (bounds d).2) ∧
      (List.range e.cfg.featureDim).flatMap
        (fun d => List.range' (bounds d).1 ((bounds d).2 - (bounds d).1)) =
          List.range e.rawFeatureDim

variable {F} {atan2 e img} {cfg : SimplePatchEmbedderConfig}

theorem create_eq_ok : create cfg = .ok e ↔
    (0 < cfg.imageWidth ∧ 0 < cfg.imageHeight ∧ 0 < cfg.patchSize) ∧
      (cfg.patchSize ∣ cfg.imageWidth ∧ cfg.patchSize ∣ cfg.imageHeight) ∧ 0 < cfg.featureDim ∧
      e = ⟨cfg, cfg.imageHeight / cfg.patchSize, cfg.imageWidth / cfg.patchSize,
        (cfg.patchSize * cfg.patchSize * 3 + 48 + 12 + 16 + 9 + 10 + 27) % 2 ^ 64⟩ := by
  rw [create, Nat.dvd_iff_mod_eq_zero, Nat.dvd_iff_mod_eq_zero]
  split_ifs with hpos hdvd hdim
  · exact iff_of_false nofun (by omega)
  · exact iff_of_false nofun (by omega)
  · exact iff_of_false nofun (by omega)
  · constructor
    · intro h
      cases h
      exact ⟨by omega, by omega, by omega, rfl⟩
    · rintro ⟨-, -, -, rfl⟩
      rfl

theorem isSome_downsample {data : List UInt8} {stride gy gx : ℕ}
    (h : (e.extractPatch atan2 data stride gy gx).isSome) :
    ∃ r g b, (downsample r g b e.cfg.patchSize : Option (List F)).isSome := by
  obtain ⟨raw, h⟩ := Option.isSome_iff_exists.mp h
  rw [extractPatch] at h
  obtain ⟨r, -, h⟩ := Option.bind_eq_some_iff.mp h
  obtain ⟨g, -, h⟩ := Option.bind_eq_some_iff.mp h
  obtain ⟨b, -, h⟩ := Option.bind_eq_some_iff.mp h
  obtain ⟨gray, -, h⟩ := Option.bind_eq_some_iff.mp h
  obtain ⟨hists, -, h⟩ := Option.bind_eq_some_iff.mp h
  obtain ⟨stats, -, h⟩ := Option.bind_eq_some_iff.mp h
  obtain ⟨grads, -, h⟩ := Option.bind_eq_some_iff.mp h
  obtain ⟨magHist, -, h⟩ := Option.bind_eq_some_iff.mp h
  obtain ⟨orientHist, -, h⟩ := Option.bind_eq_some_iff.mp h
  obtain ⟨lbp, -, h⟩ := Option.bind_eq_some_iff.mp h
  obtain ⟨cells, hcells, -⟩ := Option.bind_eq_some_iff.mp h
  exact ⟨r, g, b, Option.isSome_iff_exists.mpr ⟨cells, hcells⟩⟩

theorem returns_extractPatch [IsStrictOrderedRing F] {data : List UInt8} {stride gy gx : ℕ}
    (hps : 3 ≤ e.cfg.patchSize) (hword : e.cfg.patchSize * e.cfg.patchSize < 2 ^ 64)
    (hread : ∀ dy < e.cfg.patchSize, ∀ dx < e.cfg.patchSize, ∀ c < 3,
      e.offset stride gy gx dy dx c < data.length) :
    Returns (e.extractPatch atan2 data stride gy gx) fun raw =>
      raw.length = e.cfg.patchSize * e.cfg.patchSize * 3 + 48 + 12 + 16 + 9 + 10 + 27 := by
  have hpos : 0 < e.cfg.patchSize * e.cfg.patchSize := Nat.mul_pos (by omega) (by omega)
  have hchannel : ∀ c < 3, ∀ dy < e.cfg.patchSize, ∀ dx < e.cfg.patchSize,
      Returns data[e.offset stride gy gx dy dx c]? fun _ => True :=
    fun c hc dy hdy dx hdx => returns_read (hread dy hdy dx hdx c hc)
  rw [extractPatch, Nat.mod_eq_of_lt hword]
  refine (returns_plane (hchannel 0 (by decide))).bind fun r hr => ?_
  refine (returns_plane (hchannel 1 (by decide))).bind fun g hg => ?_
  refine (returns_plane (hchannel 2 (by decide))).bind fun b hb => ?_
  refine (returns_plane fun dy hdy dx hdx => (hchannel 0 (by decide) dy hdy dx hdx).bind fun _ _ =>
    (hchannel 1 (by decide) dy hdy dx hdx).bind fun _ _ =>
    (hchannel 2 (by decide) dy hdy dx hdx).bind fun _ _ => .some trivial).bind fun gray hgray => ?_
  have hchan : ∀ chan ∈ [r, g, b], chan.length = e.cfg.patchSize * e.cfg.patchSize := by
    simp [hr, hg, hb]
  refine (Returns.mapM_flatten (c := 16) fun chan h =>
    returns_uint8Histogram hpos (hchan chan h) (by decide)).bind fun hists hhists => ?_
  refine (Returns.mapM_flatten (c := 4) fun chan _ =>
    returns_moments hpos).bind fun stats hstats => ?_
  refine (returns_gradients atan2 hgray).bind fun grads hgrads => ?_
  obtain ⟨mag, orient⟩ := grads
  refine (returns_floatHistogram hpos hgrads.1 (by decide)).bind fun magHist hmag => ?_
  refine (returns_orientationHistogram hgrads.1 hgrads.2).bind fun orientHist horient => ?_
  refine (returns_lbpHistogram hgray).bind fun lbp hlbp => ?_
  refine (returns_downsample hps hr hg hb).bind fun cells hcells => .some ?_
  have hraw : ((r.zip (g.zip b)).flatMap fun p => [p.1, p.2.1, p.2.2].map fun v =>
      (v.toNat : F) / ((255 : ℕ) : F)).length = e.cfg.patchSize * e.cfg.patchSize * 3 := by
    simp [List.length_flatMap, hr, hg, hb]
  simp only [List.length_append, hraw, hhists, hstats, hmag, horient, hlbp, hcells]
  rfl

/-- What the configuration comes to when the predicted sizes are words. -/
structure Sized (e : SimplePatchEmbedder) (img : Image) : Prop where
  patchSize : 3 ≤ e.cfg.patchSize
  bytes : bytesPerChannel img.imageMeta.pixelFormat = 1
  size : e.cfg.imageWidth * e.cfg.imageHeight * 3 < 2 ^ 64

/-- A square that fits three times leaves room for the other features. -/
theorem raw_lt {ps : ℕ} (h : ps * ps * 3 < 2 ^ 64) :
    ps * ps * 3 + 48 + 12 + 16 + 9 + 10 + 27 < 2 ^ 64 := by
  by_cases hps : ps ≤ 2479700524
  · have := Nat.mul_le_mul hps hps
    omega
  · have := Nat.mul_le_mul (Nat.lt_of_not_le hps) (Nat.lt_of_not_le hps)
    omega

/-- The grid covers the image. -/
theorem pixel_lt {size ps g d : ℕ} (hdvd : ps ∣ size) (hg : g < size / ps) (hd : d < ps) :
    g * ps + d < size :=
  (flat_lt hg hd).trans_eq (Nat.div_mul_cancel hdvd)

theorem Sized.offset_eq (hsized : Sized e img) (hcreate : create cfg = .ok e)
    (haccepts : e.Accepts img) : ∀ gy < e.gridH, ∀ gx < e.gridW, ∀ dy < e.cfg.patchSize,
    ∀ dx < e.cfg.patchSize, ∀ c < 3,
    e.offset (stride img) gy gx dy dx c = samplePosition img.imageMeta
        (gy * e.cfg.patchSize + dy) (gx * e.cfg.patchSize + dx) c ∧
      e.offset (stride img) gy gx dy dx c <
        img.imageMeta.width * img.imageMeta.height * 3 := by
  intro gy hgy gx hgx dy hdy dx hdx c hc
  obtain ⟨hps, hbytes, hsize⟩ := hsized
  obtain ⟨hwidth, hheight, hchannels⟩ := haccepts
  obtain ⟨⟨hW, hH, hps'⟩, ⟨hdvdW, hdvdH⟩, hdim, rfl⟩ := create_eq_ok.mp hcreate
  have hy := pixel_lt hdvdH hgy hdy
  have hx := pixel_lt hdvdW hgx hdx
  rw [← hheight] at hy
  rw [← hwidth] at hx
  rw [← hwidth, ← hheight] at hsize
  have hpixel := flat_lt hy hx
  rw [Nat.mul_comm img.imageMeta.height] at hpixel
  have hrow : img.imageMeta.width * 3 ≤ img.imageMeta.width * img.imageMeta.height * 3 :=
    Nat.mul_le_mul_right 3 (Nat.le_mul_of_pos_right _ (by omega))
  have hstride : stride img = img.imageMeta.width * 3 := by
    rw [stride, hchannels, Nat.mod_eq_of_lt (by omega)]
  have hflat : (gy * cfg.patchSize + dy) * (img.imageMeta.width * 3) =
      (gy * cfg.patchSize + dy) * img.imageMeta.width * 3 := (Nat.mul_assoc ..).symm
  have hoffset : (gy * cfg.patchSize + dy) * stride img + (gx * cfg.patchSize + dx) * 3 + c =
      ((gy * cfg.patchSize + dy) * img.imageMeta.width + (gx * cfg.patchSize + dx)) * 3 + c := by
    rw [hstride, hflat, ← Nat.add_mul]
  rw [offset, samplePosition, hoffset, hchannels, hbytes, Nat.mul_one, Nat.mod_eq_of_lt (by omega)]
  exact ⟨rfl, by omega⟩

theorem last_pixel {size ps : ℕ} (hdvd : ps ∣ size) (hps : 0 < ps) (hsize : 0 < size) :
    (size / ps - 1) * ps + (ps - 1) = size - 1 := by
  have hle := Nat.le_of_dvd hsize hdvd
  rw [Nat.sub_one_mul, Nat.div_mul_cancel hdvd]
  omega

/-- The first patch of an accepted configuration. -/
theorem grid_pos (hcreate : create cfg = .ok e) : 0 < e.gridH ∧ 0 < e.gridW := by
  obtain ⟨⟨hW, hH, hps⟩, ⟨hdvdW, hdvdH⟩, -, rfl⟩ := create_eq_ok.mp hcreate
  exact ⟨Nat.div_pos (Nat.le_of_dvd hH hdvdH) hps, Nat.div_pos (Nat.le_of_dvd hW hdvdW) hps⟩

theorem length_patches : e.patches.length = e.gridH * e.gridW := by
  simp [patches, List.length_flatMap]

section Settled

variable [IsStrictOrderedRing F]

omit [IsStrictOrderedRing F] in
theorem WellDefined.sized (h : WellDefined F atan2 e img) (hcreate : create cfg = .ok e)
    (haccepts : e.Accepts img) : Sized e img := by
  obtain ⟨hgridH, hgridW⟩ := grid_pos hcreate
  obtain ⟨hwidth, hheight, hchannels⟩ := haccepts
  have hps : 3 ≤ e.cfg.patchSize := by
    obtain ⟨raw, hraw, -⟩ := h.raw 0 hgridH 0 hgridW
    obtain ⟨r, g, b, hcells⟩ := isSome_downsample (Option.isSome_iff_exists.mpr ⟨raw, hraw⟩)
    exact three_le_of_downsample hcells
  have hbytes : bytesPerChannel img.imageMeta.pixelFormat = 1 := by
    have hread := (h.reads 0 hgridH 0 hgridW 0 (by omega) 0 (by omega) 1 (by decide)).2
    simpa [offset, samplePosition] using hread.symm
  refine ⟨hps, hbytes, ?_⟩
  have hlast := (h.reads (e.gridH - 1) (by omega) (e.gridW - 1) (by omega) (e.cfg.patchSize - 1)
    (by omega) (e.cfg.patchSize - 1) (by omega) 2 (by decide)).2
  have hword : samplePosition img.imageMeta ((e.gridH - 1) * e.cfg.patchSize +
      (e.cfg.patchSize - 1)) ((e.gridW - 1) * e.cfg.patchSize + (e.cfg.patchSize - 1)) 2 <
        2 ^ 64 := hlast ▸ Nat.mod_lt _ (by decide)
  obtain ⟨⟨hW, hH, hps'⟩, ⟨hdvdW, hdvdH⟩, hdim, rfl⟩ := create_eq_ok.mp hcreate
  rw [samplePosition, last_pixel hdvdH hps' hH, last_pixel hdvdW hps' hW, hbytes, hchannels,
    hwidth, Nat.mul_one] at hword
  have hrows : (cfg.imageHeight - 1) * cfg.imageWidth + cfg.imageWidth =
      cfg.imageWidth * cfg.imageHeight := by
    rw [← Nat.succ_mul, Nat.succ_eq_add_one, Nat.sub_add_cancel hH, Nat.mul_comm]
  dsimp only at hword ⊢
  omega

theorem Sized.wellDefined [FloorSemiring F] (htruncates : Truncates F)
    (hsqrt : ∀ x : F, 0 < x → 0 < FloatMath.sqrt x) (hsized : Sized e img)
    (hcreate : create cfg = .ok e) (haccepts : e.Accepts img) (hmatches : Images.Matches img) :
    WellDefined F atan2 e img := by
  have hoffset := hsized.offset_eq hcreate haccepts
  obtain ⟨hps, hbytes, hsize⟩ := hsized
  obtain ⟨hwidth, hheight, hchannels⟩ := haccepts
  have hlength : img.bytes.length = img.imageMeta.width * img.imageMeta.height * 3 := by
    rw [hmatches, ImageMeta.byteSize, hchannels, hbytes, Nat.mul_one, Nat.mod_eq_of_lt]
    rw [hwidth, hheight]
    exact hsize
  obtain ⟨⟨hW, hH, hps'⟩, ⟨hdvdW, hdvdH⟩, hdim, he⟩ := create_eq_ok.mp hcreate
  have hsquare : e.cfg.patchSize * e.cfg.patchSize * 3 < 2 ^ 64 := by
    refine (Nat.mul_le_mul_right 3 ?_).trans_lt hsize
    rw [he]
    exact Nat.mul_le_mul (Nat.le_of_dvd hW hdvdW) (Nat.le_of_dvd hH hdvdH)
  have hraw : e.rawFeatureDim =
      e.cfg.patchSize * e.cfg.patchSize * 3 + 48 + 12 + 16 + 9 + 10 + 27 := by
    rw [he] at hsquare ⊢
    exact Nat.mod_eq_of_lt (raw_lt hsquare)
  have hdim' : 0 < e.cfg.featureDim := by
    rw [he]
    exact hdim
  have hpatch : ∀ gy < e.gridH, ∀ gx < e.gridW,
      Returns (e.extractPatch atan2 img.bytes (stride img) gy gx) fun raw =>
        raw.length = e.rawFeatureDim := by
    intro gy hgy gx hgx
    rw [hraw]
    exact returns_extractPatch hps (by omega) fun dy hdy dx hdx c hc =>
      hlength ▸ (hoffset gy hgy gx hgx dy hdy dx hdx c hc).2
  refine ⟨fun gy hgy gx hgx dy hdy dx hdx c hc => ?_, hpatch, ?_, fun hlt => ?_⟩
  · obtain ⟨hposition, hin⟩ := hoffset gy hgy gx hgx dy hdy dx hdx c hc
    exact ⟨hlength ▸ hin, hposition⟩
  · rw [extract, if_neg (by rw [hwidth, hheight]; simp), if_neg (by rw [hchannels]; simp)]
    refine (Returns.mapM_flatten (c := e.cfg.featureDim) fun p hp => ?_).bind
      fun rows hrows => ?_
    · simp only [patches, List.mem_flatMap, List.mem_map, List.mem_range] at hp
      obtain ⟨gy, hgy, gx, hgx, rfl⟩ := hp
      refine (hpatch gy hgy gx hgx).bind fun raw hlen => ?_
      refine returns_reduce htruncates hdim' ?_
      rw [hlen, hraw]
      exact raw_lt hsquare
    · rw [length_patches] at hrows
      refine Returns.bind (Q := fun features : List F => features.length =
        e.gridH * e.gridW * e.cfg.featureDim) ?_ fun features hfeatures =>
          .some ⟨_, rfl, hfeatures⟩
      refine .ite (fun _ => ?_) fun _ => .some hrows
      refine returns_loop hrows fun p hp features hfeatures => ?_
      refine (returns_normalizePatch hsqrt (hp.trans_le (Nat.mod_le _ _)) hfeatures).mono
        fun out hout => hout.trans hfeatures
  · refine ⟨fun d hd => ?_, ?_⟩
    · rw [block_eq htruncates hdim' hlt hd]
      exact bound_lt hdim' hlt d
    · have hmono : Monotone fun d => d * e.rawFeatureDim / e.cfg.featureDim :=
        monotone_nat_of_le_succ fun d => (bound_lt hdim' hlt d).le
      have hpartition := flatMap_range' (by simp) hmono e.cfg.featureDim
      rw [Nat.mul_div_cancel_left _ hdim'] at hpartition
      rw [← hpartition]
      refine List.flatMap_congr fun d hd => ?_
      rw [block_eq htruncates hdim' hlt (List.mem_range.mp hd)]

/-- The features of a patch are well defined exactly when it has three rows, its samples are
bytes and the image's size is a word. -/
theorem wellDefined_iff [FloorSemiring F] (htruncates : Truncates F)
    (hsqrt : ∀ x : F, 0 < x → 0 < FloatMath.sqrt x) (hcreate : create cfg = .ok e)
    (haccepts : e.Accepts img) (hmatches : Images.Matches img) :
    WellDefined F atan2 e img ↔ 3 ≤ cfg.patchSize ∧
      bytesPerChannel img.imageMeta.pixelFormat = 1 ∧
        cfg.imageWidth * cfg.imageHeight * 3 < 2 ^ 64 := by
  obtain ⟨-, -, -, he⟩ := create_eq_ok.mp hcreate
  have hcfg : e.cfg = cfg := by rw [he]
  constructor
  · intro h
    obtain ⟨hps, hbytes, hsize⟩ := h.sized hcreate haccepts
    exact ⟨hcfg ▸ hps, hbytes, hcfg ▸ hsize⟩
  · rintro ⟨hps, hbytes, hsize⟩
    exact Sized.wellDefined htruncates hsqrt ⟨hcfg ▸ hps, hbytes, hcfg ▸ hsize⟩ hcreate haccepts
      hmatches

/-- An image of three pixels by three, one patch of it. -/
def ninePixels : Image := ⟨{ width := 3, height := 3, channels := 3, pixelFormat := .rgb8 },
  List.replicate 27 0⟩

theorem wellDefined_ninePixels :
    WellDefined ℝ (fun _ _ => 0) ⟨⟨3, 3, 3, 128, true⟩, 1, 1, 149⟩ ninePixels := by
  have hcreate : create ⟨3, 3, 3, 128, true⟩ = .ok ⟨⟨3, 3, 3, 128, true⟩, 1, 1, 149⟩ := rfl
  have hmatches : Images.Matches ninePixels := rfl
  exact (wellDefined_iff truncates_realMath (fun _ => Real.sqrt_pos.mpr) hcreate ⟨rfl, rfl, rfl⟩
    hmatches).mpr ⟨by decide, rfl, by decide⟩

/-- A patch of one pixel divides by the number of pixels of an empty cell. -/
theorem onePixel_not_wellDefined : ¬∀ (cfg : SimplePatchEmbedderConfig) (e : SimplePatchEmbedder)
    (img : Image), create cfg = .ok e → e.Accepts img → Images.Matches img →
      WellDefined ℝ (fun _ _ => 0) e img := by
  intro h
  have hcreate : create ⟨1, 1, 1, 128, true⟩ = .ok ⟨⟨1, 1, 1, 128, true⟩, 1, 1, 125⟩ := rfl
  have haccepts : Accepts ⟨⟨1, 1, 1, 128, true⟩, 1, 1, 125⟩
    ⟨{ width := 1, height := 1, channels := 3, pixelFormat := .rgb8 }, [0, 0, 0]⟩ :=
      ⟨rfl, rfl, rfl⟩
  have hsized := (h _ _ _ hcreate haccepts rfl).sized hcreate haccepts
  exact absurd hsized.patchSize (by decide)

end Settled

end SimplePatchEmbedder

end SurfaceAi.Embeddings
