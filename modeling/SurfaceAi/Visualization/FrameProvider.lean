import Mathlib.Data.Int.Notation
import Mathlib.Data.List.AList
import SurfaceAi.Library.Exchanges

/-! The image provider of the user interface: a cache of sixteen frames that is mapped directly by
frame ids, in front of files that are loaded when they are asked for. Every call is atomic. -/

namespace SurfaceAi.Visualization

open Exchanges

abbrev kCacheSize : ℕ := 16

structure QSize where
  width : Int32
  height : Int32
  deriving DecidableEq

namespace QSize

variable (s : QSize)

def isValid : Bool := 0 ≤ s.width ∧ 0 ≤ s.height

def isEmpty : Bool := s.width < 1 ∨ s.height < 1

end QSize

/-- What Qt does with images and texts, and the conversion of a frame's pixels. -/
structure QtImages (S I : Type) where
  copyToQImage : S → I
  null : I
  isNull : I → Bool
  size : I → QSize
  scaled : I → QSize → I
  toInt : String → Option Int32

/-- A null image stays one when it is scaled, and scaling to an empty size gives one. -/
structure QtImages.Lawful {S I : Type} (qt : QtImages S I) : Prop where
  isNull_null : qt.isNull qt.null = true
  isNull_scaled : ∀ image s, qt.isNull (qt.scaled image s) = (qt.isNull image || s.isEmpty)
  size_nonempty : ∀ image, qt.isNull image = false → (qt.size image).isEmpty = false

structure CachedFrame (I : Type) where
  frameId : Int32
  image : I

structure FrameProvider (I : Type) where
  cache : List (CachedFrame I)
  latestFrameId : Int32 := 0
  framePaths : AList fun _ : Int32 => String := ∅

/-- `frame_id % kCacheSize`. -/
def slot (frameId : Int32) : ℤ := frameId.toInt.tmod kCacheSize

/-- A call; what the disk holds is read when the image is asked for. -/
inductive ProviderCall (S I : Type) where
  | registerFrame (frameId : Int32) (image : S)
  | registerRawFrame (frameId : Int32) (image : S)
  | registerFramePath (frameId : Int32) (imagePath : String)
  | requestImage (id : String) (requestedSize : QSize) (disk : String → I)

inductive ProviderReply (I : Type) where
  | done
  | image (image : I) (size : Option QSize)

section Calls

variable {S I : Type} (qt : QtImages S I)

/-- The frame that is asked for as `frame?t=<frame_id>`. -/
def frameIdOf (id : String) : Option Int32 :=
  if "frame?t=".toList.isPrefixOf id.toList then qt.toInt (String.ofList (id.toList.drop 8)) else none

def resized (image : I) (requestedSize : QSize) : I :=
  if requestedSize.isValid ∧ requestedSize ≠ qt.size image then qt.scaled image requestedSize
  else image

namespace FrameProvider

def create : FrameProvider I where
  cache := List.replicate kCacheSize ⟨0, qt.null⟩

variable (p : FrameProvider I)

/-- `cache_[slot]`; nothing outside of the cache. -/
def entry (slot : ℤ) : Option (CachedFrame I) := if 0 ≤ slot then p.cache[slot.toNat]? else none

/-- The frame takes its slot. -/
def cacheFrame (frameId : Int32) (image : I) : Option (FrameProvider I) :=
  (p.entry (slot frameId)).map fun _ =>
    { p with
      cache := p.cache.set (slot frameId).toNat ⟨frameId, image⟩
      latestFrameId := frameId }

/-- The image of the path that is registered for a frame, if there is one and it loads. -/
def loadFrame (frameId : Int32) (disk : String → I) : Option (String × I) :=
  (p.framePaths.lookup frameId).bind fun path =>
    if qt.isNull (disk path) then none else some (path, disk path)

def requestImage (id : String) (requestedSize : QSize) (disk : String → I) :
    Option (ProviderReply I × FrameProvider I) :=
  match frameIdOf qt id with
  | none => some (.image qt.null none, p)
  | some frameId =>
    (p.entry (slot frameId)).bind fun entry =>
      if entry.frameId = frameId then
        some (.image (resized qt entry.image requestedSize) (some (qt.size entry.image)), p)
      else
        match p.loadFrame qt frameId disk with
        | none => some (.image qt.null none, p)
        | some (_, image) => (p.cacheFrame frameId image).map fun p' =>
            (.image (resized qt image requestedSize) (some (qt.size image)), p')

/-- A call; nothing when it leaves the cache. -/
def call : ProviderCall S I → Option (ProviderReply I × FrameProvider I)
  | .registerFrame frameId image | .registerRawFrame frameId image =>
    (p.cacheFrame frameId (qt.copyToQImage image)).map fun p' => (.done, p')
  | .registerFramePath frameId imagePath =>
    some (.done, { p with framePaths := p.framePaths.insert frameId imagePath })
  | .requestImage id requestedSize disk => p.requestImage qt id requestedSize disk

end FrameProvider

end Calls

/-! ### What is asked -/

/-- A frame that was put into the cache. -/
inductive CacheEvent (I : Type) where
  | registered (frameId : Int32) (image : I)
  | loaded (frameId : Int32) (path : String) (image : I)

namespace CacheEvent

variable {I : Type}

def frameId : CacheEvent I → Int32
  | .registered frameId _ | .loaded frameId _ _ => frameId

def image : CacheEvent I → I
  | .registered _ image | .loaded _ _ image => image

end CacheEvent

/-- The provider with what was put into its cache, the last first. -/
structure History (I : Type) where
  provider : FrameProvider I
  events : List (CacheEvent I)

namespace History

variable {S I : Type} (qt : QtImages S I) (h : History I)

def start : History I := ⟨.create qt, []⟩

/-- What a call puts into the cache. -/
def event : ProviderCall S I → Option (CacheEvent I)
  | .registerFrame frameId image | .registerRawFrame frameId image =>
    some (.registered frameId (qt.copyToQImage image))
  | .registerFramePath _ _ => none
  | .requestImage id _ disk =>
    (frameIdOf qt id).bind fun frameId =>
      (h.provider.entry (slot frameId)).bind fun entry =>
        if entry.frameId = frameId then none
        else (h.provider.loadFrame qt frameId disk).map fun found =>
          .loaded frameId found.1 found.2

/-- A call with its reply, which is nothing when the call leaves the cache. -/
def serve (c : ProviderCall S I) (h : History I) : Option (ProviderReply I) × History I :=
  match h.provider.call qt c with
  | none => (none, h)
  | some (reply, provider) => (some reply, ⟨provider, (h.event qt c).toList ++ h.events⟩)

/-- The last image that was registered under the frame, if no other frame was cached in its slot
since. -/
def lastKept (frameId : Int32) : List (CacheEvent I) → Option I
  | [] => none
  | .registered frameId' image :: events =>
    if frameId' = frameId then some image
    else if slot frameId' = slot frameId then none
    else lastKept frameId events
  | .loaded frameId' _ _ :: events =>
    if frameId' ≠ frameId ∧ slot frameId' = slot frameId then none else lastKept frameId events

/-- The frame is still there as it was registered. -/
def Kept (frameId : Int32) : Prop :=
  ∃ image, lastKept frameId h.events = some image ∧ qt.isNull image = false

/-- The frame was never registered, and its path loads. -/
def Loads (frameId : Int32) (disk : String → I) : Prop :=
  (∀ image, .registered frameId image ∉ h.events) ∧ (h.provider.loadFrame qt frameId disk).isSome

/-- Nothing was cached yet where the frame has its place. -/
def Untouched (frameId : Int32) : Prop := ∀ e ∈ h.events, slot e.frameId ≠ slot frameId

/-- A call stays inside the cache; an image that is served is one of the frame's, in the size asked
for; and one is served when the frame is there or can be loaded. -/
def Right (e : Exchange (History I) (ProviderCall S I) (Option (ProviderReply I))) : Prop :=
  match e.call with
  | .registerFrame _ _ | .registerRawFrame _ _ | .registerFramePath _ _ => e.reply.isSome
  | .requestImage id requestedSize disk => ∃ image size, e.reply = some (.image image size) ∧
      ∀ frameId, frameIdOf qt id = some frameId →
        (qt.isNull image = false → ∃ event ∈ e.after.events, event.frameId = frameId ∧
          image = resized qt event.image requestedSize) ∧
        (e.before.Kept qt frameId ∨ e.before.Loads qt frameId disk → qt.isNull image = false)

/-- The frame's id is a multiple of the cache's size or not negative. -/
def Indexes (frameId : Int32) : Prop := 0 ≤ frameId.toInt ∨ (kCacheSize : ℤ) ∣ frameId.toInt

/-- When a call is answered rightly. -/
def Fits (e : Exchange (History I) (ProviderCall S I) (Option (ProviderReply I))) : Prop :=
  match e.call with
  | .registerFrame frameId _ | .registerRawFrame frameId _ => Indexes frameId
  | .registerFramePath _ _ => True
  | .requestImage id requestedSize disk => ∀ frameId, frameIdOf qt id = some frameId →
      Indexes frameId ∧
      (requestedSize.isValid = true → requestedSize.isEmpty = true →
        ¬ (e.before.Kept qt frameId ∨ e.before.Loads qt frameId disk)) ∧
      (frameId = 0 → e.before.Untouched frameId → ¬ e.before.Loads qt frameId disk)

end History

/-! ### Slots -/

theorem slot_lt (frameId : Int32) : slot frameId < kCacheSize := Int.tmod_lt_of_pos _ (by decide)

/-- The remainder has the sign of the id. -/
theorem slot_nonneg_iff (frameId : Int32) : 0 ≤ slot frameId ↔ History.Indexes frameId := by
  rw [slot, History.Indexes]
  by_cases hsign : 0 ≤ frameId.toInt
  · exact iff_of_true (Int.tmod_nonneg _ hsign) (.inl hsign)
  · rw [or_iff_right hsign, Int.dvd_iff_tmod_eq_zero]
    have hopposite : 0 ≤ (-frameId.toInt).tmod kCacheSize := Int.tmod_nonneg _ (by omega)
    rw [Int.neg_tmod] at hopposite
    omega

/-- An image is null in the size asked for when it is null, or when that size is empty. -/
theorem QtImages.Lawful.isNull_resized {S I : Type} {qt : QtImages S I} (hqt : qt.Lawful) (image : I)
    (requestedSize : QSize) : qt.isNull (resized qt image requestedSize) =
      (qt.isNull image || (requestedSize.isValid && requestedSize.isEmpty)) := by
  rw [resized]
  by_cases hscaled : requestedSize.isValid ∧ requestedSize ≠ qt.size image
  · rw [if_pos hscaled, hqt.isNull_scaled, hscaled.1, Bool.true_and]
  · rw [if_neg hscaled]
    cases hnull : qt.isNull image with
    | true => rfl
    | false =>
      have hempty := hqt.size_nonempty image hnull
      cases hvalid : requestedSize.isValid with
      | false => rfl
      | true =>
        have hsize : requestedSize = qt.size image := by
          by_contra hne
          exact hscaled ⟨hvalid, hne⟩
        rw [hsize, hempty]
        rfl

/-! ### What is in the cache -/

namespace History

variable {S I : Type} {qt : QtImages S I} {h : History I} {frameId : Int32} {image : I}

/-- The frame that the calls so far have left in a slot. -/
def expected (qt : QtImages S I) (k : ℤ) (events : List (CacheEvent I)) : CachedFrame I :=
  match events.find? fun e => slot e.frameId = k with
  | some e => ⟨e.frameId, e.image⟩
  | none => ⟨0, qt.null⟩

/-- The cache holds what was last put into each slot, and nothing null was loaded. -/
structure Sound (qt : QtImages S I) (h : History I) : Prop where
  length_eq : h.provider.cache.length = kCacheSize
  entry_eq : ∀ k : ℤ, 0 ≤ k → k < kCacheSize → h.provider.entry k = some (expected qt k h.events)
  loaded_nonnull : ∀ frameId path image, .loaded frameId path image ∈ h.events →
    qt.isNull image = false

theorem sound_start : (start qt).Sound qt where
  length_eq := List.length_replicate
  entry_eq k hk hlt := by
    have hread : (List.replicate kCacheSize (CachedFrame.mk 0 qt.null))[k.toNat]? =
        some ⟨0, qt.null⟩ := List.getElem?_replicate_of_lt (by omega)
    exact (if_pos hk).trans hread
  loaded_nonnull _ _ _ hmem := by cases hmem

theorem Sound.entry (hs : h.Sound qt) (hindex : Indexes frameId) :
    h.provider.entry (slot frameId) = some (expected qt (slot frameId) h.events) :=
  hs.entry_eq _ ((slot_nonneg_iff frameId).mpr hindex) (slot_lt frameId)

theorem entry_of_not_indexes (p : FrameProvider I) (hindex : ¬ Indexes frameId) :
    p.entry (slot frameId) = none :=
  if_neg fun hslot => hindex ((slot_nonneg_iff frameId).mp hslot)

/-- A frame that is cached takes its slot and leaves the others. -/
theorem Sound.cacheFrame (hs : h.Sound qt) (e : CacheEvent I) (hindex : Indexes e.frameId)
    (hloaded : ∀ frameId path image, e = .loaded frameId path image → qt.isNull image = false) :
    ∃ p', h.provider.cacheFrame e.frameId e.image = some p' ∧
      Sound qt (⟨p', e :: h.events⟩ : History I) := by
  have hslot := (slot_nonneg_iff e.frameId).mpr hindex
  have hlt := slot_lt e.frameId
  refine ⟨_, by rw [FrameProvider.cacheFrame, hs.entry hindex]; rfl, ?_, ?_, ?_⟩
  · exact List.length_set.trans hs.length_eq
  · intro k hk hkLt
    have hread : (h.provider.cache.set (slot e.frameId).toNat ⟨e.frameId, e.image⟩)[k.toNat]? =
        some (expected qt k (e :: h.events)) := by
      rw [expected, List.find?_cons]
      by_cases hsame : slot e.frameId = k
      · have hinside : k.toNat < h.provider.cache.length := by
          rw [hs.length_eq]
          omega
        rw [hsame, decide_eq_true rfl, List.getElem?_set_self hinside]
      · have hentry := hs.entry_eq k hk hkLt
        rw [FrameProvider.entry, if_pos hk, expected] at hentry
        rw [decide_eq_false hsame, List.getElem?_set_ne (by omega), hentry]
    exact (if_pos hk).trans hread
  · intro frameId' path image' hmem
    obtain heq | hold := List.mem_cons.mp hmem
    · exact hloaded frameId' path image' heq.symm
    · exact hs.loaded_nonnull frameId' path image' hold

/-- A frame that is kept is in its slot. -/
theorem Sound.of_kept (hs : h.Sound qt) (hkept : h.Kept qt frameId) :
    (expected qt (slot frameId) h.events).frameId = frameId ∧
      qt.isNull (expected qt (slot frameId) h.events).image = false := by
  obtain ⟨image, hlast, hnull⟩ := hkept
  have hloaded := hs.loaded_nonnull
  revert hlast hloaded
  generalize h.events = events
  intro hlast hloaded
  induction events with
  | nil => cases hlast
  | cons e events ih =>
    have hrest := fun hlast => ih hlast fun id path image hmem =>
      hloaded id path image (List.mem_cons_of_mem e hmem)
    rw [expected, List.find?_cons]
    by_cases hslot : slot e.frameId = slot frameId
    · rw [decide_eq_true hslot]
      cases e with
      | registered id image' =>
        by_cases hid : id = frameId
        · rw [lastKept, if_pos hid] at hlast
          cases hlast
          exact ⟨hid, hnull⟩
        · rw [lastKept, if_neg hid, if_pos (show slot id = slot frameId from hslot)] at hlast
          cases hlast
      | loaded id path image' =>
        by_cases hid : id = frameId
        · exact ⟨hid, hloaded id path image' List.mem_cons_self⟩
        · rw [lastKept, if_pos (show id ≠ frameId ∧ slot id = slot frameId from ⟨hid, hslot⟩)] at hlast
          cases hlast
    · rw [decide_eq_false hslot]
      cases e with
      | registered id image' =>
        have hid : id ≠ frameId := fun hid => hslot (congrArg slot hid)
        rw [lastKept, if_neg hid, if_neg (show ¬ slot id = slot frameId from hslot)] at hlast
        exact hrest hlast
      | loaded id path image' =>
        rw [lastKept, if_neg fun hboth => hslot hboth.2] at hlast
        exact hrest hlast

/-- What is in a frame's slot under its id was put there for it, or is what the cache started
with. -/
theorem expected_cases (hid : (expected qt (slot frameId) h.events).frameId = frameId) :
    (∃ e ∈ h.events, e.frameId = frameId ∧
      e.image = (expected qt (slot frameId) h.events).image) ∨
    frameId = 0 ∧ h.Untouched frameId ∧
      (expected qt (slot frameId) h.events).image = qt.null := by
  rw [expected] at hid ⊢
  cases hfind : h.events.find? fun e => slot e.frameId = slot frameId with
  | some e =>
    rw [hfind] at hid
    exact .inl ⟨e, List.mem_of_find?_eq_some hfind, hid, rfl⟩
  | none =>
    rw [hfind] at hid
    refine .inr ⟨hid.symm, fun e he => ?_, rfl⟩
    simpa using List.find?_eq_none.mp hfind e he

/-- A slot that nothing was put into is as it was at the start. -/
theorem expected_of_untouched (h0 : h.Untouched frameId) :
    expected qt (slot frameId) h.events = ⟨0, qt.null⟩ := by
  have hfind : h.events.find? (fun e => slot e.frameId = slot frameId) = none :=
    List.find?_eq_none.mpr fun e he => by simpa using h0 e he
  rw [expected, hfind]

/-! ### A request -/

variable {id : String} {requestedSize : QSize} {disk : String → I} {entry : CachedFrame I}

theorem serve_hit (hid : frameIdOf qt id = some frameId)
    (hentry : h.provider.entry (slot frameId) = some entry) (htag : entry.frameId = frameId) :
    serve qt (.requestImage id requestedSize disk) h =
      (some (.image (resized qt entry.image requestedSize) (some (qt.size entry.image))), h) := by
  have hcall : h.provider.requestImage qt id requestedSize disk =
      some (.image (resized qt entry.image requestedSize) (some (qt.size entry.image)),
        h.provider) := by
    simp only [FrameProvider.requestImage, hid, hentry, Option.bind_some, if_pos htag]
  have hevent : h.event qt (.requestImage id requestedSize disk) = none := by
    simp only [event, hid, hentry, Option.bind_some, if_pos htag]
  simp only [serve, FrameProvider.call, hcall, hevent]
  rfl

theorem serve_miss (hid : frameIdOf qt id = some frameId)
    (hentry : h.provider.entry (slot frameId) = some entry) (htag : entry.frameId ≠ frameId)
    (hload : h.provider.loadFrame qt frameId disk = none) :
    serve qt (.requestImage id requestedSize disk) h = (some (.image qt.null none), h) := by
  have hcall : h.provider.requestImage qt id requestedSize disk =
      some (.image qt.null none, h.provider) := by
    simp only [FrameProvider.requestImage, hid, hentry, Option.bind_some, if_neg htag, hload]
  have hevent : h.event qt (.requestImage id requestedSize disk) = none := by
    simp only [event, hid, hentry, Option.bind_some, if_neg htag, hload]
    rfl
  simp only [serve, FrameProvider.call, hcall, hevent]
  rfl

theorem serve_load {path : String} {p' : FrameProvider I} (hid : frameIdOf qt id = some frameId)
    (hentry : h.provider.entry (slot frameId) = some entry) (htag : entry.frameId ≠ frameId)
    (hload : h.provider.loadFrame qt frameId disk = some (path, image))
    (hcache : h.provider.cacheFrame frameId image = some p') :
    serve qt (.requestImage id requestedSize disk) h =
      (some (.image (resized qt image requestedSize) (some (qt.size image))),
        ⟨p', .loaded frameId path image :: h.events⟩) := by
  have hcall : h.provider.requestImage qt id requestedSize disk =
      some (.image (resized qt image requestedSize) (some (qt.size image)), p') := by
    simp only [FrameProvider.requestImage, hid, hentry, Option.bind_some, if_neg htag, hload, hcache]
    rfl
  have hevent : h.event qt (.requestImage id requestedSize disk) =
      some (.loaded frameId path image) := by
    simp only [event, hid, hentry, Option.bind_some, if_neg htag, hload]
    rfl
  simp only [serve, FrameProvider.call, hcall, hevent]
  rfl

theorem nonnull_of_loadFrame {path : String}
    (hload : h.provider.loadFrame qt frameId disk = some (path, image)) :
    qt.isNull image = false := by
  obtain ⟨path', -, hload⟩ := Option.bind_eq_some_iff.mp hload
  split_ifs at hload with hnull
  cases hload
  exact Bool.eq_false_iff.mpr hnull

/-! ### Every call -/

theorem Sound.serve_register (hs : h.Sound qt) (hindex : Indexes frameId) (image : S) :
    ∃ h', serve qt (.registerFrame frameId image) h = (some .done, h') ∧ h'.Sound qt := by
  obtain ⟨p', hcache, hsound⟩ :=
    hs.cacheFrame (.registered frameId (qt.copyToQImage image)) hindex fun _ _ _ h => by cases h
  have hcall : h.provider.call qt (.registerFrame frameId image) = some (.done, p') :=
    congrArg (Option.map fun p' => (ProviderReply.done, p')) hcache
  refine ⟨_, ?_, hsound⟩
  rw [History.serve, hcall]
  rfl

theorem serve_register_outside (hindex : ¬ Indexes frameId) (image : S) :
    serve qt (.registerFrame frameId image) h = (none, h) := by
  have hcall : h.provider.call qt (.registerFrame frameId image) = none := by
    rw [FrameProvider.call, FrameProvider.cacheFrame, entry_of_not_indexes h.provider hindex]
    rfl
  rw [serve, hcall]

theorem serve_request_outside (hid : frameIdOf qt id = some frameId) (hindex : ¬ Indexes frameId) :
    serve qt (.requestImage id requestedSize disk) h = (none, h) := by
  have hcall : h.provider.call qt (.requestImage id requestedSize disk) = none := by
    simp only [FrameProvider.call, FrameProvider.requestImage, hid,
      entry_of_not_indexes h.provider hindex, Option.bind_none]
  rw [serve, hcall]

theorem serve_request_unnamed (hid : frameIdOf qt id = none) :
    serve qt (.requestImage id requestedSize disk) h = (some (.image qt.null none), h) := by
  have hcall : h.provider.call qt (.requestImage id requestedSize disk) =
      some (.image qt.null none, h.provider) := by
    simp only [FrameProvider.call, FrameProvider.requestImage, hid]
  have hevent : h.event qt (.requestImage id requestedSize disk) = none := by
    simp only [event, hid, Option.bind_none]
  simp only [serve, hcall, hevent]
  rfl

/-- The three ways a request for a frame in the cache's range goes. -/
theorem Sound.request_cases (hs : h.Sound qt) (hid : frameIdOf qt id = some frameId)
    (hindex : Indexes frameId) (requestedSize : QSize) (disk : String → I) :
    (expected qt (slot frameId) h.events).frameId = frameId ∧
      serve qt (.requestImage id requestedSize disk) h =
        (some (.image (resized qt (expected qt (slot frameId) h.events).image requestedSize)
          (some (qt.size (expected qt (slot frameId) h.events).image))), h) ∨
    (expected qt (slot frameId) h.events).frameId ≠ frameId ∧
      h.provider.loadFrame qt frameId disk = none ∧
      serve qt (.requestImage id requestedSize disk) h = (some (.image qt.null none), h) ∨
    (expected qt (slot frameId) h.events).frameId ≠ frameId ∧
      ∃ path image p', h.provider.loadFrame qt frameId disk = some (path, image) ∧
        serve qt (.requestImage id requestedSize disk) h =
          (some (.image (resized qt image requestedSize) (some (qt.size image))),
            ⟨p', .loaded frameId path image :: h.events⟩) ∧
        Sound qt (⟨p', .loaded frameId path image :: h.events⟩ : History I) := by
  have hentry := hs.entry hindex
  by_cases htag : (expected qt (slot frameId) h.events).frameId = frameId
  · exact .inl ⟨htag, serve_hit hid hentry htag⟩
  cases hload : h.provider.loadFrame qt frameId disk with
  | none => exact .inr (.inl ⟨htag, rfl, serve_miss hid hentry htag hload⟩)
  | some found =>
    obtain ⟨path, image⟩ := found
    obtain ⟨p', hcache, hsound⟩ := hs.cacheFrame (.loaded frameId path image) hindex
      fun id' path' image' heq => by
        cases heq
        exact nonnull_of_loadFrame hload
    exact .inr (.inr ⟨htag, path, image, p', rfl, serve_load hid hentry htag hload hcache, hsound⟩)

/-- A call leaves the cache sound. -/
theorem Sound.serve (hs : h.Sound qt) (c : ProviderCall S I) : (serve qt c h).2.Sound qt := by
  have hregister : ∀ frameId image, (History.serve qt (.registerFrame frameId image) h).2.Sound qt := by
    intro frameId image
    by_cases hindex : Indexes frameId
    · obtain ⟨h', hserve, hsound⟩ := hs.serve_register hindex image
      rw [hserve]
      exact hsound
    · rw [serve_register_outside hindex]
      exact hs
  cases c with
  | registerFrame frameId image => exact hregister frameId image
  | registerRawFrame frameId image => exact hregister frameId image
  | registerFramePath frameId path => exact ⟨hs.length_eq, hs.entry_eq, hs.loaded_nonnull⟩
  | requestImage id requestedSize disk =>
    cases hid : frameIdOf qt id with
    | none =>
      rw [serve_request_unnamed hid]
      exact hs
    | some frameId =>
      by_cases hindex : Indexes frameId
      swap
      · rw [serve_request_outside hid hindex]
        exact hs
      obtain ⟨-, hserve⟩ | ⟨-, -, hserve⟩ | ⟨-, path, image, p', -, hserve, hsound⟩ :=
        hs.request_cases hid hindex requestedSize disk
      · rw [hserve]
        exact hs
      · rw [hserve]
        exact hs
      · rw [hserve]
        exact hsound

/-- What a served image is null for. -/
theorem nonnull_iff (hqt : qt.Lawful) {image : I} (hnull : qt.isNull image = false) :
    qt.isNull (resized qt image requestedSize) = false ↔
      ¬ (requestedSize.isValid = true ∧ requestedSize.isEmpty = true) := by
  rw [hqt.isNull_resized, hnull, Bool.false_or, ← Bool.and_eq_true, Bool.not_eq_true]

/-- A frame that can be loaded and has its slot was loaded before, or has the slot that nothing was
put into. -/
theorem Sound.of_loads (hs : h.Sound qt)
    (htag : (expected qt (slot frameId) h.events).frameId = frameId) (hloads : h.Loads qt frameId disk) :
    qt.isNull (expected qt (slot frameId) h.events).image = false ∨
      frameId = 0 ∧ h.Untouched frameId := by
  obtain ⟨e, he, hid, himage⟩ | ⟨hzero, huntouched, -⟩ := expected_cases htag
  · left
    cases e with
    | registered id image =>
      obtain rfl : id = frameId := hid
      exact absurd he (hloads.1 image)
    | loaded id path image =>
      rw [← himage]
      exact hs.loaded_nonnull id path image he
  · exact .inr ⟨hzero, huntouched⟩

section Request

variable {h' : History I} {size : Option QSize}

theorem right_iff (hid : frameIdOf qt id = some frameId)
    (hserve : serve qt (.requestImage id requestedSize disk) h = (some (.image image size), h')) :
    Right qt (exchange (serve qt) h (.requestImage id requestedSize disk)) ↔
      (qt.isNull image = false → ∃ event ∈ h'.events, event.frameId = frameId ∧
        image = resized qt event.image requestedSize) ∧
      (h.Kept qt frameId ∨ h.Loads qt frameId disk → qt.isNull image = false) := by
  simp only [Right, exchange, hserve, hid]
  constructor
  · rintro ⟨image', size', hreply, hright⟩
    cases hreply
    exact hright frameId rfl
  · intro hright
    refine ⟨image, size, rfl, fun frameId' hid' => ?_⟩
    cases hid'
    exact hright

theorem fits_iff (hid : frameIdOf qt id = some frameId) (hindex : Indexes frameId) :
    Fits qt (exchange (serve qt) h (.requestImage id requestedSize disk)) ↔
      (requestedSize.isValid = true ∧ requestedSize.isEmpty = true →
        ¬ (h.Kept qt frameId ∨ h.Loads qt frameId disk)) ∧
      (frameId = 0 ∧ h.Untouched frameId → ¬ h.Loads qt frameId disk) := by
  simp only [Fits, exchange, hid]
  constructor
  · intro hfits
    obtain ⟨-, hsize, hzero⟩ := hfits frameId rfl
    exact ⟨fun hboth => hsize hboth.1 hboth.2, fun hboth => hzero hboth.1 hboth.2⟩
  · rintro ⟨hsize, hzero⟩ frameId' hid'
    cases hid'
    exact ⟨hindex, fun hvalid hempty => hsize ⟨hvalid, hempty⟩,
      fun h0 huntouched => hzero ⟨h0, huntouched⟩⟩

end Request

/-- The frame's slot has its id. -/
theorem Sound.hit_iff (hqt : qt.Lawful) (hs : h.Sound qt)
    (htag : (expected qt (slot frameId) h.events).frameId = frameId) :
    ((qt.isNull (resized qt (expected qt (slot frameId) h.events).image requestedSize) = false →
        ∃ event ∈ h.events, event.frameId = frameId ∧
          resized qt (expected qt (slot frameId) h.events).image requestedSize =
            resized qt event.image requestedSize) ∧
      (h.Kept qt frameId ∨ h.Loads qt frameId disk →
        qt.isNull (resized qt (expected qt (slot frameId) h.events).image requestedSize) = false)) ↔
      (requestedSize.isValid = true ∧ requestedSize.isEmpty = true →
        ¬ (h.Kept qt frameId ∨ h.Loads qt frameId disk)) ∧
      (frameId = 0 ∧ h.Untouched frameId → ¬ h.Loads qt frameId disk) := by
  constructor
  · rintro ⟨-, hshown⟩
    constructor
    · rintro ⟨hvalid, hempty⟩ hthere
      have hnonnull := hshown hthere
      rw [hqt.isNull_resized, hvalid, hempty, Bool.and_self, Bool.or_true] at hnonnull
      cases hnonnull
    · rintro ⟨-, huntouched⟩ hloads
      have hnonnull := hshown (.inr hloads)
      rw [hqt.isNull_resized, expected_of_untouched huntouched, hqt.isNull_null, Bool.true_or]
        at hnonnull
      cases hnonnull
  · rintro ⟨hsize, hzero⟩
    constructor
    · intro hnonnull
      obtain ⟨e, he, hid, himage⟩ | ⟨-, -, himage⟩ := expected_cases htag
      · exact ⟨e, he, hid, by rw [himage]⟩
      · rw [hqt.isNull_resized, himage, hqt.isNull_null, Bool.true_or] at hnonnull
        cases hnonnull
    · intro hthere
      have hnull : qt.isNull (expected qt (slot frameId) h.events).image = false := by
        obtain hkept | hloads := hthere
        · exact (hs.of_kept hkept).2
        · exact (hs.of_loads htag hloads).resolve_right fun hboth => hzero hboth hloads
      exact (nonnull_iff hqt hnull).mpr fun hboth => hsize hboth hthere

/-- A request is answered rightly exactly when it fits. -/
theorem Sound.request_iff (hqt : qt.Lawful) (hs : h.Sound qt) (id : String) (requestedSize : QSize)
    (disk : String → I) :
    Right qt (exchange (History.serve qt) h (.requestImage id requestedSize disk)) ↔
      Fits qt (exchange (History.serve qt) h (.requestImage id requestedSize disk)) := by
  cases hid : frameIdOf qt id with
  | none =>
    simp only [Right, Fits, exchange, serve_request_unnamed hid, hid]
    exact iff_of_true ⟨_, _, rfl, by simp⟩ (by simp)
  | some frameId =>
    by_cases hindex : Indexes frameId
    swap
    · simp only [Right, Fits, exchange, serve_request_outside hid hindex, hid]
      refine iff_of_false ?_ fun hfits => hindex (hfits frameId rfl).1
      rintro ⟨image, size, hreply, -⟩
      cases hreply
    rw [fits_iff hid hindex]
    obtain ⟨htag, hserve⟩ | ⟨htag, hload, hserve⟩ | ⟨htag, path, image, p', hload, hserve, -⟩ :=
      hs.request_cases hid hindex requestedSize disk
    · rw [right_iff hid hserve]
      exact hs.hit_iff hqt htag
    · -- the frame is neither there nor on the disk
      have hkept : ¬ h.Kept qt frameId := fun hkept => htag (hs.of_kept hkept).1
      have hloads : ¬ h.Loads qt frameId disk := fun hloads => by
        have hsome := hloads.2
        rw [hload] at hsome
        cases hsome
      rw [right_iff hid hserve, hqt.isNull_null]
      refine iff_of_true ⟨(by cases ·), fun hthere => ?_⟩ ⟨fun _ => ?_, fun _ => hloads⟩
      · exact absurd hthere (not_or.mpr ⟨hkept, hloads⟩)
      · exact not_or.mpr ⟨hkept, hloads⟩
    · have hkept : ¬ h.Kept qt frameId := fun hkept => htag (hs.of_kept hkept).1
      have huntouched : ¬ (frameId = 0 ∧ h.Untouched frameId) := by
        rintro ⟨rfl, huntouched⟩
        rw [expected_of_untouched huntouched] at htag
        exact htag rfl
      rw [right_iff hid hserve, or_iff_right hkept,
        nonnull_iff hqt (nonnull_of_loadFrame hload)]
      constructor
      · rintro ⟨-, hshown⟩
        exact ⟨fun hboth hloads => hshown hloads hboth, fun hboth => absurd hboth huntouched⟩
      · rintro ⟨hsize, -⟩
        exact ⟨fun _ => ⟨_, List.mem_cons_self, rfl, rfl⟩, fun hloads hboth => hsize hboth hloads⟩

theorem Sound.right_iff_fits (hqt : qt.Lawful) (hs : h.Sound qt) (c : ProviderCall S I) :
    Right qt (exchange (History.serve qt) h c) ↔ Fits qt (exchange (History.serve qt) h c) := by
  have hregister : ∀ frameId image,
      (History.serve qt (.registerFrame frameId image) h).1.isSome ↔ Indexes frameId := by
    intro frameId image
    by_cases hindex : Indexes frameId
    · obtain ⟨h', hserve, -⟩ := hs.serve_register hindex image
      rw [hserve]
      exact iff_of_true rfl hindex
    · rw [serve_register_outside hindex]
      exact iff_of_false Bool.false_ne_true hindex
  cases c with
  | registerFrame frameId image => exact hregister frameId image
  | registerRawFrame frameId image => exact hregister frameId image
  | registerFramePath frameId path => exact iff_of_true rfl trivial
  | requestImage id requestedSize disk => exact hs.request_iff hqt id requestedSize disk

/-- The provider answers rightly in a run exactly when all of its calls fit. -/
theorem answers_iff_fit (hqt : qt.Lawful) (calls : List (ProviderCall S I)) :
    (∀ e ∈ exchanges (serve qt) (start qt) calls, Right qt e) ↔
      ∀ e ∈ exchanges (serve qt) (start qt) calls, Fits qt e :=
  Exchanges.forall_iff (fun _ c hs => Sound.right_iff_fits hqt hs c)
    (fun _ c hs _ => hs.serve c) sound_start calls

/-! ### Frames that are told apart by a number -/

/-- Images as a number and a size. -/
def sampleQt : QtImages (ℕ × QSize) (ℕ × QSize) where
  copyToQImage image := image
  null := (0, ⟨0, 0⟩)
  isNull image := image.2.isEmpty
  size image := image.2
  scaled image s := if image.2.isEmpty then image else (image.1, s)
  toInt text := if text = "0" then some 0 else if text = "1" then some 1 else none

theorem sampleQt_lawful : sampleQt.Lawful where
  isNull_null := by decide
  isNull_scaled image s := by
    simp only [sampleQt]
    by_cases hempty : image.2.isEmpty = true
    · rw [if_pos hempty, hempty, Bool.true_or]
    · rw [if_neg hempty, Bool.eq_false_iff.mpr hempty, Bool.false_or]
  size_nonempty image hnull := hnull

def pixel : ℕ × QSize := (7, ⟨1, 1⟩)

/-- A frame that is registered and asked for. -/
theorem answers_iff_fit_one : (exchanges (serve sampleQt) (start sampleQt)
    [.registerFrame 1 pixel, .requestImage "frame?t=1" ⟨-1, -1⟩ fun _ => pixel]).length = 2 ∧
      ∀ e ∈ exchanges (serve sampleQt) (start sampleQt)
        [.registerFrame 1 pixel, .requestImage "frame?t=1" ⟨-1, -1⟩ fun _ => pixel],
          Right sampleQt e := by
  refine ⟨rfl, (answers_iff_fit sampleQt_lawful _).mpr ?_⟩
  have hindex : Indexes 1 := .inl (by decide)
  simp only [exchanges, List.forall_mem_cons, List.not_mem_nil, false_implies, implies_true,
    and_true]
  refine ⟨hindex, fun frameId hid => ?_⟩
  obtain rfl : 1 = frameId := Option.some.inj hid
  exact ⟨hindex, fun hvalid => absurd hvalid (by decide), fun hzero => absurd hzero (by decide)⟩

/-- An id below zero leaves the cache; a frame with the id of the empty slots is not loaded; and a
size of no height gives nothing. -/
theorem answered_wrongly :
    (∃ e ∈ exchanges (serve sampleQt) (start sampleQt) [.registerFrame (-1) pixel],
      e.reply.isNone ∧ ¬ Right sampleQt e) ∧
    (∃ e ∈ exchanges (serve sampleQt) (start sampleQt) [.registerFramePath 0 "0.png",
      .requestImage "frame?t=0" ⟨-1, -1⟩ fun _ => pixel], ¬ Right sampleQt e) ∧
    ∃ e ∈ exchanges (serve sampleQt) (start sampleQt) [.registerFrame 1 pixel,
      .requestImage "frame?t=1" ⟨100, 0⟩ fun _ => pixel], ¬ Right sampleQt e := by
  refine ⟨⟨_, List.mem_cons_self, rfl, Bool.false_ne_true⟩,
    ⟨_, List.mem_cons_of_mem _ List.mem_cons_self, ?_⟩,
    ⟨_, List.mem_cons_of_mem _ List.mem_cons_self, ?_⟩⟩
  · rintro ⟨image, size, hreply, hright⟩
    have hloads : Loads sampleQt (serve sampleQt (.registerFramePath 0 "0.png") (start sampleQt)).2 0
        fun _ => pixel :=
      ⟨fun image hmem => List.not_mem_nil hmem, rfl⟩
    have hnull := (hright 0 rfl).2 (.inr hloads)
    cases hreply
    exact absurd hnull (by decide)
  · rintro ⟨image, size, hreply, hright⟩
    have hnull := (hright 1 rfl).2 (.inl ⟨pixel, rfl, rfl⟩)
    cases hreply
    exact absurd hnull (by decide)

end History

end SurfaceAi.Visualization
