import SurfaceAi.Core.Error
import SurfaceAi.Library.Transition
import Mathlib.Algebra.Group.Nat.Defs
import Mathlib.Data.Nat.Notation
import Mathlib.Logic.Function.Basic

/-! The arena: any number of threads in `Construct`, interleaved at the load of the cursor, at the
exchanges and at the placement. A load may see any value the cursor has had, and an exchange may
fail although the cursor has the value expected. -/

namespace SurfaceAi.Memory

/-- The size and the alignment of a type; the alignment is a power of two. -/
structure Layout where
  size : UInt64
  alignment : UInt64
  log : ℕ
  alignment_eq : alignment.toNat = 2 ^ log

namespace Layout

variable (layout : Layout)

/-- `(old_offset + kAlignment - 1) & ~(kAlignment - 1)`. -/
def alignUp (old : UInt64) : UInt64 :=
  (old + layout.alignment - 1) &&& ~~~(layout.alignment - 1)

/-- No sum wraps behind an offset. -/
def Fits (old : UInt64) : Prop :=
  old.toNat + layout.alignment.toNat ≤ 2 ^ 64 ∧
    (layout.alignUp old).toNat + layout.size.toNat < 2 ^ 64

instance (old : UInt64) : Decidable (layout.Fits old) := inferInstanceAs (Decidable (_ ∧ _))

theorem toNat_and_not (x : UInt64) {m : UInt64} {k : ℕ} (hm : m.toNat + 1 = 2 ^ k) :
    (x &&& ~~~m).toNat = x.toNat / 2 ^ k * 2 ^ k := by
  have hnot : (~~~m).toNat = 2 ^ 64 - (m.toNat + 1) := by
    have hlt := m.toNat_lt
    simp only [UInt64.toNat_not, UInt64.size]
    omega
  refine Nat.eq_of_testBit_eq fun i => ?_
  rw [UInt64.toNat_and, hnot, Nat.testBit_and, Nat.testBit_two_pow_sub_succ m.toNat_lt,
    Nat.eq_sub_of_add_eq hm, Nat.testBit_two_pow_sub_one, Nat.testBit_mul_two_pow,
    Nat.testBit_div_two_pow]
  by_cases hk : i < k
  · simp [hk, Nat.not_le.mpr hk]
  · have hki : k ≤ i := Nat.le_of_not_lt hk
    by_cases hi : i < 64
    · simp [hk, hki, hi, Nat.sub_add_cancel]
    · have hbit : x.toNat.testBit i = false :=
        Nat.testBit_lt_two_pow (Nat.lt_of_lt_of_le x.toNat_lt
          (Nat.pow_le_pow_right (by decide) (by omega)))
      simp [hki, hbit, Nat.sub_add_cancel]

variable {layout} {old : UInt64}

theorem alignUp_toNat (h : layout.Fits old) : (layout.alignUp old).toNat =
    (old.toNat + layout.alignment.toNat - 1) / 2 ^ layout.log * 2 ^ layout.log := by
  have hpos := Nat.two_pow_pos layout.log
  have heq := layout.alignment_eq
  have hsum := h.1
  have hlow : (layout.alignment - 1).toNat + 1 = 2 ^ layout.log := by
    rw [UInt64.toNat_sub_of_le _ _ (UInt64.le_iff_toNat_le.mpr (heq ▸ hpos)),
      UInt64.toNat_one]
    omega
  have hhigh : (old + layout.alignment - 1).toNat = old.toNat + layout.alignment.toNat - 1 := by
    have hlt := layout.alignment.toNat_lt
    rw [UInt64.toNat_sub, UInt64.toNat_add, UInt64.toNat_one]
    omega
  rw [alignUp, toNat_and_not _ hlow, hhigh]

theorem dvd_alignUp (h : layout.Fits old) :
    layout.alignment.toNat ∣ (layout.alignUp old).toNat := by
  rw [alignUp_toNat h, layout.alignment_eq]
  exact Nat.dvd_mul_left ..

theorem le_alignUp (h : layout.Fits old) : old.toNat ≤ (layout.alignUp old).toNat := by
  have hpos := Nat.two_pow_pos layout.log
  have hlt := Nat.lt_div_mul_add (a := old.toNat + layout.alignment.toNat - 1) hpos
  rw [alignUp_toNat h]
  have heq := layout.alignment_eq
  omega

theorem toNat_end (h : layout.Fits old) : (layout.alignUp old + layout.size).toNat =
    (layout.alignUp old).toNat + layout.size.toNat := by
  rw [UInt64.toNat_add, Nat.mod_eq_of_lt h.2]

end Layout

/-- The region with its address, a multiple of the alignment it is allocated with. -/
structure ArenaRegion where
  capacityBytes : UInt64
  address : ℕ
  log : ℕ
  address_aligned : 2 ^ log ∣ address

/-- A call that has returned: the offset it observed last, and the offset of its object. -/
structure Construction where
  layout : Layout
  observed : UInt64
  result : Result UInt64

/-- Where a thread is in `Construct`: before the condition of the loop, or behind the loop. -/
inductive ConstructPhase where
  | idle
  | looping (layout : Layout) (oldOffset alignedOffset : UInt64)
  | exited (layout : Layout) (oldOffset alignedOffset : UInt64)

/-- No sum wraps behind an offset that a thread sees in the loop. -/
def ConstructPhase.Admits (seen : UInt64) : ConstructPhase → Prop
  | .looping layout _ _ => layout.Fits seen
  | _ => True

instance (seen : UInt64) : ∀ phase : ConstructPhase, Decidable (phase.Admits seen)
  | .idle => isTrue trivial
  | .looping layout _ _ => inferInstanceAs (Decidable (layout.Fits seen))
  | .exited .. => isTrue trivial

inductive ArenaAccess (T : Type*) where
  | load (t : T) (layout : Layout) (seen : UInt64)
  | attempt (t : T) (failed : Option UInt64)
  | place (t : T)

/-- The arena with its threads, the values the cursor has had, and the calls that returned. -/
structure ArenaAllocator (T : Type*) where
  offset : UInt64
  past : List UInt64
  phase : T → ConstructPhase
  returned : List Construction

namespace ArenaAllocator

variable {T : Type*} [DecidableEq T] (region : ArenaRegion)

def create : ArenaAllocator T := ⟨0, [0], fun _ => .idle, []⟩

variable (s : ArenaAllocator T)

def setPhase (t : T) (phase : ConstructPhase) : ArenaAllocator T :=
  { s with phase := Function.update s.phase t phase }

/-- The condition of the loop: an exchange that succeeds ends it, and one that fails leaves the value
it has seen. -/
def attempt (t : T) (failed : Option UInt64) (layout : Layout) (oldOffset alignedOffset : UInt64) :
    Option (ArenaAllocator T) :=
  if alignedOffset + layout.size ≤ region.capacityBytes then
    match failed with
    | none =>
      if s.offset = oldOffset then
        some ({ s with
          offset := alignedOffset + layout.size
          past := (alignedOffset + layout.size) :: s.past }.setPhase t
            (.exited layout oldOffset alignedOffset))
      else none
    | some seen =>
      if seen ∈ s.past then some (s.setPhase t (.looping layout seen (layout.alignUp seen)))
      else none
  else some (s.setPhase t (.exited layout oldOffset alignedOffset))

/-- The test behind the loop, and the placement. -/
def place (layout : Layout) (alignedOffset : UInt64) : Result UInt64 :=
  if region.capacityBytes < alignedOffset + layout.size then
    fail .memoryArenaExhausted "ArenaAllocator capacity exhausted"
  else .ok alignedOffset

def step (s : ArenaAllocator T) : ArenaAccess T → Option (ArenaAllocator T)
  | .load t layout seen =>
    match s.phase t with
    | .idle =>
      if seen ∈ s.past then some (s.setPhase t (.looping layout seen (layout.alignUp seen)))
      else none
    | _ => none
  | .attempt t failed =>
    match s.phase t with
    | .looping layout oldOffset alignedOffset =>
      s.attempt region t failed layout oldOffset alignedOffset
    | _ => none
  | .place t =>
    match s.phase t with
    | .exited layout oldOffset alignedOffset =>
      some ({ s with returned := s.returned ++
        [(⟨layout, oldOffset, place region layout alignedOffset⟩ : Construction)] }.setPhase t .idle)
    | _ => none

/-- The types that are constructed, and the sums behind the offsets that are seen. -/
def Allowed (s : ArenaAllocator T) : ArenaAccess T → Prop
  | .load _ layout seen => layout.log ≤ region.log ∧ layout.Fits seen
  | .attempt t (some seen) => (s.phase t).Admits seen
  | .attempt _ none => True
  | .place _ => True

instance : ∀ a, Decidable (s.Allowed region a)
  | .load _ layout seen => inferInstanceAs (Decidable (layout.log ≤ region.log ∧ layout.Fits seen))
  | .attempt t (some seen) => inferInstanceAs (Decidable ((s.phase t).Admits seen))
  | .attempt _ none => isTrue trivial
  | .place _ => isTrue trivial

/-- Two ranges that do not overlap. -/
def Apart (layout : Layout) (offset : UInt64) (layout' : Layout) (offset' : UInt64) : Prop :=
  offset.toNat + layout.size.toNat ≤ offset'.toNat ∨
    offset'.toNat + layout'.size.toNat ≤ offset.toNat

/-- The range is aligned for its type and ends before the bound. -/
structure Within (bound : UInt64) (layout : Layout) (offset : UInt64) : Prop where
  aligned : layout.alignment.toNat ∣ region.address + offset.toNat
  le : offset.toNat + layout.size.toNat ≤ bound.toNat

/-- What is promised of the calls that have returned, and of the cursor. -/
structure Promised : Prop where
  used : s.offset ≤ region.capacityBytes
  apart : s.returned.Pairwise fun c d => ∀ a b, c.result = .ok a → d.result = .ok b →
    Apart c.layout a d.layout b
  within : ∀ c ∈ s.returned, ∀ a, c.result = .ok a → Within region region.capacityBytes c.layout a
  exhausted : ∀ c ∈ s.returned, ∀ error, c.result = .error error →
    error.code = .memoryArenaExhausted ∧ region.capacityBytes.toNat <
      (c.layout.alignUp c.observed).toNat + c.layout.size.toNat

end ArenaAllocator

/-- What a thread knows behind a load: the type, and the offset computed from the one seen. -/
def ConstructPhase.Proper (region : ArenaRegion) : ConstructPhase → Prop
  | .idle => True
  | .looping layout oldOffset alignedOffset | .exited layout oldOffset alignedOffset =>
    layout.log ≤ region.log ∧ layout.Fits oldOffset ∧ alignedOffset = layout.alignUp oldOffset

/-- The thread has moved the cursor behind a range, and has not returned yet. -/
def ConstructPhase.Takes (region : ArenaRegion) (phase : ConstructPhase) (layout : Layout)
    (alignedOffset : UInt64) : Prop :=
  ∃ oldOffset, phase = .exited layout oldOffset alignedOffset ∧
    alignedOffset + layout.size ≤ region.capacityBytes

namespace ArenaAllocator

variable {T : Type*} [DecidableEq T] (region : ArenaRegion) (s : ArenaAllocator T)

/-- The ranges taken and the ranges returned end before the cursor, and none overlap. -/
structure Sound : Prop where
  used : s.offset ≤ region.capacityBytes
  proper : ∀ t, (s.phase t).Proper region
  taken : ∀ t layout a, (s.phase t).Takes region layout a → Within region s.offset layout a
  within : ∀ c ∈ s.returned, ∀ a, c.result = .ok a → Within region s.offset c.layout a
  apart : s.returned.Pairwise fun c d => ∀ a b, c.result = .ok a → d.result = .ok b →
    Apart c.layout a d.layout b
  takenApart : ∀ t layout b, (s.phase t).Takes region layout b → ∀ c ∈ s.returned, ∀ a,
    c.result = .ok a → Apart c.layout a layout b
  threads : ∀ t t', t ≠ t' → ∀ layout a layout' a', (s.phase t).Takes region layout a →
    (s.phase t').Takes region layout' a' → Apart layout a layout' a'
  exhausted : ∀ c ∈ s.returned, ∀ error, c.result = .error error →
    error.code = .memoryArenaExhausted ∧ region.capacityBytes.toNat <
      (c.layout.alignUp c.observed).toNat + c.layout.size.toNat

variable {region s}

theorem Within.mono {bound bound' : UInt64} {layout : Layout} {a : UInt64}
    (h : Within region bound layout a) (hle : bound ≤ bound') : Within region bound' layout a :=
  ⟨h.aligned, Nat.le_trans h.le (UInt64.le_iff_toNat_le.mp hle)⟩

theorem Apart.symm {layout layout' : Layout} {a a' : UInt64} (h : Apart layout a layout' a') :
    Apart layout' a' layout a := Or.symm h

omit [DecidableEq T] in
theorem Sound.promised (hs : s.Sound region) : s.Promised region where
  used := hs.used
  apart := hs.apart
  within c hc a ha := (hs.within c hc a ha).mono hs.used
  exhausted := hs.exhausted

omit [DecidableEq T] in
theorem sound_create : (create : ArenaAllocator T).Sound region where
  used := UInt64.zero_le
  proper _ := trivial
  taken := by
    rintro t layout a ⟨old, h, -⟩
    cases h
  within c hc := absurd hc List.not_mem_nil
  apart := .nil
  takenApart := by
    rintro t layout a ⟨old, h, -⟩
    cases h
  threads := by
    rintro t t' - layout a layout' a' ⟨old, h, -⟩
    cases h
  exhausted c hc := absurd hc List.not_mem_nil

theorem update_cases {phase : T → ConstructPhase} {P : ConstructPhase → Prop} {t t' : T}
    {new : ConstructPhase} (h : P (Function.update phase t new t')) :
    t' = t ∧ P new ∨ t' ≠ t ∧ P (phase t') := by
  rw [Function.update_apply] at h
  split_ifs at h with ht
  · exact .inl ⟨ht, h⟩
  · exact .inr ⟨ht, h⟩

theorem proper_update {phase : T → ConstructPhase} (h : ∀ t, (phase t).Proper region) (t : T)
    {new : ConstructPhase} (hnew : new.Proper region) (t' : T) :
    (Function.update phase t new t').Proper region := by
  rw [Function.update_apply]
  split_ifs
  · exact hnew
  · exact h t'

/-- A thread goes on without a range. -/
theorem Sound.setPhase (hs : s.Sound region) {t : T} {phase : ConstructPhase}
    (hproper : phase.Proper region) (hfree : ∀ layout a, ¬phase.Takes region layout a) :
    (s.setPhase t phase).Sound region := by
  have hold : ∀ t' layout a, ((s.setPhase t phase).phase t').Takes region layout a →
      (s.phase t').Takes region layout a := by
    intro t' layout a h
    obtain ⟨-, h⟩ | ⟨-, h⟩ := update_cases (P := fun phase => phase.Takes region layout a) h
    · exact absurd h (hfree layout a)
    · exact h
  exact {
    used := hs.used
    proper := proper_update hs.proper t hproper
    taken := fun t' layout a h => hs.taken t' layout a (hold t' layout a h)
    within := hs.within
    apart := hs.apart
    takenApart := fun t' layout b h => hs.takenApart t' layout b (hold t' layout b h)
    threads := fun t₁ t₂ hne layout a layout' a' h h' =>
      hs.threads t₁ t₂ hne layout a layout' a' (hold _ _ _ h) (hold _ _ _ h')
    exhausted := hs.exhausted }

/-- The range behind the cursor, where no range has been taken. -/
theorem within_alignUp {layout : Layout} {old : UInt64} (hlog : layout.log ≤ region.log)
    (hfits : layout.Fits old) :
    Within region (layout.alignUp old + layout.size) layout (layout.alignUp old) where
  aligned := by
    refine Nat.dvd_add ?_ (Layout.dvd_alignUp hfits)
    rw [layout.alignment_eq]
    exact Nat.dvd_trans (Nat.pow_dvd_pow 2 hlog) region.address_aligned
  le := Nat.le_of_eq (Layout.toNat_end hfits).symm

theorem Within.apart_alignUp {layout layout' : Layout} {a old : UInt64}
    (h : Within region old layout a) (hfits : layout'.Fits old) :
    Apart layout a layout' (layout'.alignUp old) :=
  .inl (Nat.le_trans h.le (Layout.le_alignUp hfits))

theorem le_end {layout : Layout} {old : UInt64} (hfits : layout.Fits old) :
    old ≤ layout.alignUp old + layout.size := by
  rw [UInt64.le_iff_toNat_le, Layout.toNat_end hfits]
  exact Nat.le_add_right_of_le (Layout.le_alignUp hfits)

/-- The exchange succeeds: the thread takes the range behind the cursor. -/
theorem Sound.take (hs : s.Sound region) {t : T} {layout : Layout} {aligned : UInt64}
    (hphase : s.phase t = .looping layout s.offset aligned)
    (hle : aligned + layout.size ≤ region.capacityBytes) :
    ({ s with
      offset := aligned + layout.size
      past := (aligned + layout.size) :: s.past }.setPhase t
        (.exited layout s.offset aligned)).Sound region := by
  obtain ⟨hlog, hfits, rfl⟩ : (ConstructPhase.looping layout s.offset aligned).Proper region :=
    hphase ▸ hs.proper t
  have hcases : ∀ t' layout' a, (Function.update s.phase t
      (.exited layout s.offset (layout.alignUp s.offset)) t').Takes region layout' a →
      t' = t ∧ layout' = layout ∧ a = layout.alignUp s.offset ∨
        t' ≠ t ∧ (s.phase t').Takes region layout' a := by
    intro t' layout' a h
    obtain ⟨ht, _, heq, -⟩ | h :=
      update_cases (P := fun phase => phase.Takes region layout' a) h
    · cases heq
      exact .inl ⟨ht, rfl, rfl⟩
    · exact .inr h
  exact {
    used := hle
    proper := proper_update hs.proper t ⟨hlog, hfits, rfl⟩
    taken := by
      intro t' layout' a h
      obtain ⟨-, rfl, rfl⟩ | ⟨-, h⟩ := hcases t' layout' a h
      · exact within_alignUp hlog hfits
      · exact (hs.taken t' layout' a h).mono (le_end hfits)
    within := fun c hc a ha => (hs.within c hc a ha).mono (le_end hfits)
    apart := hs.apart
    takenApart := by
      intro t' layout' b h c hc a ha
      obtain ⟨-, rfl, rfl⟩ | ⟨-, h⟩ := hcases t' layout' b h
      · exact (hs.within c hc a ha).apart_alignUp hfits
      · exact hs.takenApart t' layout' b h c hc a ha
    threads := by
      intro t₁ t₂ hne l₁ a₁ l₂ a₂ h₁ h₂
      obtain ⟨ht₁, hl₁, ha₁⟩ | ⟨-, hold₁⟩ := hcases t₁ l₁ a₁ h₁
      · obtain ⟨ht₂, -⟩ | ⟨-, hold₂⟩ := hcases t₂ l₂ a₂ h₂
        · exact absurd (ht₁.trans ht₂.symm) hne
        · rw [hl₁, ha₁]
          exact ((hs.taken t₂ l₂ a₂ hold₂).apart_alignUp hfits).symm
      · obtain ⟨-, hl₂, ha₂⟩ | ⟨-, hold₂⟩ := hcases t₂ l₂ a₂ h₂
        · rw [hl₂, ha₂]
          exact (hs.taken t₁ l₁ a₁ hold₁).apart_alignUp hfits
        · exact hs.threads t₁ t₂ hne l₁ a₁ l₂ a₂ hold₁ hold₂
    exhausted := hs.exhausted }

theorem place_eq_ok {layout : Layout} {aligned a : UInt64} :
    ArenaAllocator.place region layout aligned = .ok a ↔
      aligned + layout.size ≤ region.capacityBytes ∧ aligned = a := by
  unfold ArenaAllocator.place
  split_ifs with h
  · exact ⟨fun heq => (by cases heq), fun hle => absurd h (UInt64.not_lt.mpr hle.1)⟩
  · exact ⟨fun heq => ⟨UInt64.not_lt.mp h, Except.ok.inj heq⟩, fun heq => congrArg _ heq.2⟩

theorem place_eq_error {layout : Layout} {aligned : UInt64} {error : ErrorInfo}
    (h : ArenaAllocator.place region layout aligned = .error error) :
    error.code = .memoryArenaExhausted ∧ region.capacityBytes < aligned + layout.size := by
  unfold ArenaAllocator.place at h
  split_ifs at h with hlt
  cases h
  exact ⟨rfl, hlt⟩

/-- The call returns: what the thread took is what it answers. -/
theorem Sound.place (hs : s.Sound region) {t : T} {layout : Layout} {old aligned : UInt64}
    (hphase : s.phase t = .exited layout old aligned) :
    ({ s with returned := s.returned ++
      [(⟨layout, old, ArenaAllocator.place region layout aligned⟩ : Construction)] }.setPhase t
        .idle).Sound region := by
  obtain ⟨-, hfits, rfl⟩ : (ConstructPhase.exited layout old aligned).Proper region :=
    hphase ▸ hs.proper t
  have htakes : ∀ a, ArenaAllocator.place region layout (layout.alignUp old) = .ok a →
      (s.phase t).Takes region layout a := by
    intro a ha
    obtain ⟨hle, rfl⟩ := place_eq_ok.mp ha
    exact ⟨old, hphase, hle⟩
  have hold : ∀ t' layout' a, (Function.update s.phase t .idle t').Takes region layout' a →
      t' ≠ t ∧ (s.phase t').Takes region layout' a := by
    intro t' layout' a h
    obtain ⟨-, _, heq, -⟩ | h := update_cases (P := fun phase => phase.Takes region layout' a) h
    · cases heq
    · exact h
  exact {
    used := hs.used
    proper := proper_update hs.proper t trivial
    taken := fun t' layout' a h => hs.taken t' layout' a (hold t' layout' a h).2
    within := by
      intro c hc a ha
      obtain hc | hc := List.mem_append.mp hc
      · exact hs.within c hc a ha
      · obtain rfl := List.mem_singleton.mp hc
        exact hs.taken t layout a (htakes a ha)
    apart := by
      refine List.pairwise_append.mpr ⟨hs.apart, List.pairwise_singleton .., ?_⟩
      intro c hc d hd a b ha hb
      obtain rfl := List.mem_singleton.mp hd
      exact hs.takenApart t layout b (htakes b hb) c hc a ha
    takenApart := by
      intro t' layout' b h c hc a ha
      obtain ⟨hne, h⟩ := hold t' layout' b h
      obtain hc | hc := List.mem_append.mp hc
      · exact hs.takenApart t' layout' b h c hc a ha
      · obtain rfl := List.mem_singleton.mp hc
        exact hs.threads t t' hne.symm layout a layout' b (htakes a ha) h
    threads := fun t₁ t₂ hne l₁ a₁ l₂ a₂ h₁ h₂ =>
      hs.threads t₁ t₂ hne l₁ a₁ l₂ a₂ (hold _ _ _ h₁).2 (hold _ _ _ h₂).2
    exhausted := by
      intro c hc error he
      obtain hc | hc := List.mem_append.mp hc
      · exact hs.exhausted c hc error he
      · obtain rfl := List.mem_singleton.mp hc
        obtain ⟨hcode, hlt⟩ := place_eq_error he
        refine ⟨hcode, ?_⟩
        rw [UInt64.lt_iff_toNat_lt, Layout.toNat_end hfits] at hlt
        exact hlt }

omit [DecidableEq T] in
theorem free_looping {layout : Layout} {old aligned : UInt64} (layout' : Layout) (a : UInt64) :
    ¬(ConstructPhase.looping layout old aligned).Takes region layout' a := by
  rintro ⟨_, h, -⟩
  cases h

/-- The condition of the loop is tried by a thread. -/
theorem Sound.attempt {s' : ArenaAllocator T} (hs : s.Sound region) {t : T}
    {failed : Option UInt64} {layout : Layout} {old aligned : UInt64}
    (hphase : s.phase t = .looping layout old aligned)
    (hfits : ∀ seen, failed = some seen → layout.Fits seen)
    (h : s.attempt region t failed layout old aligned = some s') :
    s'.Sound region ∧ s.offset ≤ s'.offset := by
  have hproper : (ConstructPhase.looping layout old aligned).Proper region :=
    hphase ▸ hs.proper t
  unfold ArenaAllocator.attempt at h
  by_cases hle : aligned + layout.size ≤ region.capacityBytes
  · rw [if_pos hle] at h
    cases failed with
    | none =>
      obtain ⟨rfl, h⟩ := Option.ite_none_right_eq_some.mp h
      cases h
      refine ⟨hs.take hphase hle, ?_⟩
      obtain ⟨-, hfit, rfl⟩ := hproper
      exact le_end hfit
    | some seen =>
      obtain ⟨-, h⟩ := Option.ite_none_right_eq_some.mp h
      cases h
      exact ⟨hs.setPhase ⟨hproper.1, hfits seen rfl, rfl⟩ free_looping, UInt64.le_refl _⟩
  · rw [if_neg hle] at h
    cases h
    refine ⟨hs.setPhase hproper ?_, UInt64.le_refl _⟩
    rintro _ _ ⟨_, heq, hle'⟩
    cases heq
    exact hle hle'

theorem Sound.step {s' : ArenaAllocator T} {a : ArenaAccess T} (hs : s.Sound region)
    (hallowed : s.Allowed region a) (h : ArenaAllocator.step region s a = some s') :
    s'.Sound region ∧ s.offset ≤ s'.offset := by
  cases a with
  | load t layout seen =>
    rw [ArenaAllocator.step] at h
    split at h
    · obtain ⟨-, h⟩ := Option.ite_none_right_eq_some.mp h
      cases h
      exact ⟨hs.setPhase ⟨hallowed.1, hallowed.2, rfl⟩ free_looping, UInt64.le_refl _⟩
    · cases h
  | attempt t failed =>
    rw [ArenaAllocator.step] at h
    split at h
    · rename_i layout old aligned hphase
      refine hs.attempt hphase ?_ h
      rintro seen rfl
      rw [Allowed, hphase] at hallowed
      exact hallowed
    · cases h
  | place t =>
    rw [ArenaAllocator.step] at h
    split at h
    · rename_i layout old aligned hphase
      cases h
      exact ⟨hs.place hphase, UInt64.le_refl _⟩
    · cases h

/-- Along every interleaving the ranges that are returned are aligned, inside the region and do not
overlap, the cursor moves forward inside the region, and a call fails only where its range does not
fit behind the offset it has seen last. -/
theorem never_overlap {actions : List (ArenaAccess T)}
    (h : Transition.Guarded (step region) (Allowed region) create actions s) :
    s.Promised region ∧ ∀ a s', s.Allowed region a → step region s a = some s' →
      s.offset ≤ s'.offset := by
  have hs : s.Sound region := by
    induction h with
    | start => exact sound_create
    | next _ hallowed hstep ih => exact (ih.step hallowed hstep).1
  exact ⟨hs.promised, fun a s' hallowed hstep => (hs.step hallowed hstep).2⟩

/-- Two threads see the start of the region; the one that loses goes on behind the other. -/
def raced : List (ArenaAccess Bool) :=
  [.load false ⟨1, 1, 0, rfl⟩ 0, .load true ⟨8, 8, 3, rfl⟩ 0, .attempt false none,
    .attempt true (some 1), .attempt true none, .place true, .place false]

theorem never_overlap_raced : ∃ s : ArenaAllocator Bool, s.offset = 16 ∧
    s.Promised ⟨64, 4096, 6, by decide⟩ := by
  have hrun : (Transition.run (fun s a =>
      if s.Allowed ⟨64, 4096, 6, by decide⟩ a then step ⟨64, 4096, 6, by decide⟩ s a else none)
      create raced).map (·.offset) = some 16 := by decide
  obtain ⟨s, hs, hoffset⟩ := Option.map_eq_some_iff.mp hrun
  exact ⟨s, hoffset, (never_overlap (Transition.Guarded.of_run _ hs)).1⟩

end ArenaAllocator

end SurfaceAi.Memory
