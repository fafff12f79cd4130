import SurfaceAi.Knowledge.Graph
import SurfaceAi.Library.Transition
import Mathlib.Data.Bool.Basic
import Mathlib.Data.List.Basic
import Mathlib.Logic.Function.Basic

/-! The inspection recorder: two buffers, one for the writers and one for `Flush`, which swaps them
under the lock and writes its own to the knowledge graph outside of it. -/

namespace SurfaceAi.Pipeline

open Knowledge Transition

abbrev kMaxBufferSize : ℕ := 512

structure PendingRecord (D : Type) where
  detectionScore : D
  machineVerdict : String
  surfaceId : String
  timestampUs : ℤ
  deriving DecidableEq

abbrev RecordEntry (D : Type) := String × KnowledgeRecord D

namespace PendingRecord

variable {D : Type} (rec : PendingRecord D)

/-- The node that is written for a record. -/
def entry : RecordEntry D :=
  let props := (((∅ : AList fun _ : String => FieldValue D).insert "detection_score"
    (.double rec.detectionScore)).insert "machine_verdict" (.string rec.machineVerdict)).insert
    "timestamp" (.int rec.timestampUs)
  ("GroundTruth",
    ⟨if rec.surfaceId = "" then props else props.insert "surface_id" (.string rec.surfaceId)⟩)

/-- What is left of a record whose texts have been moved to its node. -/
def moved : PendingRecord D := { rec with machineVerdict := "", surfaceId := "" }

end PendingRecord

/-- Where a `Flush` is after its swap. The loop over the records has the storage it iterates over,
how far it is, where it stops, and the entries it has made. -/
inductive FlushPhase (D : Type) where
  | swapped
  | filled
  | reading (storage : Bool) (next stop : ℕ) (entries : List (RecordEntry D))
  | inserted

structure FlushCall (D : Type) where
  background : Bool
  phase : FlushPhase D

/-- A record that was given up, with what was pending. -/
structure Discard (D : Type) where
  pending : List (PendingRecord D)
  record : PendingRecord D

/-- The vectors swap their storages: `front` is the one `flush_buffer_` has. `writers` are the calls
of `WriteRecord` that have passed its test. Of the records, those that were accepted are kept or
discarded, and `inserted` is what `InsertNodesBatch` was given, call by call. -/
structure InspectionRecorder (D : Type) where
  hasGraph : Bool
  enabled : Bool := false
  started : Bool := false
  closing : Bool := false
  storage : Bool → List (PendingRecord D) := fun _ => []
  front : Bool := false
  writers : List (PendingRecord D) := []
  flushes : List (FlushCall D) := []
  kept : List (PendingRecord D) := []
  discards : List (Discard D) := []
  inserted : List (List (RecordEntry D)) := []
  misread : Bool := false

inductive RecorderOp (D : Type) where
  | writeRecord (detectionScore : D) (machineVerdict surfaceId : String) (timestampUs now : ℤ)
  | push (writer : ℕ)
  | setEnabled (enabled : Bool)
  | flush (background : Bool)
  | advance (flush : ℕ)
  | destroy

namespace InspectionRecorder

variable {D : Type} (r : InspectionRecorder D)

def flushBuffer : List (PendingRecord D) := r.storage r.front

def writeBuffer : List (PendingRecord D) := r.storage !r.front

/-! ### The steps of a flush -/

/-- The swap under the lock. -/
def swap (background : Bool) : InspectionRecorder D :=
  { r with front := !r.front, flushes := ⟨background, .swapped⟩ :: r.flushes }

def setPhase (i : ℕ) (c : FlushCall D) (phase : FlushPhase D) : InspectionRecorder D :=
  { r with flushes := r.flushes.set i { c with phase } }

/-- A record is read where the loop is in its storage. -/
def read (i : ℕ) (c : FlushCall D) (storage : Bool) (next stop : ℕ)
    (entries : List (RecordEntry D)) : InspectionRecorder D :=
  match (r.storage storage)[next]? with
  | some rec =>
    { r with storage := Function.update r.storage storage ((r.storage storage).set next rec.moved)
      }.setPhase i c (.reading storage (next + 1) stop (entries ++ [rec.entry]))
  | none =>
    { r with misread := true }.setPhase i c (.reading storage (next + 1) stop entries)

/-- The next step of a flush, to its end. -/
def stepFlush (i : ℕ) (c : FlushCall D) : InspectionRecorder D :=
  match c.phase with
  | .swapped =>
    if r.flushBuffer.isEmpty then { r with flushes := r.flushes.eraseIdx i }
    else r.setPhase i c .filled
  | .filled => r.setPhase i c (.reading r.front 0 r.flushBuffer.length [])
  | .reading storage next stop entries =>
    if next = stop then { r with inserted := r.inserted ++ [entries] }.setPhase i c .inserted
    else r.read i c storage next stop entries
  | .inserted =>
    { r with
      storage := Function.update r.storage r.front []
      flushes := r.flushes.eraseIdx i }

def advance (i : ℕ) : Option (InspectionRecorder D) := r.flushes[i]?.map (r.stepFlush i)

/-! ### The steps of the recorder -/

/-- A writer has the lock. -/
def push (i : ℕ) : Option (InspectionRecorder D) :=
  r.writers[i]?.map fun rec =>
    if kMaxBufferSize ≤ r.writeBuffer.length then
      { r with
        writers := r.writers.eraseIdx i
        discards := r.discards ++ [⟨r.writeBuffer, rec⟩] }
    else
      { r with
        writers := r.writers.eraseIdx i
        storage := Function.update r.storage (!r.front) (r.writeBuffer ++ [rec])
        kept := r.kept ++ [rec] }

/-- The destructor runs after every call, joins the flush thread and flushes once more. -/
def step : RecorderOp D → Option (InspectionRecorder D)
  | .writeRecord detectionScore machineVerdict surfaceId timestampUs now =>
    if r.closing then none
    else if r.enabled && r.hasGraph then
      some { r with
        writers := r.writers ++ [⟨detectionScore, machineVerdict, surfaceId,
          if timestampUs = 0 then now else timestampUs⟩] }
    else some r
  | .push i => r.push i
  | .setEnabled enabled =>
    if r.closing then none
    else some { r with enabled, started := r.started || (enabled && !r.enabled) }
  | .flush background =>
    if r.closing || (background && (!r.started || r.flushes.any (·.background))) then none
    else if r.hasGraph then some (r.swap background)
    else some r
  | .advance i => r.advance i
  | .destroy =>
    if r.closing || !r.writers.isEmpty || !r.flushes.isEmpty then none
    else if r.hasGraph then some { r.swap false with closing := true }
    else some { r with closing := true }

def create (hasGraph : Bool) : InspectionRecorder D where
  hasGraph

/-! ### What is asked -/

/-- Every record that was kept is written once, in order and with its own fields, at the latest when
the recorder is gone; what was discarded was the oldest of a full buffer. -/
structure Faithful : Prop where
  delivered : r.inserted.flatten <+: r.kept.map PendingRecord.entry
  complete : r.closing = true → r.flushes = [] →
    r.inserted.flatten = r.kept.map PendingRecord.entry
  oldest : ∀ d ∈ r.discards, d.pending.length = kMaxBufferSize ∧ d.pending.head? = some d.record
  inside : r.misread = false

end InspectionRecorder

/-- The flush has begun its loop. -/
def FlushCall.Begun {D : Type} (c : FlushCall D) : Prop :=
  match c.phase with
  | .swapped | .filled => False
  | .reading _ _ _ _ | .inserted => True

namespace InspectionRecorder

variable {D : Type} (r : InspectionRecorder D)

/-- A swap is harmless when no flush is under way, or when there is nothing to hand over and
nothing is being read. -/
def Undisturbed : Prop :=
  r.flushes = [] ∨ r.writeBuffer = [] ∧ (r.flushBuffer = [] ∨ ∀ c ∈ r.flushes, ¬ c.Begun)

instance : DecidablePred (FlushCall.Begun (D := D)) := fun c =>
  match c with
  | ⟨_, .swapped⟩ | ⟨_, .filled⟩ => .isFalse id
  | ⟨_, .reading _ _ _ _⟩ | ⟨_, .inserted⟩ => .isTrue trivial

instance : Decidable r.Undisturbed :=
  inferInstanceAs (Decidable (_ ∨ _ ∧ (_ ∨ ∀ c ∈ r.flushes, ¬ c.Begun)))

/-- There is room for a record that is pushed, and a swap is harmless. -/
def Fits : RecorderOp D → Prop
  | .push _ => r.writeBuffer.length < kMaxBufferSize
  | .flush _ => r.Undisturbed
  | _ => True

instance : DecidablePred r.Fits
  | .push _ => inferInstanceAs (Decidable (r.writeBuffer.length < kMaxBufferSize))
  | .flush _ => inferInstanceAs (Decidable r.Undisturbed)
  | .writeRecord .. | .setEnabled _ | .advance _ | .destroy => .isTrue trivial

end InspectionRecorder

/-! ### What a flush holds -/

namespace FlushCall

variable {D : Type} (c : FlushCall D)

/-- What a flush of this buffer has still to write. -/
def held (buffer : List (PendingRecord D)) : List (RecordEntry D) :=
  match c.phase with
  | .swapped | .filled => buffer.map PendingRecord.entry
  | .reading _ next _ entries => entries ++ (buffer.drop next).map PendingRecord.entry
  | .inserted => []

theorem held_reading (background storage : Bool) (next stop : ℕ) (entries : List (RecordEntry D))
    (buffer : List (PendingRecord D)) :
    held ⟨background, .reading storage next stop entries⟩ buffer =
      entries ++ (buffer.drop next).map PendingRecord.entry :=
  rfl

/-- The loop runs over the buffer of this storage, and is inside it. -/
def Sound (front : Bool) (buffer : List (PendingRecord D)) : Prop :=
  match c.phase with
  | .reading storage next stop entries =>
    storage = front ∧ stop = buffer.length ∧ next ≤ stop ∧ entries.length = next
  | _ => True

/-- There is nothing to write. -/
def Empty : Prop :=
  match c.phase with
  | .reading _ next stop entries => next = 0 ∧ stop = 0 ∧ entries = []
  | _ => True

theorem Sound.empty {c : FlushCall D} {front : Bool} (h : c.Sound front []) : c.Empty := by
  obtain ⟨background, phase⟩ := c
  cases phase with
  | swapped => trivial
  | filled => trivial
  | reading storage next stop entries =>
    obtain ⟨-, hstop, hnext, hlength⟩ := h
    obtain rfl : stop = 0 := hstop
    obtain rfl : next = 0 := Nat.le_zero.mp hnext
    exact ⟨rfl, rfl, List.length_eq_zero_iff.mp hlength⟩
  | inserted => trivial

theorem Sound.held_nil {c : FlushCall D} {front : Bool} (h : c.Sound front []) :
    c.held [] = [] := by
  have hempty := h.empty
  obtain ⟨background, phase⟩ := c
  cases phase with
  | swapped => rfl
  | filled => rfl
  | reading storage next stop entries =>
    obtain ⟨rfl, -, rfl⟩ := hempty
    rfl
  | inserted => rfl

theorem Empty.of_not_begun {c : FlushCall D} (h : ¬ c.Begun) : c.Empty := by
  obtain ⟨background, phase⟩ := c
  cases phase with
  | swapped => trivial
  | filled => trivial
  | reading storage next stop entries => exact absurd trivial h
  | inserted => trivial

theorem held_of_not_begun {c : FlushCall D} (h : ¬ c.Begun)
    (buffer : List (PendingRecord D)) : c.held buffer = buffer.map PendingRecord.entry := by
  obtain ⟨background, phase⟩ := c
  cases phase with
  | swapped => rfl
  | filled => rfl
  | reading storage next stop entries => exact absurd trivial h
  | inserted => exact absurd trivial h

end FlushCall

namespace InspectionRecorder

variable {D : Type} {r s : InspectionRecorder D}

/-- What is kept and not written yet is in the buffers. More than one flush is under way only when
all of them will find nothing. -/
inductive Accounted (r : InspectionRecorder D) : Prop where
  | idle (hbuffer : r.flushBuffer = []) (hflushes : ∀ c ∈ r.flushes, c.Empty)
      (hkept : r.kept.map PendingRecord.entry =
        r.inserted.flatten ++ r.writeBuffer.map PendingRecord.entry)
  | busy (c : FlushCall D) (hflushes : r.flushes = [c]) (hsound : c.Sound r.front r.flushBuffer)
      (hkept : r.kept.map PendingRecord.entry =
        r.inserted.flatten ++ c.held r.flushBuffer ++ r.writeBuffer.map PendingRecord.entry)

/-- A flush that is under way over an empty buffer is one of many. -/
theorem Accounted.idle_of_empty (h : r.Accounted) (hbuffer : r.flushBuffer = []) :
    (∀ c ∈ r.flushes, c.Empty) ∧ r.kept.map PendingRecord.entry =
      r.inserted.flatten ++ r.writeBuffer.map PendingRecord.entry := by
  cases h with
  | idle _ hflushes hkept => exact ⟨hflushes, hkept⟩
  | busy c hflushes hsound hkept =>
    rw [hbuffer] at hsound hkept
    rw [hsound.held_nil, List.append_nil] at hkept
    refine ⟨?_, hkept⟩
    intro c' hc'
    rw [hflushes, List.mem_singleton] at hc'
    exact hc' ▸ hsound.empty

/-- What every step keeps while there is room and swaps are harmless. -/
structure Invariant (r : InspectionRecorder D) : Prop where
  accounted : r.Accounted
  discards_eq : r.discards = []
  misread_eq : r.misread = false
  closed : r.closing = true → r.writers = [] ∧ r.writeBuffer = []
  graphless : r.hasGraph = false → r.kept = [] ∧ r.writers = []

theorem Accounted.delivered (h : r.Accounted) :
    r.inserted.flatten <+: r.kept.map PendingRecord.entry := by
  cases h with
  | idle _ _ hkept => exact hkept ▸ List.prefix_append _ _
  | busy c _ _ hkept =>
    rw [hkept, List.append_assoc]
    exact List.prefix_append _ _

theorem Invariant.faithful (h : r.Invariant) : r.Faithful where
  delivered := h.accounted.delivered
  complete hclosing hflushes := by
    cases h.accounted with
    | idle _ _ hkept =>
      rw [hkept, (h.closed hclosing).2]
      exact (List.append_nil _).symm
    | busy c hc => rw [hflushes] at hc; cases hc
  oldest d hd := by
    rw [h.discards_eq] at hd
    cases hd
  inside := h.misread_eq

theorem invariant_create (hasGraph : Bool) : (create (D := D) hasGraph).Invariant where
  accounted := .idle rfl (by intro c hc; cases hc) rfl
  discards_eq := rfl
  misread_eq := rfl
  closed h := by cases h
  graphless _ := ⟨rfl, rfl⟩

/-! ### The buffers -/

theorem swap_flushBuffer (background : Bool) : (r.swap background).flushBuffer = r.writeBuffer :=
  rfl

theorem swap_writeBuffer (background : Bool) : (r.swap background).writeBuffer = r.flushBuffer :=
  congrArg r.storage (Bool.not_not r.front)

/-- A store to one storage, seen from either buffer. -/
theorem update_front (buffer : List (PendingRecord D)) :
    Function.update r.storage r.front buffer r.front = buffer ∧
      Function.update r.storage r.front buffer (!r.front) = r.writeBuffer :=
  ⟨Function.update_self _ _ _, Function.update_of_ne (Bool.not_ne_self r.front) _ _⟩

theorem update_back (buffer : List (PendingRecord D)) :
    Function.update r.storage (!r.front) buffer r.front = r.flushBuffer ∧
      Function.update r.storage (!r.front) buffer (!r.front) = buffer :=
  ⟨Function.update_of_ne (Bool.not_ne_self r.front).symm _ _, Function.update_self _ _ _⟩

/-! ### What a step keeps -/

theorem Accounted.append (h : r.Accounted) {rec : PendingRecord D} (hkept : s.kept = r.kept ++ [rec])
    (hflush : s.flushBuffer = r.flushBuffer) (hwrite : s.writeBuffer = r.writeBuffer ++ [rec])
    (hflushes : s.flushes = r.flushes) (hfront : s.front = r.front)
    (hinserted : s.inserted = r.inserted) : s.Accounted := by
  cases h with
  | idle hbuffer hempty heq =>
    refine .idle (hflush.trans hbuffer) (hflushes ▸ hempty) ?_
    rw [hkept, hwrite, hinserted, List.map_append, List.map_append, heq, List.append_assoc]
  | busy c hc hsound heq =>
    refine .busy c (hflushes.trans hc) (by rw [hfront, hflush]; exact hsound) ?_
    rw [hkept, hwrite, hflush, hinserted, List.map_append, List.map_append, heq, List.append_assoc]

theorem Invariant.push (h : r.Invariant) {i : ℕ} (hroom : r.writeBuffer.length < kMaxBufferSize)
    (hstep : r.push i = some s) : s.Invariant := by
  obtain ⟨rec, hrec, rfl⟩ := Option.map_eq_some_iff.mp hstep
  have hwriters : r.writers ≠ [] := by
    intro hnil
    rw [hnil] at hrec
    cases hrec
  rw [if_neg (Nat.not_le.mpr hroom)]
  obtain ⟨hflush, hwrite⟩ := r.update_back (r.writeBuffer ++ [rec])
  refine ⟨h.accounted.append rfl hflush hwrite rfl rfl rfl, h.discards_eq, h.misread_eq, ?_, ?_⟩
  · intro hclosing
    exact absurd (h.closed hclosing).1 hwriters
  · intro hgraph
    exact absurd (h.graphless hgraph).2 hwriters

theorem Accounted.swap (h : r.Accounted) (hfits : r.Undisturbed) (background : Bool) :
    (r.swap background).Accounted := by
  by_cases hwrite : r.writeBuffer = []
  · have hrest : (∀ c ∈ r.flushes, c.Empty) ∧ r.kept.map PendingRecord.entry =
        r.inserted.flatten ++ r.flushBuffer.map PendingRecord.entry := by
      by_cases hflush : r.flushBuffer = []
      · rw [hflush, ← hwrite]
        exact h.idle_of_empty hflush
      · cases h with
        | idle hbuffer => exact absurd hbuffer hflush
        | busy c hc hsound hkept =>
          obtain hnone | ⟨-, hbuffer | hbegun⟩ := hfits
          · rw [hc] at hnone
            cases hnone
          · exact absurd hbuffer hflush
          · have hnot := hbegun c (hc ▸ List.mem_singleton_self c)
            rw [hc, List.forall_mem_singleton]
            refine ⟨.of_not_begun hnot, ?_⟩
            rw [hkept, hwrite, FlushCall.held_of_not_begun hnot]
            exact List.append_nil _
    refine .idle hwrite (List.forall_mem_cons.mpr ⟨trivial, hrest.1⟩) ?_
    rw [swap_writeBuffer]
    exact hrest.2
  · obtain hnone | ⟨hnil, -⟩ := hfits
    · cases h with
      | idle hbuffer _ hkept =>
        refine .busy ⟨background, .swapped⟩ (congrArg _ hnone) trivial ?_
        rw [swap_writeBuffer, swap_flushBuffer, hbuffer]
        exact hkept.trans (List.append_nil _).symm
      | busy c hc =>
        rw [hnone] at hc
        cases hc
    · exact absurd hnil hwrite

/-- A flush that finds nothing. -/
theorem advance_idle {i : ℕ} (hbuffer : r.flushBuffer = []) (hempty : ∀ c ∈ r.flushes, c.Empty)
    (hkept : r.kept.map PendingRecord.entry =
      r.inserted.flatten ++ r.writeBuffer.map PendingRecord.entry)
    (hstep : r.advance i = some s) :
    s.Accounted ∧ s.writeBuffer = r.writeBuffer ∧ s.misread = r.misread := by
  obtain ⟨⟨background, phase⟩, hc, rfl⟩ := Option.map_eq_some_iff.mp hstep
  have hset : ∀ c' : FlushCall D, c'.Empty → ∀ c ∈ r.flushes.set i c', c.Empty := by
    intro c' hc' c hmem
    obtain hold | rfl := List.mem_or_eq_of_mem_set hmem
    · exact hempty c hold
    · exact hc'
  cases phase with
  | swapped =>
    have hnil : r.flushBuffer.isEmpty = true := List.isEmpty_iff.mpr hbuffer
    have hs : r.stepFlush i ⟨background, .swapped⟩ =
        { r with flushes := r.flushes.eraseIdx i } := if_pos hnil
    rw [hs]
    exact ⟨.idle hbuffer (fun c hmem => hempty c (List.mem_of_mem_eraseIdx hmem)) hkept, rfl, rfl⟩
  | filled =>
    refine ⟨.idle hbuffer (hset _ ⟨rfl, ?_, rfl⟩) hkept, rfl, rfl⟩
    exact congrArg List.length hbuffer
  | reading storage next stop entries =>
    obtain ⟨rfl, rfl, rfl⟩ := hempty _ (List.mem_of_getElem? hc)
    refine ⟨.idle hbuffer (hset _ trivial) ?_, rfl, rfl⟩
    change r.kept.map _ = (r.inserted ++ [[]]).flatten ++ r.writeBuffer.map _
    rw [List.flatten_append, List.flatten_singleton, List.append_nil]
    exact hkept
  | inserted =>
    obtain ⟨hfront, hback⟩ := r.update_front []
    refine ⟨.idle hfront (fun c hmem => hempty c (List.mem_of_mem_eraseIdx hmem)) ?_, hback, rfl⟩
    change r.kept.map _ = r.inserted.flatten ++
      (Function.update r.storage r.front [] (!r.front)).map _
    rw [hback]
    exact hkept

/-- The only flush that is under way. -/
theorem advance_busy {i : ℕ} {c : FlushCall D} (hflushes : r.flushes = [c])
    (hsound : c.Sound r.front r.flushBuffer)
    (hkept : r.kept.map PendingRecord.entry =
      r.inserted.flatten ++ c.held r.flushBuffer ++ r.writeBuffer.map PendingRecord.entry)
    (hstep : r.advance i = some s) :
    s.Accounted ∧ s.writeBuffer = r.writeBuffer ∧ s.misread = r.misread := by
  obtain ⟨c', hc', rfl⟩ := Option.map_eq_some_iff.mp hstep
  rw [hflushes] at hc'
  obtain ⟨rfl, rfl⟩ : i = 0 ∧ c' = c := by
    cases i with
    | zero => exact ⟨rfl, (Option.some.inj hc').symm⟩
    | succ i => cases hc'
  obtain ⟨background, phase⟩ := c'
  have hset : ∀ c' : FlushCall D, r.flushes.set 0 c' = [c'] := fun c' => by rw [hflushes]; rfl
  have herase : r.flushes.eraseIdx 0 = [] := by rw [hflushes]; rfl
  cases phase with
  | swapped =>
    by_cases hbuffer : r.flushBuffer = []
    · have hs : r.stepFlush 0 ⟨background, .swapped⟩ =
          { r with flushes := r.flushes.eraseIdx 0 } := if_pos (List.isEmpty_iff.mpr hbuffer)
      rw [hs]
      refine ⟨.idle hbuffer (fun c hmem => ?_) ?_, rfl, rfl⟩
      · rw [herase] at hmem
        cases hmem
      · rw [hbuffer] at hkept
        exact hkept.trans (congrArg (· ++ _) (List.append_nil _))
    · have hs : r.stepFlush 0 ⟨background, .swapped⟩ =
          r.setPhase 0 ⟨background, .swapped⟩ .filled :=
        if_neg fun h => hbuffer (List.isEmpty_iff.mp h)
      rw [hs]
      exact ⟨.busy ⟨background, .filled⟩ (hset _) trivial hkept, rfl, rfl⟩
  | filled =>
    exact ⟨.busy ⟨background, .reading r.front 0 r.flushBuffer.length []⟩ (hset _)
      ⟨rfl, rfl, Nat.zero_le _, rfl⟩ hkept, rfl, rfl⟩
  | reading storage next stop entries =>
    obtain ⟨rfl, rfl, hnext, hlength⟩ := hsound
    by_cases hstop : next = r.flushBuffer.length
    · have hs : r.stepFlush 0 ⟨background, .reading r.front next r.flushBuffer.length entries⟩ =
          { r with inserted := r.inserted ++ [entries] }.setPhase 0
            ⟨background, .reading r.front next r.flushBuffer.length entries⟩ .inserted :=
        if_pos hstop
      rw [hs]
      refine ⟨.busy ⟨background, .inserted⟩ (hset _) trivial ?_, rfl, rfl⟩
      change r.kept.map _ = (r.inserted ++ [entries]).flatten ++ [] ++ r.writeBuffer.map _
      rw [hkept, List.flatten_append, List.flatten_singleton, List.append_nil,
        FlushCall.held_reading, hstop, List.drop_length, List.map_nil, List.append_nil]
    · have hlt : next < r.flushBuffer.length := Nat.lt_of_le_of_ne hnext hstop
      have hs : r.stepFlush 0 ⟨background, .reading r.front next r.flushBuffer.length entries⟩ =
          { r with
            storage := Function.update r.storage r.front
              (r.flushBuffer.set next r.flushBuffer[next].moved) }.setPhase 0
            ⟨background, .reading r.front next r.flushBuffer.length entries⟩
            (.reading r.front (next + 1) r.flushBuffer.length
              (entries ++ [r.flushBuffer[next].entry])) := by
        refine (if_neg hstop).trans ?_
        have hget : (r.storage r.front)[next]? = some r.flushBuffer[next] :=
          List.getElem?_eq_getElem hlt
        rw [read, hget]
        rfl
      rw [hs]
      obtain ⟨hfront, hback⟩ := r.update_front (r.flushBuffer.set next r.flushBuffer[next].moved)
      refine ⟨.busy ⟨background, .reading r.front (next + 1) r.flushBuffer.length
        (entries ++ [r.flushBuffer[next].entry])⟩ (hset _) ⟨rfl, ?_, hlt, ?_⟩ ?_, hback, rfl⟩
      · change _ = (Function.update r.storage r.front _ r.front).length
        rw [hfront, List.length_set]
      · rw [List.length_append, hlength]
        rfl
      · change r.kept.map _ = r.inserted.flatten ++ ((entries ++ [r.flushBuffer[next].entry]) ++
          ((Function.update r.storage r.front _ r.front).drop (next + 1)).map _) ++
            (Function.update r.storage r.front _ !r.front).map _
        rw [hfront, hback, hkept, FlushCall.held_reading, List.drop_set_of_lt (Nat.lt_succ_self next),
          List.drop_eq_getElem_cons hlt, List.map_cons, List.append_assoc entries]
        rfl
  | inserted =>
    obtain ⟨hfront, hback⟩ := r.update_front []
    refine ⟨.idle hfront (fun c hmem => ?_) ?_, hback, rfl⟩
    · change c ∈ r.flushes.eraseIdx 0 at hmem
      rw [herase] at hmem
      cases hmem
    · change r.kept.map _ = r.inserted.flatten ++
        (Function.update r.storage r.front [] (!r.front)).map _
      rw [hback, hkept]
      exact congrArg (· ++ _) (List.append_nil _)

theorem Accounted.advance (h : r.Accounted) {i : ℕ} (hstep : r.advance i = some s) :
    s.Accounted ∧ s.writeBuffer = r.writeBuffer ∧ s.misread = r.misread := by
  cases h with
  | idle hbuffer hempty hkept => exact advance_idle hbuffer hempty hkept hstep
  | busy c hflushes hsound hkept => exact advance_busy hflushes hsound hkept hstep

/-- A flush leaves the writers and what was kept alone. -/
theorem stepFlush_frame (r : InspectionRecorder D) (i : ℕ) (c : FlushCall D) :
    (r.stepFlush i c).kept = r.kept ∧ (r.stepFlush i c).writers = r.writers ∧
      (r.stepFlush i c).discards = r.discards ∧ (r.stepFlush i c).closing = r.closing ∧
        (r.stepFlush i c).hasGraph = r.hasGraph := by
  obtain ⟨background, phase⟩ := c
  cases phase with
  | swapped =>
    unfold stepFlush
    split_ifs
    all_goals exact ⟨rfl, rfl, rfl, rfl, rfl⟩
  | filled => exact ⟨rfl, rfl, rfl, rfl, rfl⟩
  | reading storage next stop entries =>
    simp only [stepFlush, read]
    split_ifs
    · exact ⟨rfl, rfl, rfl, rfl, rfl⟩
    · cases (r.storage storage)[next]? with
      | none => exact ⟨rfl, rfl, rfl, rfl, rfl⟩
      | some rec => exact ⟨rfl, rfl, rfl, rfl, rfl⟩
  | inserted => exact ⟨rfl, rfl, rfl, rfl, rfl⟩

theorem Invariant.advance (h : r.Invariant) {i : ℕ} (hstep : r.advance i = some s) :
    s.Invariant := by
  obtain ⟨haccounted, hwrite, hmisread⟩ := h.accounted.advance hstep
  obtain ⟨c, hc, rfl⟩ := Option.map_eq_some_iff.mp hstep
  obtain ⟨hkept, hwriters, hdiscards, hclosing, hgraph⟩ := r.stepFlush_frame i c
  refine ⟨haccounted, hdiscards.trans h.discards_eq, hmisread.trans h.misread_eq, ?_, ?_⟩
  · rw [hclosing, hwriters, hwrite]
    exact h.closed
  · rw [hgraph, hkept, hwriters]
    exact h.graphless

theorem Invariant.swap (h : r.Invariant) (hfits : r.Undisturbed) (hclosing : r.closing = false)
    (background : Bool) : (r.swap background).Invariant where
  accounted := h.accounted.swap hfits background
  discards_eq := h.discards_eq
  misread_eq := h.misread_eq
  closed hc := by
    rw [show (r.swap background).closing = r.closing from rfl, hclosing] at hc
    cases hc
  graphless := h.graphless

/-- The final flush finds what the others have left, and the writers add nothing to it. -/
theorem Invariant.destroy (h : r.Invariant) (hwriters : r.writers = []) (hflushes : r.flushes = []) :
    ({ r.swap false with closing := true } : InspectionRecorder D).Invariant := by
  have hbuffer : r.flushBuffer = [] := by
    cases h.accounted with
    | idle hbuffer => exact hbuffer
    | busy c hc =>
      rw [hflushes] at hc
      cases hc
  refine ⟨?_, h.discards_eq, h.misread_eq, fun _ => ⟨hwriters, ?_⟩, h.graphless⟩
  · have haccounted := h.accounted.swap (.inl hflushes) false
    cases haccounted with
    | idle hb hempty hkept => exact .idle hb hempty hkept
    | busy c hc hsound hkept => exact .busy c hc hsound hkept
  · exact swap_writeBuffer (r := r) false ▸ hbuffer

theorem Accounted.writeBuffer_nil (h : r.Accounted) (hkept : r.kept = []) :
    r.writeBuffer = [] := by
  cases h with
  | idle _ _ heq =>
    rw [hkept] at heq
    exact List.map_eq_nil_iff.mp (List.append_eq_nil_iff.mp heq.symm).2
  | busy c _ _ heq =>
    rw [hkept] at heq
    exact List.map_eq_nil_iff.mp (List.append_eq_nil_iff.mp heq.symm).2

/-- Without a knowledge graph nothing was accepted. -/
theorem Invariant.destroy_graphless (h : r.Invariant) (hgraph : r.hasGraph = false) :
    ({ r with closing := true } : InspectionRecorder D).Invariant := by
  obtain ⟨hkept, hwriters⟩ := h.graphless hgraph
  have hnone := h.accounted.writeBuffer_nil hkept
  refine ⟨?_, h.discards_eq, h.misread_eq, fun _ => ⟨hwriters, hnone⟩, h.graphless⟩
  cases h.accounted with
  | idle hb hempty hk => exact .idle hb hempty hk
  | busy c hc hsound hk => exact .busy c hc hsound hk

/-- A step for which there is room keeps the accounts. -/
theorem Invariant.step (h : r.Invariant) {op : RecorderOp D} (hfits : r.Fits op)
    (hstep : r.step op = some s) : s.Invariant := by
  cases op with
  | writeRecord detectionScore machineVerdict surfaceId timestampUs now =>
    obtain ⟨hclosing, hstep⟩ := Option.ite_none_left_eq_some.mp hstep
    by_cases haccepts : (r.enabled && r.hasGraph) = true
    · rw [if_pos haccepts] at hstep
      obtain rfl := Option.some.inj hstep
      have hgraph := (Bool.and_eq_true_iff.mp haccepts).2
      refine ⟨?_, h.discards_eq, h.misread_eq, fun hc => absurd hc hclosing, fun hno => ?_⟩
      · cases h.accounted with
        | idle hb hempty hk => exact .idle hb hempty hk
        | busy c hc hsound hk => exact .busy c hc hsound hk
      · rw [show r.hasGraph = false from hno] at hgraph
        cases hgraph
    · rw [if_neg haccepts] at hstep
      exact Option.some.inj hstep ▸ h
  | push i => exact h.push hfits hstep
  | setEnabled enabled =>
    obtain ⟨-, hstep⟩ := Option.ite_none_left_eq_some.mp hstep
    obtain rfl := Option.some.inj hstep
    refine ⟨?_, h.discards_eq, h.misread_eq, h.closed, h.graphless⟩
    cases h.accounted with
    | idle hb hempty hk => exact .idle hb hempty hk
    | busy c hc hsound hk => exact .busy c hc hsound hk
  | flush background =>
    obtain ⟨hguard, hstep⟩ := Option.ite_none_left_eq_some.mp hstep
    by_cases hgraph : r.hasGraph = true
    · rw [if_pos hgraph] at hstep
      have hclosing : r.closing = false := by
        rw [Bool.or_eq_true_iff, not_or] at hguard
        exact Bool.eq_false_iff.mpr hguard.1
      exact Option.some.inj hstep ▸ h.swap hfits hclosing background
    · rw [if_neg hgraph] at hstep
      exact Option.some.inj hstep ▸ h
  | advance i => exact h.advance hstep
  | destroy =>
    obtain ⟨hguard, hstep⟩ := Option.ite_none_left_eq_some.mp hstep
    simp only [Bool.or_eq_true_iff, not_or, Bool.not_eq_true', List.isEmpty_eq_false_iff,
      not_not] at hguard
    obtain ⟨⟨-, hwriters⟩, hflushes⟩ := hguard
    by_cases hgraph : r.hasGraph = true
    · rw [if_pos hgraph] at hstep
      exact Option.some.inj hstep ▸ h.destroy hwriters hflushes
    · rw [if_neg hgraph] at hstep
      exact Option.some.inj hstep ▸ h.destroy_graphless (Bool.eq_false_iff.mpr hgraph)

/-- While there is room for every record and no swap disturbs another flush, the recorder loses
nothing and writes everything once. -/
theorem faithful_while_fits {hasGraph : Bool} {actions : List (RecorderOp D)}
    (h : Guarded step Fits (create hasGraph) actions r) : r.Faithful := by
  suffices hinv : r.Invariant from hinv.faithful
  induction h with
  | start => exact invariant_create hasGraph
  | next _ hfits hstep ih => exact ih.step hfits hstep

/-- A record is written by a flush, and nothing is left for the destructor. -/
theorem faithful_while_fits_one :
    ∃ (actions : List (RecorderOp ℕ)) (r : InspectionRecorder ℕ),
      Guarded step Fits (create true) actions r ∧ r.Faithful := by
  have hrun : Guarded step Fits (create true)
      [.setEnabled true, .writeRecord 7 "NG" "s1" 0 100, .push 0, .flush false, .advance 0,
        .advance 0, .advance 0, .advance 0, .advance 0, .destroy, .advance 0] _ :=
    .of_run _ rfl
  exact ⟨_, _, hrun, faithful_while_fits hrun⟩

/-! ### A full buffer, and two flushes at a time -/

def recordAt (i : ℕ) : PendingRecord ℕ := ⟨i, "OK", "", i + 1⟩

def writeAt (i : ℕ) : List (RecorderOp ℕ) := [.writeRecord i "OK" "" (i + 1) 0, .push 0]

/-- A recorder that has only been written to. -/
structure Filled (r : InspectionRecorder ℕ) (n : ℕ) : Prop where
  writes : r.enabled = true ∧ r.hasGraph = true ∧ r.closing = false
  writers_eq : r.writers = []
  discards_eq : r.discards = []
  writeBuffer_eq : r.writeBuffer = (List.range n).map recordAt

/-- A write that reaches the buffer. -/
theorem Filled.write {r : InspectionRecorder ℕ} {n : ℕ} (h : r.Filled n) :
    run step r (writeAt n) = { r with writers := [recordAt n] }.push 0 := by
  obtain ⟨henabled, hgraph, hclosing⟩ := h.writes
  have hwrite : r.step (.writeRecord n "OK" "" (n + 1) 0) =
      some { r with writers := [recordAt n] } := by
    have hnow : (if (n : ℤ) + 1 = 0 then 0 else (n : ℤ) + 1) = n + 1 := if_neg (by omega)
    rw [step, hclosing, henabled, hgraph, h.writers_eq, hnow]
    rfl
  rw [writeAt, run_cons, hwrite, Option.bind_some, run_cons]
  exact Option.bind_fun_some _

theorem Filled.next {r : InspectionRecorder ℕ} {n : ℕ} (h : r.Filled n) (hn : n < kMaxBufferSize) :
    ∃ r', run step r (writeAt n) = some r' ∧ r'.Filled (n + 1) := by
  have hlength : ¬ kMaxBufferSize ≤ r.writeBuffer.length := by
    rw [h.writeBuffer_eq, List.length_map, List.length_range]
    exact Nat.not_le.mpr hn
  rw [h.write]
  refine ⟨_, congrArg some (if_neg hlength), h.writes, rfl, h.discards_eq, ?_⟩
  rw [List.range_succ, List.map_append, ← h.writeBuffer_eq]
  exact (r.update_back _).2

theorem filled {n : ℕ} (hn : n ≤ kMaxBufferSize) :
    ∃ r, run step (create true) (.setEnabled true :: (List.range n).flatMap writeAt) = some r ∧
      Filled r n := by
  induction n with
  | zero => exact ⟨_, rfl, ⟨rfl, rfl, rfl⟩, rfl, rfl, rfl⟩
  | succ n ih =>
    obtain ⟨r, hrun, hfilled⟩ := ih (by omega)
    obtain ⟨r', hnext, hfilled'⟩ := hfilled.next hn
    refine ⟨r', ?_, hfilled'⟩
    rw [List.range_succ, List.flatMap_append, List.flatMap_singleton, ← List.cons_append, run_append,
      hrun, Option.bind_some, hnext]

/-- A record more than the buffer has room for is given up, and not the oldest one; and a record is
written twice when its buffer is handed back to the writers while it is read. -/
theorem newest_discarded_and_written_twice :
    (∃ (actions : List (RecorderOp ℕ)) (r : InspectionRecorder ℕ),
      run step (create true) actions = some r ∧ ¬ r.Faithful ∧
        ∃ d, r.discards = [d] ∧ d.record = recordAt 512 ∧ d.pending.head? = some (recordAt 0)) ∧
    ∃ (actions : List (RecorderOp ℕ)) (r : InspectionRecorder ℕ),
      run step (create true) actions = some r ∧ ¬ r.Faithful ∧
        r.kept.length = 1 ∧ r.inserted.flatten.length = 2 := by
  constructor
  · obtain ⟨r, hrun, h⟩ := filled (Nat.le_refl kMaxBufferSize)
    have hlength : kMaxBufferSize ≤ r.writeBuffer.length := by
      rw [h.writeBuffer_eq, List.length_map, List.length_range]
    have hdiscard : run step r (writeAt 512) =
        some { r with
          writers := []
          discards := r.discards ++ [⟨r.writeBuffer, recordAt 512⟩] } :=
      h.write.trans (congrArg some (if_pos hlength))
    have hhead : r.writeBuffer.head? = some (recordAt 0) := by
      rw [h.writeBuffer_eq, List.head?_map, List.range_succ_eq_map]
      rfl
    refine ⟨_, _, (run_append ..).trans ((congrArg (Option.bind · _) hrun).trans hdiscard), ?_,
      _, congrArg (· ++ _) h.discards_eq, rfl, hhead⟩
    intro hfaithful
    have holdest := (hfaithful.oldest _ (List.mem_append_right _ (List.mem_singleton_self _))).2
    have hsame : recordAt 0 = recordAt 512 := Option.some.inj (hhead.symm.trans holdest)
    exact absurd hsame (by decide)
  · refine ⟨[.setEnabled true, .writeRecord 7 "NG" "s1" 0 100, .push 0, .flush false, .advance 0,
      .advance 0, .flush true, .advance 1, .advance 1, .advance 1, .advance 0, .destroy, .advance 0,
      .advance 0, .advance 0, .advance 0, .advance 0], _, rfl, ?_, rfl, rfl⟩
    intro hfaithful
    exact absurd (congrArg List.length (hfaithful.complete rfl rfl)) (by decide)

end InspectionRecorder

end SurfaceAi.Pipeline
