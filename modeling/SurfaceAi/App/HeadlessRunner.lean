import Mathlib.Algebra.Order.Field.Basic
import Mathlib.Algebra.Order.Ring.Rat
import Mathlib.Tactic.FieldSimp
import Mathlib.Tactic.Linarith
import Mathlib.Tactic.Positivity
import Mathlib.Tactic.Ring
import SurfaceAi.Library.KeyedFold

/-! The headless run over the frames of a dataset: how the verdicts of the frames are counted, what
becomes of a product with several frames, the exit code, and the metrics against the expected
verdicts. What the pipeline makes of a frame is a parameter: the text read back from its result. -/

namespace SurfaceAi.App

/-- A frame of the run. Entries of an image directory have no surface; a frame whose image cannot
be imported has no verdict. -/
structure Frame where
  surfaceId : Option String
  expectedVerdict : String
  verdict : Option String
  deriving DecidableEq, Repr

/-- The worse verdict stays. -/
def worsen (sv verdict : String) : String :=
  if verdict = "NG" ∨ (sv ≠ "NG" ∧ verdict = "WARN") ∨
      (sv ≠ "NG" ∧ sv ≠ "WARN" ∧ verdict = "UNCERTAIN") ∨ (sv = "" ∧ verdict = "OK") then verdict
  else sv

/-- What `process_entries` keeps while it goes through the frames. -/
structure Tallies where
  ok : ℕ
  ng : ℕ
  warn : ℕ
  uncertain : ℕ
  failed : ℕ
  surfaceVerdict : AList fun _ : String => String
  surfaceFrameCount : AList fun _ : String => ℕ
  records : List (String × String)

namespace Tallies

def start : Tallies := ⟨0, 0, 0, 0, 0, ∅, ∅, []⟩

def countVerdict (t : Tallies) (verdict : String) : Tallies :=
  if verdict = "OK" then { t with ok := t.ok + 1 }
  else if verdict = "NG" then { t with ng := t.ng + 1 }
  else if verdict = "WARN" then { t with warn := t.warn + 1 }
  else if verdict = "UNCERTAIN" then { t with uncertain := t.uncertain + 1 }
  else { t with failed := t.failed + 1 }

def trackSurface (t : Tallies) (surfaceId verdict : String) : Tallies :=
  { t with
    surfaceVerdict := t.surfaceVerdict.insert surfaceId
      (worsen ((t.surfaceVerdict.lookup surfaceId).getD "") verdict)
    surfaceFrameCount := t.surfaceFrameCount.insert surfaceId
      ((t.surfaceFrameCount.lookup surfaceId).getD 0 + 1) }

/-- One turn of the loop; a frame that cannot be imported has no record. -/
def processEntry (t : Tallies) (frame : Frame) : Tallies :=
  match frame.verdict with
  | none => { t with failed := t.failed + 1 }
  | some verdict =>
    let recorded := { t with records := t.records ++ [(verdict, frame.expectedVerdict)] }
    let t := recorded.countVerdict verdict
    match frame.surfaceId with
    | some surfaceId => t.trackSurface surfaceId verdict
    | none => t

def processEntries (frames : List Frame) : Tallies := frames.foldl processEntry start

def total (t : Tallies) : ℕ := t.ok + t.ng + t.warn + t.uncertain + t.failed

def exitCode (t : Tallies) : ℕ := if t.ng > 0 ∨ t.failed > 0 then 1 else 0

end Tallies

/-- The verdict of a product, from those of its frames in whatever order. -/
def worst (verdicts : List String) : String :=
  if "NG" ∈ verdicts then "NG"
  else if "WARN" ∈ verdicts then "WARN"
  else if "UNCERTAIN" ∈ verdicts then "UNCERTAIN"
  else if "OK" ∈ verdicts then "OK"
  else ""

/-- The verdicts of the frames of a surface. -/
def verdictsOf (frames : List Frame) (surfaceId : String) : List String :=
  (frames.filter fun f => f.surfaceId = some surfaceId).filterMap Frame.verdict

/-- A verdict that the run counts as one. -/
def Known (verdict : String) : Prop :=
  verdict = "OK" ∨ verdict = "NG" ∨ verdict = "WARN" ∨ verdict = "UNCERTAIN"

instance (verdict : String) : Decidable (Known verdict) := inferInstanceAs (Decidable (_ ∨ _))

theorem worst_concat (verdicts : List String) (verdict : String) :
    worst (verdicts ++ [verdict]) = worsen (worst verdicts) verdict := by
  unfold worst worsen
  simp only [List.mem_append, List.mem_singleton]
  split_ifs <;> grind

theorem foldl_worsen (verdicts : List String) : verdicts.foldl worsen "" = worst verdicts := by
  induction verdicts using List.reverseRecOn with
  | nil => rfl
  | append_singleton verdicts verdict ih =>
    rw [List.foldl_append, ih, worst_concat]
    rfl

/-! ### What a run keeps -/

/-- The frames that were imported and are of a surface. -/
def tracked (frames : List Frame) : List (String × String) :=
  frames.filterMap fun f => f.surfaceId.bind fun surfaceId => f.verdict.map fun v => (surfaceId, v)

namespace Tallies

variable (t : Tallies) (frame : Frame) (frames : List Frame)

/-- The counters that a frame changes, and nothing else of them. -/
theorem processEntry_counts : (t.processEntry frame).total = t.total + 1 ∧
    (t.processEntry frame).ng = t.ng + (if frame.verdict = some "NG" then 1 else 0) ∧
    (t.processEntry frame).failed = t.failed +
      (if ∃ v, frame.verdict = some v ∧ Known v then 0 else 1) := by
  obtain ⟨surfaceId, expected, verdict⟩ := frame
  cases verdict with
  | none => simp [processEntry, total, Nat.add_assoc]
  | some verdict =>
    have hcount : ∀ t : Tallies, (t.countVerdict verdict).total = t.total + 1 ∧
        (t.countVerdict verdict).ng = t.ng + (if verdict = "NG" then 1 else 0) ∧
        (t.countVerdict verdict).failed = t.failed + (if Known verdict then 0 else 1) := by
      intro t
      unfold countVerdict Known
      split_ifs <;> simp_all [total] <;> omega
    have hrecorded := hcount { t with records := t.records ++ [(verdict, expected)] }
    cases surfaceId with
    | none => simpa [processEntry, total] using hrecorded
    | some surfaceId => simpa [processEntry, trackSurface, total] using hrecorded

theorem countVerdict_surfaces (verdict : String) :
    (t.countVerdict verdict).surfaceVerdict = t.surfaceVerdict ∧
      (t.countVerdict verdict).surfaceFrameCount = t.surfaceFrameCount := by
  unfold countVerdict
  split_ifs <;> exact ⟨rfl, rfl⟩

/-- The products of a run are folds over its tracked frames. -/
theorem foldl_surfaces : (frames.foldl processEntry t).surfaceVerdict =
      KeyedFold.fold Prod.fst (fun o p => worsen (o.getD "") p.2) (tracked frames)
        t.surfaceVerdict ∧
    (frames.foldl processEntry t).surfaceFrameCount =
      KeyedFold.fold Prod.fst (fun o _ => o.getD 0 + 1) (tracked frames) t.surfaceFrameCount := by
  induction frames generalizing t with
  | nil => exact ⟨rfl, rfl⟩
  | cons frame frames ih =>
    rw [List.foldl_cons]
    obtain ⟨hverdict, hcount⟩ := ih (t.processEntry frame)
    rw [hverdict, hcount]
    obtain ⟨surfaceId, expected, verdict⟩ := frame
    cases verdict with
    | none => cases surfaceId <;> exact ⟨rfl, rfl⟩
    | some verdict =>
      have hsame := countVerdict_surfaces
        { t with records := t.records ++ [(verdict, expected)] } verdict
      cases surfaceId with
      | none =>
        show KeyedFold.fold _ _ (tracked frames) (countVerdict _ verdict).surfaceVerdict = _ ∧
          KeyedFold.fold _ _ (tracked frames) (countVerdict _ verdict).surfaceFrameCount = _
        rw [hsame.1, hsame.2]
        exact ⟨rfl, rfl⟩
      | some surfaceId =>
        show KeyedFold.fold _ _ (tracked frames)
            ((countVerdict _ verdict).trackSurface surfaceId verdict).surfaceVerdict = _ ∧
          KeyedFold.fold _ _ (tracked frames)
            ((countVerdict _ verdict).trackSurface surfaceId verdict).surfaceFrameCount = _
        rw [trackSurface, hsame.1, hsame.2]
        exact ⟨rfl, rfl⟩

end Tallies

theorem tracked_filter (frames : List Frame) (surfaceId : String) :
    ((tracked frames).filter fun p => p.1 = surfaceId).map Prod.snd =
      verdictsOf frames surfaceId := by
  induction frames with
  | nil => rfl
  | cons frame frames ih =>
    obtain ⟨surface, expected, verdict⟩ := frame
    unfold tracked verdictsOf at *
    cases surface with
    | none => simpa using ih
    | some id =>
      by_cases hid : id = surfaceId
      · subst hid
        cases verdict with
        | none => simpa using ih
        | some verdict => simpa using ih
      · cases verdict with
        | none => simpa [hid] using ih
        | some verdict => simpa [hid] using ih

theorem value_worsen {α : Type*} (f : α → String) (l : List α) (sv : Option String) :
    (KeyedFold.value (fun o p => worsen (o.getD "") (f p)) l sv).getD "" =
      (l.map f).foldl worsen (sv.getD "") := by
  induction l generalizing sv with
  | nil => rfl
  | cons p l ih => exact ih _

/-! ### The summary -/

/-- The verdict of a frame that counts as neither a failure nor a rejection. -/
def Passes (frame : Frame) : Prop :=
  ∃ v, frame.verdict = some v ∧ (v = "OK" ∨ v = "WARN" ∨ v = "UNCERTAIN")

/-- What a run prints and returns about its frames. -/
structure Summarises (frames : List Frame) (t : Tallies) : Prop where
  total : t.total = frames.length
  exitCode : t.exitCode = 0 ↔ ∀ frame ∈ frames, Passes frame
  verdicts : ∀ surfaceId, t.surfaceVerdict.lookup surfaceId =
    if verdictsOf frames surfaceId = [] then none else some (worst (verdictsOf frames surfaceId))
  frameCounts : ∀ surfaceId, t.surfaceFrameCount.lookup surfaceId =
    if verdictsOf frames surfaceId = [] then none
    else some (verdictsOf frames surfaceId).length

namespace Tallies

theorem foldl_counts (frames : List Frame) (t : Tallies) :
    (frames.foldl processEntry t).total = t.total + frames.length ∧
      ((frames.foldl processEntry t).ng + (frames.foldl processEntry t).failed = 0 ↔
        t.ng + t.failed = 0 ∧ ∀ frame ∈ frames, Passes frame) := by
  induction frames generalizing t with
  | nil => simp
  | cons frame frames ih =>
    obtain ⟨htotal, hzero⟩ := ih (t.processEntry frame)
    obtain ⟨hstep, hng, hfailed⟩ := t.processEntry_counts frame
    constructor
    · rw [List.foldl_cons, htotal, hstep, List.length_cons]
      omega
    · rw [List.foldl_cons, hzero, List.forall_mem_cons, ← and_assoc]
      refine and_congr_left fun _ => ?_
      rw [hng, hfailed]
      have hpasses : Passes frame ↔ frame.verdict ≠ some "NG" ∧
          ∃ v, frame.verdict = some v ∧ Known v := by
        unfold Passes Known
        cases frame.verdict with
        | none => simp
        | some v => simp; grind
      rw [hpasses]
      split_ifs with hn hk hk
      · simp [hn]
      · simp [hn]
      · simp [hn, hk]
      · simp [hk]

theorem lookup_value {V : Type*} {f : Option V → String × String → V} (frames : List Frame)
    (surfaceId : String) (z : V) :
    (KeyedFold.fold Prod.fst f (tracked frames) ∅).lookup surfaceId =
      if verdictsOf frames surfaceId = [] then none
      else some ((KeyedFold.value f ((tracked frames).filter fun p => p.1 = surfaceId) none).getD
        z) := by
  have hempty : verdictsOf frames surfaceId = [] ↔
      ((tracked frames).filter fun p => p.1 = surfaceId) = [] := by
    rw [← tracked_filter, List.map_eq_nil_iff]
  rw [KeyedFold.lookup_fold, AList.lookup_empty]
  split_ifs with h
  · rw [hempty.mp h]
    rfl
  · have hsome := (KeyedFold.value_isSome (f := f)
      (l := (tracked frames).filter fun p => p.1 = surfaceId) none).mpr
        (.inr fun hc => h (hempty.mpr hc))
    obtain ⟨v, hv⟩ := Option.isSome_iff_exists.mp hsome
    rw [hv]
    rfl

/-- Every frame is counted once; a product has the worst verdict of its frames, in whatever order
they come; and the run exits with success exactly if each frame was imported and read back as
neither a rejection nor an unknown verdict. -/
theorem processEntries_summarises (frames : List Frame) :
    Summarises frames (processEntries frames) := by
  obtain ⟨htotal, hzero⟩ := foldl_counts frames start
  obtain ⟨hverdict, hcount⟩ := foldl_surfaces start frames
  constructor
  · rw [processEntries, htotal]
    exact Nat.zero_add _
  · have hstart : start.ng + start.failed = 0 := rfl
    have hexit : (processEntries frames).exitCode = 0 ↔
        (processEntries frames).ng + (processEntries frames).failed = 0 := by
      unfold exitCode
      split_ifs with h
      · exact iff_of_false (by decide) (by omega)
      · exact iff_of_true rfl (by omega)
    rw [hexit, processEntries, hzero, and_iff_right hstart]
  · intro surfaceId
    rw [processEntries, hverdict, start, lookup_value frames surfaceId "", value_worsen Prod.snd,
      tracked_filter, Option.getD_none, foldl_worsen]
  · intro surfaceId
    have hlength : ∀ (l : List (String × String)) (o : Option ℕ),
        (KeyedFold.value (fun o _ => o.getD 0 + 1) l o).getD 0 = o.getD 0 + l.length := by
      intro l
      induction l with
      | nil => simp
      | cons p l ih =>
        intro o
        rw [KeyedFold.value_cons, ih, Option.getD_some, List.length_cons]
        omega
    rw [processEntries, hcount, start, lookup_value frames surfaceId 0, hlength, Option.getD_none,
      Nat.zero_add, ← tracked_filter, List.length_map]

end Tallies

/-! ### Metrics -/

/-- The confusion matrix. A frame that is expected to be OK or NG counts as labelled; WARN and
UNCERTAIN are in no cell. -/
structure MetricsCounts where
  tp : ℕ
  fp : ℕ
  tn : ℕ
  fn : ℕ
  actualOk : ℕ
  actualNg : ℕ
  deriving DecidableEq, Repr

namespace MetricsCounts

def start : MetricsCounts := ⟨0, 0, 0, 0, 0, 0⟩

def add (m : MetricsCounts) (predicted expected : String) : MetricsCounts :=
  if expected = "OK" then
    let m := { m with actualOk := m.actualOk + 1 }
    if predicted = "OK" then { m with tp := m.tp + 1 }
    else if predicted = "NG" then { m with fn := m.fn + 1 }
    else m
  else if expected = "NG" then
    let m := { m with actualNg := m.actualNg + 1 }
    if predicted = "NG" then { m with tn := m.tn + 1 }
    else if predicted = "OK" then { m with fp := m.fp + 1 }
    else m
  else m

/-- The records of a run with an expected verdict. -/
def ofRecords (records : List (String × String)) : MetricsCounts :=
  records.foldl (fun m r => if r.2 = "" then m else m.add r.1 r.2) start

variable (F : Type*) [Field F] [LinearOrder F] (m : MetricsCounts)

def precision : F := if m.tp + m.fp > 0 then (m.tp : F) / ((m.tp + m.fp : ℕ) : F) else 0

def recallRate : F := if m.tp + m.fn > 0 then (m.tp : F) / ((m.tp + m.fn : ℕ) : F) else 0

def f1 : F :=
  let p := m.precision F
  let r := m.recallRate F
  if p + r > 0 then ((2 : ℕ) : F) * p * r / (p + r) else 0

def accuracy : F :=
  if m.tp + m.tn + m.fp + m.fn > 0 then
    ((m.tp + m.tn : ℕ) : F) / ((m.tp + m.tn + m.fp + m.fn : ℕ) : F)
  else 0

/-- The cells of a row are of frames with the row's expected verdict. -/
def Bounded (m : MetricsCounts) : Prop :=
  m.tp + m.fn ≤ m.actualOk ∧ m.fp + m.tn ≤ m.actualNg

theorem bounded_ofRecords (records : List (String × String)) : (ofRecords records).Bounded := by
  unfold ofRecords
  induction records using List.reverseRecOn with
  | nil => exact ⟨Nat.le_refl _, Nat.le_refl _⟩
  | append_singleton records r ih =>
    rw [List.foldl_append]
    revert ih
    generalize records.foldl _ start = m
    intro ih
    unfold Bounded at *
    simp only [List.foldl_cons, List.foldl_nil, add]
    split_ifs <;> grind

section Ratios

variable {F} {m} [IsStrictOrderedRing F]

theorem ratio_mem {a b : ℕ} (hle : a ≤ b) (hpos : b > 0) :
    (0 : F) ≤ (a : F) / (b : F) ∧ (a : F) / (b : F) ≤ 1 := by
  have hb : (0 : F) < (b : F) := Nat.cast_pos.mpr hpos
  constructor
  · positivity
  · rw [div_le_one hb]
    exact Nat.cast_le.mpr hle

theorem precision_mem : 0 ≤ m.precision F ∧ m.precision F ≤ 1 := by
  unfold precision
  split_ifs with h
  · exact ratio_mem (Nat.le_add_right ..) h
  · exact ⟨le_refl _, zero_le_one⟩

theorem recall_mem : 0 ≤ m.recallRate F ∧ m.recallRate F ≤ 1 := by
  unfold recallRate
  split_ifs with h
  · exact ratio_mem (Nat.le_add_right ..) h
  · exact ⟨le_refl _, zero_le_one⟩

theorem accuracy_mem : 0 ≤ m.accuracy F ∧ m.accuracy F ≤ 1 := by
  unfold accuracy
  split_ifs with h
  · exact ratio_mem (by omega) h
  · exact ⟨le_refl _, zero_le_one⟩

/-- A harmonic mean of nonnegative numbers stands between them. -/
theorem harmonic_mem {p r : F} (hp : 0 ≤ p) (hr : 0 ≤ r) (hpos : p + r > 0) :
    min p r ≤ 2 * p * r / (p + r) ∧ 2 * p * r / (p + r) ≤ max p r := by
  constructor
  · rw [le_div_iff₀ hpos]
    rcases le_total p r with h | h
    · rw [min_eq_left h]
      nlinarith
    · rw [min_eq_right h]
      nlinarith
  · rw [div_le_iff₀ hpos]
    rcases le_total p r with h | h
    · rw [max_eq_right h]
      nlinarith
    · rw [max_eq_left h]
      nlinarith

theorem f1_mem : min (m.precision F) (m.recallRate F) ≤ m.f1 F ∧
    m.f1 F ≤ max (m.precision F) (m.recallRate F) := by
  unfold f1
  dsimp only
  split_ifs with h
  · exact harmonic_mem precision_mem.1 recall_mem.1 h
  · have hp := precision_mem (F := F) (m := m)
    have hr := recall_mem (F := F) (m := m)
    have hle : m.precision F ≤ 0 := by linarith [not_lt.mp h]
    exact ⟨min_le_of_left_le hle, le_max_of_le_left hp.1⟩

/-- The score in terms of the cells. -/
theorem f1_mul : m.f1 F * ((2 * m.tp + m.fp + m.fn : ℕ) : F) = ((2 * m.tp : ℕ) : F) := by
  by_cases htp : m.tp = 0
  · have hp : m.precision F = 0 := by simp [precision, htp]
    have hr : m.recallRate F = 0 := by simp [recallRate, htp]
    simp [f1, hp, hr, htp]
  · have hpos : (0 : F) < (m.tp : F) := Nat.cast_pos.mpr (Nat.pos_of_ne_zero htp)
    have hp : m.precision F = (m.tp : F) / ((m.tp : F) + (m.fp : F)) := by
      rw [precision, if_pos (by omega), Nat.cast_add]
    have hr : m.recallRate F = (m.tp : F) / ((m.tp : F) + (m.fn : F)) := by
      rw [recallRate, if_pos (by omega), Nat.cast_add]
    have hfp : (0 : F) ≤ (m.fp : F) := Nat.cast_nonneg _
    have hfn : (0 : F) ≤ (m.fn : F) := Nat.cast_nonneg _
    have hsum : m.precision F + m.recallRate F > 0 := by
      rw [hp, hr]
      positivity
    simp only [f1, if_pos hsum]
    rw [div_mul_eq_mul_div, div_eq_iff (ne_of_gt hsum), hp, hr]
    push_cast
    field_simp
    ring

end Ratios

/-- What the metrics of a run satisfy, whatever its records. -/
structure Meaningful (F : Type*) [Field F] [LinearOrder F] (m : MetricsCounts) : Prop where
  bounded : m.Bounded
  precision : 0 ≤ m.precision F ∧ m.precision F ≤ 1
  recallRate : 0 ≤ m.recallRate F ∧ m.recallRate F ≤ 1
  accuracy : 0 ≤ m.accuracy F ∧ m.accuracy F ≤ 1
  f1 : min (m.precision F) (m.recallRate F) ≤ m.f1 F ∧ m.f1 F ≤ max (m.precision F) (m.recallRate F)
  f1_cells : m.f1 F * ((2 * m.tp + m.fp + m.fn : ℕ) : F) = ((2 * m.tp : ℕ) : F)

end MetricsCounts

end SurfaceAi.App
