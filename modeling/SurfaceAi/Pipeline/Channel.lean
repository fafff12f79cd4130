import Mathlib.Algebra.Order.Group.Multiset
import SurfaceAi.Pipeline.Movement

/-! Single slots that bypass the queues. A slot is written when a frame enters a stretch of
the pipeline and read before the frame leaves it; it is paired with the stretch while at
most one frame is inside and the slot holds that frame's data. -/

namespace SurfaceAi.Pipeline

/-! ### Stretches of the pipeline -/

/-- Through how many stages a frame has been processed. -/
def Place.processed : Place → ℕ
  | .submitting => 0
  | .queued i | .taken i | .exporting i => i
  | .finished i | .delivering i => i + 1

/-- How many stages have published their result for a frame. -/
def Place.published : Place → ℕ
  | .submitting => 0
  | .queued i | .taken i | .exporting i | .finished i => i
  | .delivering i => i + 1

/-- Through how many stages a frame is past the point where its image is taken. -/
def Place.imageDone : Place → ℕ
  | .submitting => 0
  | .queued i | .taken i => i
  | .exporting i | .finished i | .delivering i => i + 1

namespace LineConfig

variable (cfg : LineConfig) (t : StageType)

/-- One of the first `n` stages is of the type. -/
def seen (n : ℕ) : Bool := (cfg.stages.take n).any fun c => c.stageType = t

/-- Every export stage is the first one, and comes after a stage of the type. -/
def FeedsExport : Prop :=
  ∀ i, cfg.typeAt i = some .exportStage → cfg.seen t i = true ∧ cfg.seen .exportStage i = false

variable {cfg t}

theorem seen_succ (i : ℕ) :
    cfg.seen t (i + 1) = (cfg.seen t i || decide (cfg.typeAt i = some t)) := by
  rw [seen, List.take_add_one, List.any_append, seen, typeAt]
  cases cfg.stages[i]? <;> simp

theorem seen_of_succ {i : ℕ} (h : cfg.typeAt i ≠ some t) (hi : cfg.seen t (i + 1) = true) :
    cfg.seen t i = true := by
  rwa [seen_succ, decide_eq_false h, Bool.or_false] at hi

theorem feedsExport_iff : cfg.FeedsExport t ↔
    ∀ i < cfg.stages.length, cfg.typeAt i = some .exportStage →
      cfg.seen t i = true ∧ cfg.seen .exportStage i = false := by
  refine ⟨fun h i _ => h i, fun h i hi => h i ?_ hi⟩
  obtain ⟨c, hc, -⟩ := Option.map_eq_some_iff.mp hi
  exact (List.getElem?_eq_some_iff.mp hc).1

instance : Decidable (cfg.FeedsExport t) := decidable_of_iff _ feedsExport_iff.symm

theorem seen_mono {m n : ℕ} (h : m ≤ n) (hm : cfg.seen t m = true) : cfg.seen t n = true := by
  obtain ⟨c, hc, hct⟩ := List.any_eq_true.mp hm
  exact List.any_eq_true.mpr ⟨c, (List.take_prefix_take_left h).subset hc, hct⟩

end LineConfig

/-- From the stages of type `t` on, as counted by `since`, up to the export stage, as counted
by `til`. -/
def stretch (cfg : LineConfig) (t : StageType) (since til : Place → ℕ) (p : Place) : Bool :=
  cfg.seen t (since p) && !cfg.seen .exportStage (til p)

section Stretch

variable {cfg : LineConfig} {t : StageType} {since til : Place → ℕ} {p q : Place}

theorem stretch_eq_true : stretch cfg t since til p = true ↔
    cfg.seen t (since p) = true ∧ cfg.seen .exportStage (til p) = false := by
  rw [stretch, Bool.and_eq_true, Bool.not_eq_true']

/-- A move that does not pass a stage of type `t` does not lead into the stretch. -/
theorem stretch_of_move (hsince : cfg.seen t (since q) = true → cfg.seen t (since p) = true)
    (htil : til p ≤ til q) (h : stretch cfg t since til q = true) :
    stretch cfg t since til p = true := by
  obtain ⟨hq, hexport⟩ := stretch_eq_true.mp h
  refine stretch_eq_true.mpr ⟨hsince hq, ?_⟩
  rw [Bool.eq_false_iff] at hexport ⊢
  exact fun hp => hexport (LineConfig.seen_mono htil hp)

theorem stretch_eq_false (h : cfg.seen .exportStage (til p) = true) :
    stretch cfg t since til p = false := by
  rw [stretch, h, Bool.not_true, Bool.and_false]

end Stretch

/-- Waiting in a queue or for one does not lead into the stretch. -/
structure Steady (R : Place → Bool) : Prop where
  submit : R .submitting = false
  enter : R (.queued 0) = R .submitting
  dequeue : ∀ i, R (.taken i) = R (.queued i)
  deliver : ∀ i, R (.queued (i + 1)) = R (.delivering i)

/-! ### The frames inside -/

section Inside

variable {α : Type} (R : Place → Bool)

def inside (p : Place) (frame : α) : Multiset α := if R p then {frame} else 0

/-- The frames in the stretch. -/
def PipelineState.framesIn (s : PipelineState α) : Multiset α := s.total (inside R)

/-- Apart from a frame at `p` there is none in the stretch. -/
def PipelineState.AloneAt (s : PipelineState α) (p : Place) (frame : α) : Prop :=
  s.framesIn R = inside R p frame

variable {R} {s s' : PipelineState α} {frame : α}

/-- The frame a worker holds is in the stretch if its place is. -/
theorem mem_framesIn {w : ℕ} {worker : Worker α} {p : Place} (h : s.workers[w]? = some worker)
    (hload : worker.load = some (p, frame)) (hp : R p = true) : frame ∈ s.framesIn R := by
  obtain ⟨r, hr, -⟩ := exists_total_setWorker (inside R) h
  have hweight : worker.weight (inside R) = {frame} := by
    rw [Worker.weight, hload, Option.elim_some, inside, if_pos hp]
  rw [PipelineState.framesIn, hr, hweight]
  exact Multiset.mem_add.mpr (Or.inr (Multiset.mem_singleton_self frame))

theorem framesIn_of_control (h : ∀ {M : Type} [AddCommMonoid M] (φ : Place → α → M),
    s'.total φ = s.total φ) : s'.framesIn R = s.framesIn R := h _

/-- A move inside the stretch, out of it or past it brings no frame in. -/
theorem framesIn_le_of_moved {src dst : Option Place} (h : Moved s s' frame src dst)
    (hdst : ∀ q, dst = some q → R q = true → ∃ p, src = some p ∧ R p = true) :
    s'.framesIn R ≤ s.framesIn R := by
  obtain ⟨r, hr, hr'⟩ := h.split (inside R)
  rw [PipelineState.framesIn, PipelineState.framesIn, hr, hr']
  refine add_le_add le_rfl ?_
  cases dst with
  | none => exact Multiset.zero_le _
  | some q =>
    by_cases hq : R q = true
    · obtain ⟨p, rfl, hp⟩ := hdst q rfl hq
      rw [weightAt_some, weightAt_some, inside, inside, if_pos hp, if_pos hq]
    · rw [weightAt_some, inside, if_neg hq]
      exact Multiset.zero_le _

/-- When a frame that is alone moves, only it can be inside. -/
theorem framesIn_of_aloneAt {p : Place} {dst : Option Place} (h : Moved s s' frame (some p) dst)
    (halone : s.AloneAt R p frame) : s'.framesIn R = weightAt (inside R) dst frame := by
  obtain ⟨r, hr, hr'⟩ := h.split (inside R)
  rw [PipelineState.AloneAt, PipelineState.framesIn, hr, weightAt_some, add_eq_right] at halone
  rw [PipelineState.framesIn, hr', halone, zero_add]

end Inside

/-! ### Slots -/

/-- At most one frame is inside, and its data are in the slot. -/
def Paired {α : Type} (R : Place → Bool) (slot : Slots α → Option α) (s : PipelineState α) :
    Prop :=
  ∀ frame ∈ s.framesIn R, s.framesIn R = {frame} ∧ slot s.slots = some frame

section Paired

variable {α : Type} {R : Place → Bool} {slot : Slots α → Option α} {s s' : PipelineState α}
  {frame : α}

theorem paired_start (cfg : LineConfig) : Paired R slot (cfg.start : PipelineState α) := by
  intro frame hframe
  rw [PipelineState.framesIn, total_start] at hframe
  exact absurd hframe (Multiset.notMem_zero frame)

/-- Frames leave while the slot is kept. -/
theorem Paired.of_le (h : Paired R slot s) (hle : s'.framesIn R ≤ s.framesIn R)
    (hslot : slot s'.slots = slot s.slots) : Paired R slot s' := by
  intro frame hframe
  obtain ⟨hall, hdata⟩ := h frame (Multiset.mem_of_le hle hframe)
  refine ⟨?_, hslot.trans hdata⟩
  rw [hall] at hle
  exact le_antisymm hle (Multiset.singleton_le.mpr hframe)

/-- A move that does not pass a stage of type `t`. -/
theorem Paired.of_moved {cfg : LineConfig} {t : StageType} {since til : Place → ℕ} {p : Place}
    {dst : Option Place} (h : Paired (stretch cfg t since til) slot s)
    (hmoved : Moved s s' frame (some p) dst) (hslot : slot s'.slots = slot s.slots)
    (hmove : ∀ q, dst = some q →
      (cfg.seen t (since q) = true → cfg.seen t (since p) = true) ∧ til p ≤ til q) :
    Paired (stretch cfg t since til) slot s' := by
  refine h.of_le (framesIn_le_of_moved hmoved fun q hq hin => ⟨p, rfl, ?_⟩) hslot
  exact stretch_of_move (hmove q hq).1 (hmove q hq).2 hin

/-- A frame is stored when no other one is inside. -/
theorem paired_of_stored {p : Place} {dst : Option Place} (h : Moved s s' frame (some p) dst)
    (halone : s.AloneAt R p frame) (hslot : slot s'.slots = some frame) : Paired R slot s' := by
  intro g hg
  have hframes := framesIn_of_aloneAt h halone
  cases dst with
  | none => simp [hframes] at hg
  | some q =>
    rw [weightAt_some, inside] at hframes
    split_ifs at hframes with hq
    · rw [hframes] at hg
      obtain rfl := Multiset.mem_singleton.mp hg
      exact ⟨hframes, hslot⟩
    · simp [hframes] at hg

/-- A frame leaves with its data. -/
theorem Paired.of_taken (h : Paired R slot s) {p : Place} {dst : Option Place}
    (hmoved : Moved s s' frame (some p) dst) (hp : R p = true)
    (hdst : ∀ q, dst = some q → R q = false) : Paired R slot s' := by
  have hinside : inside R p frame = {frame} := if_pos hp
  obtain ⟨r, hr, -⟩ := hmoved.split (inside R)
  have hmem : frame ∈ s.framesIn R := by
    rw [PipelineState.framesIn, hr, weightAt_some, hinside]
    exact Multiset.mem_add.mpr (Or.inr (Multiset.mem_singleton_self frame))
  have halone : s.AloneAt R p frame := (h frame hmem).1.trans hinside.symm
  have hframes : s'.framesIn R = 0 := by
    rw [framesIn_of_aloneAt hmoved halone]
    cases dst with
    | none => rfl
    | some q => rw [weightAt_some, inside, hdst q rfl, if_neg Bool.false_ne_true]
  intro g hg
  rw [hframes] at hg
  exact absurd hg (Multiset.notMem_zero g)

end Paired

/-- The steps that may write or empty a slot. -/
def Action.usesSlots {α : Type} : Action α → Bool
  | .takeImage _ | .process _ (.passed _) | .publish _ => true
  | _ => false

theorem usesSlots_of_isControl {α : Type} {a : Action α} (h : a.isControl = true) :
    a.usesSlots = false := by
  cases a <;> first | rfl | cases h

/-- A step that uses no slot keeps every pairing. -/
theorem Paired.of_step {α : Type} {R : Place → Bool} {slot : Slots α → Option α}
    {cfg : LineConfig} {s s' : PipelineState α} {a : Action α} (h : Paired R slot s)
    (hR : Steady R) (hs : step cfg s a = some s') (ha : a.usesSlots = false) :
    Paired R slot s' := by
  cases step_effect hs with
  | submit moved slots =>
    refine h.of_le (framesIn_le_of_moved moved ?_) (congrArg slot slots)
    rintro _ ⟨⟩ hin
    rw [hR.submit] at hin
    cases hin
  | enter moved slots =>
    refine h.of_le (framesIn_le_of_moved moved ?_) (congrArg slot slots)
    rintro _ ⟨⟩ hin
    exact ⟨_, rfl, hR.enter ▸ hin⟩
  | dequeue moved slots =>
    refine h.of_le (framesIn_le_of_moved moved ?_) (congrArg slot slots)
    rintro _ ⟨⟩ hin
    exact ⟨_, rfl, hR.dequeue _ ▸ hin⟩
  | deliver moved slots =>
    refine h.of_le (framesIn_le_of_moved moved ?_) (congrArg slot slots)
    rintro _ ⟨⟩ hin
    exact ⟨_, rfl, hR.deliver _ ▸ hin⟩
  | failed moved slots => exact h.of_le (framesIn_le_of_moved moved nofun) (congrArg slot slots)
  | abandon moved slots => exact h.of_le (framesIn_le_of_moved moved nofun) (congrArg slot slots)
  | forceDrain moved slots =>
    exact h.of_le (framesIn_le_of_moved moved nofun) (congrArg slot slots)
  | control _ total _ _ _ slots =>
    exact h.of_le (framesIn_of_control total).le (congrArg slot slots)
  | _ => cases ha

end SurfaceAi.Pipeline
