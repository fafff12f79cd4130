import SurfaceAi.Detection.BankOrigin
import SurfaceAi.Detection.EvolutionYaml
import SurfaceAi.Detection.VectorRetention

/-! The background loop of the coreset evolution and its triggers. A producer appends a frame,
asks whether the buffer is triggered and raises the flag in three steps; the loop waits for the
flag or for half a second, whichever comes first, and drains the buffer in any case. -/

namespace SurfaceAi.Detection

open Transition

/-- Where the loop is; the wait's outcome, which it does not look at, is kept along. -/
inductive LoopPhase (F : Type*) where
  | waiting (since : ℕ)
  | woken (notified : Bool)
  | cleared (notified : Bool)
  | processing (batch : List (EvolutionCandidate F))
  | ended

/-- A drained buffer, how the wait before has ended, and whether a notification was still under
way when the buffer before it was drained. -/
structure Drain (F : Type*) where
  buffer : CandidateBuffer F
  notified : Bool
  stale : Bool

/-- What is not empty was triggered when it was drained. -/
def Drain.InOrder {F : Type*} (d : Drain F) : Prop :=
  d.buffer.candidates ≠ [] → d.buffer.isTriggered = true

/-- Times are in milliseconds. Of the frames on their way, some have been appended and some have
found the buffer triggered. -/
structure UpdateLoop (F : Type*) where
  evolution : CoresetEvolution F
  phase : LoopPhase F
  notifyFlag : Bool := false
  stopRequested : Bool := false
  appended : ℕ := 0
  triggered : ℕ := 0
  clock : ℕ := 0
  swaps : List ℕ := []
  drained : List (Drain F) := []
  stale : Bool := false

inductive LoopOp (F : Type*) where
  | offer (offer : Offer F)
  | checkTrigger
  | notify
  | stop
  | elapse (ms : ℕ)
  | wake
  | clearFlag
  | drain
  | process (validating : ℕ)

/-- A rejected bank is swapped in, and out again after its validation. -/
def UpdateEnd.swapTimes (clock validating : ℕ) : UpdateEnd → List ℕ
  | .idle | .discarded => []
  | .installed _ => [clock]
  | .rejected => [clock, clock + validating]

theorem UpdateEnd.swapTimes_ordered (clock validating : ℕ) (last : UpdateEnd) :
    (last.swapTimes clock validating).Pairwise (· ≤ ·) ∧
      ∀ t ∈ last.swapTimes clock validating, clock ≤ t ∧ t ≤ clock + validating := by
  cases last with
  | idle => simp [swapTimes]
  | discarded => simp [swapTimes]
  | installed sampleCount => simp [swapTimes]
  | rejected => simp [swapTimes]

/-! ### A batch and the buffer -/

namespace CoresetEvolution

variable {F : Type*} [Zero F] [One F] [Add F] [Sub F] [Neg F] [Mul F] [Div F] [NatCast F] [LT F]
  [DecidableLT F] [LE F] [DecidableLE F] [DecidableEq F] [FloatMath F] (engine : NearestSearch F)
  (s : CoresetEvolution F)

/-- With another buffer and its limits. -/
def withBuffer (buffer : CandidateBuffer F) : CoresetEvolution F :=
  { s with cfg := { s.cfg with buffer := buffer.cfg }, buffer }

omit [Neg F] [LE F] [DecidableLE F] [DecidableEq F] in
theorem installUpdate_withBuffer (buffer : CandidateBuffer F) (newBank : FeatureBank F) :
    (s.withBuffer buffer).installUpdate engine newBank =
      (s.installUpdate engine newBank).map fun installed => installed.withBuffer buffer := by
  unfold installUpdate swapFeatureBank
  change (s.detectorBank.bind fun standby => (NormalityProfile.computeFast engine standby
    s.cfg.normalityK 100 s.cfg.tailRatioMax).bind _) = Option.map _ (s.detectorBank.bind _)
  cases s.detectorBank with
  | none => rfl
  | some standby =>
    change (NormalityProfile.computeFast engine standby s.cfg.normalityK 100
      s.cfg.tailRatioMax).bind _ = Option.map _ ((NormalityProfile.computeFast engine standby
        s.cfg.normalityK 100 s.cfg.tailRatioMax).bind _)
    cases NormalityProfile.computeFast engine standby s.cfg.normalityK 100 s.cfg.tailRatioMax with
    | none => rfl
    | some profile => rfl

/-- How a batch fares does not depend on what is buffered meanwhile. -/
theorem processBatch_withBuffer (buffer : CandidateBuffer F) (batch : List (EvolutionCandidate F)) :
    ((s.withBuffer buffer).processBatch engine batch).map Prod.fst =
      (s.processBatch engine batch).map Prod.fst := by
  rw [processBatch, processBatch]
  by_cases hempty : batch.isEmpty = true
  · rw [if_pos hempty, if_pos hempty]
    rfl
  rw [if_neg hempty, if_neg hempty]
  change Option.map _ (if meanNormalcy batch < s.activeProfile.evolutionGate then _ else _) = _
  by_cases hgate : meanNormalcy batch < s.activeProfile.evolutionGate
  · rw [if_pos hgate, if_pos hgate]
    rfl
  rw [if_neg hgate, if_neg hgate]
  change Option.map _ ((s.nextBank batch).bind _) = Option.map _ ((s.nextBank batch).bind _)
  cases s.nextBank batch with
  | none => rfl
  | some next =>
    cases next with
    | none => rfl
    | some newBank =>
      change Option.map _ (((s.withBuffer buffer).installUpdate engine newBank).bind _) =
        Option.map _ ((s.installUpdate engine newBank).bind _)
      rw [installUpdate_withBuffer]
      cases s.installUpdate engine newBank with
      | none => rfl
      | some installed =>
        have hfails : (installed.withBuffer buffer).selfValidationFails engine =
          installed.selfValidationFails engine := rfl
        change Option.map _ (Option.map _ ((installed.withBuffer buffer).selfValidationFails engine)) =
          Option.map _ (Option.map _ (installed.selfValidationFails engine))
        rw [hfails]
        cases installed.selfValidationFails engine with
        | none => rfl
        | some fails => cases fails <;> rfl

end CoresetEvolution

/-! ### The loop -/

namespace UpdateLoop

variable {F : Type}

/-- `Start`: there is no loop unless the evolution is enabled. -/
def start (settings : EvolutionSettings F) (bank : Option (FeatureBank F))
    (profile : NormalityProfile F) : UpdateLoop F where
  evolution := .create settings.toEvolutionConfig bank profile
  phase := if settings.enabled then .waiting 0 else .ended

section Step

variable [Zero F] [One F] [Add F] [Sub F] [Neg F] [Mul F] [Div F] [NatCast F] [LT F]
  [DecidableLT F] [LE F] [DecidableLE F] [DecidableEq F] [FloatMath F] (engine : NearestSearch F)

def step (l : UpdateLoop F) : LoopOp F → Option (UpdateLoop F)
  | .offer offer => (l.evolution.assessAndOffer offer).map fun evolution =>
      let added := evolution.buffer.candidates.length - l.evolution.buffer.candidates.length
      { l with evolution, appended := l.appended + added }
  | .checkTrigger =>
    if l.appended = 0 then none
    else some { l with
      appended := l.appended - 1
      triggered := if l.evolution.buffer.isTriggered then l.triggered + 1 else l.triggered }
  | .notify =>
    if l.triggered = 0 then none
    else some { l with triggered := l.triggered - 1, notifyFlag := true }
  | .stop => some { l with stopRequested := true }
  | .elapse ms => some { l with clock := l.clock + ms }
  | .wake =>
    match l.phase with
    | .waiting since =>
      if l.stopRequested then some { l with phase := .ended }
      else if l.notifyFlag ∨ since + 500 ≤ l.clock then
        some { l with phase := .woken l.notifyFlag }
      else none
    | _ => none
  | .clearFlag =>
    match l.phase with
    | .woken notified => some { l with notifyFlag := false, phase := .cleared notified }
    | _ => none
  | .drain =>
    match l.phase with
    | .cleared notified =>
      some { l with
        evolution := l.evolution.emptied
        phase := .processing l.evolution.buffer.candidates
        drained := l.drained ++ [⟨l.evolution.buffer, notified, l.stale⟩]
        stale := l.notifyFlag ∨ 0 < l.triggered }
    | _ => none
  | .process validating =>
    match l.phase with
    | .processing batch =>
      (l.evolution.processBatch engine batch).map fun (last, evolution) =>
        { l with
          evolution
          phase := .waiting (l.clock + validating)
          clock := l.clock + validating
          swaps := l.swaps ++ last.swapTimes l.clock validating }
    | _ => none

end Step

/-! ### What is asked of a run -/

/-- Every update was triggered, and swaps are an interval of seconds apart. -/
structure UpdatesProperly (interval : ℤ) (l : UpdateLoop F) : Prop where
  triggered : ∀ d ∈ l.drained, d.InOrder
  spaced : l.swaps.IsChain fun t t' : ℕ => (t : ℤ) + 1000 * interval ≤ t'

/-- A buffer that one frame triggers, unless it takes none, and no interval to keep. -/
structure NeedsNoWaiting (buffer : BufferConfig) (interval : ℤ) : Prop where
  trigger : buffer.triggerFrames ≤ 1 ∨ buffer.triggerPatches = 0 ∨ buffer.maxFrames = 0
  interval : interval ≤ 0 ∨ buffer.maxFrames = 0

/-- The count of patches does not wrap around. -/
def NoWrap (l : UpdateLoop F) : LoopOp F → Prop
  | .offer offer => l.evolution.buffer.totalPatches + offer.gridH * offer.gridW % 2 ^ 64 < 2 ^ 64
  | _ => True

/-! ### What a step does -/

section Effect

variable [Zero F] [One F] [Add F] [Sub F] [Neg F] [Mul F] [Div F] [NatCast F] [LT F]
  [DecidableLT F] [LE F] [DecidableLE F] [DecidableEq F] [FloatMath F] {engine : NearestSearch F}
  {l l' : UpdateLoop F}

inductive StepEffect (engine : NearestSearch F) (l l' : UpdateLoop F) : LoopOp F → Prop where
  | offered {offer : Offer F} {evolution : CoresetEvolution F} {appended : ℕ}
      (assessed : l.evolution.assessAndOffer offer = some evolution)
      (state : l' = { l with evolution, appended }) : StepEffect engine l l' (.offer offer)
  | checked {appended triggered : ℕ}
      (found : 0 < triggered → 0 < l.triggered ∨ l.evolution.buffer.isTriggered = true)
      (state : l' = { l with appended, triggered }) : StepEffect engine l l' .checkTrigger
  | notified {triggered : ℕ} (pending : 0 < l.triggered)
      (state : l' = { l with triggered, notifyFlag := true }) : StepEffect engine l l' .notify
  | stopped (state : l' = { l with stopRequested := true }) : StepEffect engine l l' .stop
  | elapsed {ms : ℕ} (state : l' = { l with clock := l.clock + ms }) :
      StepEffect engine l l' (.elapse ms)
  | ended (state : l' = { l with phase := .ended }) : StepEffect engine l l' .wake
  | woken (state : l' = { l with phase := .woken l.notifyFlag }) : StepEffect engine l l' .wake
  | cleared {notified : Bool} (phase : l.phase = .woken notified)
      (state : l' = { l with notifyFlag := false, phase := .cleared notified }) :
      StepEffect engine l l' .clearFlag
  | drained {notified : Bool} (phase : l.phase = .cleared notified)
      (state : l' = { l with
        evolution := l.evolution.emptied
        phase := .processing l.evolution.buffer.candidates
        drained := l.drained ++ [⟨l.evolution.buffer, notified, l.stale⟩]
        stale := l.notifyFlag ∨ 0 < l.triggered }) : StepEffect engine l l' .drain
  | processed {validating : ℕ} {batch : List (EvolutionCandidate F)} {last : UpdateEnd}
      {evolution : CoresetEvolution F} (phase : l.phase = .processing batch)
      (processed : l.evolution.processBatch engine batch = some (last, evolution))
      (state : l' = { l with
        evolution
        phase := .waiting (l.clock + validating)
        clock := l.clock + validating
        swaps := l.swaps ++ last.swapTimes l.clock validating }) :
      StepEffect engine l l' (.process validating)

theorem step_effect {op : LoopOp F} (h : l.step engine op = some l') :
    StepEffect engine l l' op := by
  cases op with
  | offer offer =>
    obtain ⟨evolution, hassessed, rfl⟩ := Option.map_eq_some_iff.mp h
    exact .offered hassessed rfl
  | checkTrigger =>
    obtain ⟨-, h⟩ := Option.ite_none_left_eq_some.mp h
    refine .checked (fun hpos => ?_) (Option.some.inj h).symm
    by_cases hbuffer : l.evolution.buffer.isTriggered = true
    · exact .inr hbuffer
    · rw [if_neg hbuffer] at hpos
      exact .inl hpos
  | notify =>
    obtain ⟨hpending, h⟩ := Option.ite_none_left_eq_some.mp h
    exact .notified (Nat.pos_of_ne_zero hpending) (Option.some.inj h).symm
  | stop => exact .stopped (Option.some.inj h).symm
  | elapse ms => exact .elapsed (Option.some.inj h).symm
  | wake =>
    rw [step] at h
    split at h
    · split_ifs at h
      · exact .ended (Option.some.inj h).symm
      · exact .woken (Option.some.inj h).symm
    · cases h
  | clearFlag =>
    rw [step] at h
    split at h
    · next notified hphase => exact .cleared hphase (Option.some.inj h).symm
    · cases h
  | drain =>
    rw [step] at h
    split at h
    · next notified hphase => exact .drained hphase (Option.some.inj h).symm
    · cases h
  | process validating =>
    rw [step] at h
    split at h
    · next batch hphase =>
      obtain ⟨⟨last, evolution⟩, hprocessed, rfl⟩ := Option.map_eq_some_iff.mp h
      exact .processed hphase hprocessed rfl
    · cases h

theorem step_wake_of_timeout {since : ℕ} (hphase : l.phase = .waiting since)
    (hrunning : l.stopRequested = false) (htimeout : since + 500 ≤ l.clock) :
    l.step engine .wake = some { l with phase := .woken l.notifyFlag } := by
  simp [step, hphase, hrunning, htimeout]

/-- Processing a batch leaves the buffer to the producers, and swaps nothing for no batch. -/
theorem processBatch_buffer {s s' : CoresetEvolution F} {batch : List (EvolutionCandidate F)}
    {last : UpdateEnd} (h : s.processBatch engine batch = some (last, s')) :
    s'.buffer = s.buffer ∧ (batch = [] → last = .idle) := by
  unfold CoresetEvolution.processBatch at h
  split_ifs at h with hbatch hgate
  · obtain ⟨rfl, rfl⟩ := Prod.mk.inj (Option.some.inj h)
    exact ⟨rfl, fun _ => rfl⟩
  · obtain ⟨rfl, rfl⟩ := Prod.mk.inj (Option.some.inj h)
    exact ⟨rfl, fun hnil => absurd (List.isEmpty_iff.mpr hnil) hbatch⟩
  · refine ⟨?_, fun hnil => absurd (List.isEmpty_iff.mpr hnil) hbatch⟩
    obtain ⟨next, -, h⟩ := Option.bind_eq_some_iff.mp h
    cases next with
    | none =>
      obtain ⟨rfl, rfl⟩ := Prod.mk.inj (Option.some.inj h)
      rfl
    | some newBank =>
      obtain ⟨installed, hinstall, h⟩ := Option.bind_eq_some_iff.mp h
      obtain ⟨fails, -, h⟩ := Option.map_eq_some_iff.mp h
      have hinstalled : installed.buffer = s.buffer := by
        obtain ⟨standby, -, hinstall⟩ := Option.bind_eq_some_iff.mp hinstall
        obtain ⟨profile, -, hinstall⟩ := Option.bind_eq_some_iff.mp hinstall
        obtain rfl := Option.some.inj hinstall
        rfl
      cases fails with
      | true =>
        obtain ⟨-, rfl⟩ := Prod.mk.inj h
        exact (CoresetEvolution.recordUpdate_buffer _).trans hinstalled
      | false =>
        obtain ⟨-, rfl⟩ := Prod.mk.inj h
        exact (CoresetEvolution.recordUpdate_buffer _).trans hinstalled

/-! ### Notifications -/

/-- Word of a triggered buffer that the loop has not acted on. -/
def Noticed (l : UpdateLoop F) : Prop :=
  l.notifyFlag = true ∨ 0 < l.triggered ∨ l.phase = .woken true ∨ l.phase = .cleared true

/-- Unless it is older than the last drain, word of a triggered buffer is still true. -/
structure Notifies (l : UpdateLoop F) : Prop where
  noticed : l.stale = false → l.Noticed → l.evolution.buffer.isTriggered = true
  drained : ∀ d ∈ l.drained, d.notified = true → d.stale = false → d.buffer.isTriggered = true

omit [Add F] [Neg F] [DecidableEq F] [FloatMath F] in
theorem isTriggered_of_offer {s s' : CoresetEvolution F} {offer : Offer F}
    (h : s.assessAndOffer offer = some s')
    (hwrap : s.buffer.totalPatches + offer.gridH * offer.gridW % 2 ^ 64 < 2 ^ 64)
    (htriggered : s.buffer.isTriggered = true) : s'.buffer.isTriggered = true := by
  rcases CoresetEvolution.append_of_offer h with heq | ⟨data, score, -, heq⟩
  · rw [heq]
    exact htriggered
  · rw [heq]
    exact CandidateBuffer.isTriggered_append hwrap htriggered

theorem Notifies.step {op : LoopOp F} (h : l.Notifies) (hwrap : l.NoWrap op)
    (hstep : l.step engine op = some l') : l'.Notifies := by
  cases step_effect hstep with
  | offered assessed state =>
    subst state
    exact ⟨fun hstale hnoticed =>
      isTriggered_of_offer assessed hwrap (h.noticed hstale hnoticed), h.drained⟩
  | @checked appended triggered found state =>
    subst state
    refine ⟨fun hstale hnoticed => ?_, h.drained⟩
    rcases hnoticed with hflag | hpos | hphase
    · exact h.noticed hstale (.inl hflag)
    · exact (found hpos).elim (fun hpos => h.noticed hstale (.inr (.inl hpos))) id
    · exact h.noticed hstale (.inr (.inr hphase))
  | notified pending state =>
    subst state
    exact ⟨fun hstale _ => h.noticed hstale (.inr (.inl pending)), h.drained⟩
  | stopped state => exact state ▸ ⟨h.noticed, h.drained⟩
  | elapsed state => exact state ▸ ⟨h.noticed, h.drained⟩
  | ended state =>
    subst state
    refine ⟨fun hstale hnoticed => ?_, h.drained⟩
    rcases hnoticed with hflag | hpos | hphase | hphase
    · exact h.noticed hstale (.inl hflag)
    · exact h.noticed hstale (.inr (.inl hpos))
    · cases hphase
    · cases hphase
  | woken state =>
    subst state
    refine ⟨fun hstale hnoticed => ?_, h.drained⟩
    rcases hnoticed with hflag | hpos | hphase | hphase
    · exact h.noticed hstale (.inl hflag)
    · exact h.noticed hstale (.inr (.inl hpos))
    · exact h.noticed hstale (.inl (LoopPhase.woken.inj hphase))
    · cases hphase
  | cleared phase state =>
    subst state
    refine ⟨fun hstale hnoticed => ?_, h.drained⟩
    rcases hnoticed with hflag | hpos | hphase | hphase
    · cases hflag
    · exact h.noticed hstale (.inr (.inl hpos))
    · cases hphase
    · obtain rfl := LoopPhase.cleared.inj hphase
      exact h.noticed hstale (.inr (.inr (.inl phase)))
  | @drained notified phase state =>
    subst state
    refine ⟨fun hstale hnoticed => ?_, fun d hd hnotified hstale => ?_⟩
    · -- nothing was on its way when the buffer was drained
      have hnone : ¬(l.notifyFlag = true ∨ 0 < l.triggered) := of_decide_eq_false hstale
      rcases hnoticed with hflag | hpos | hphase | hphase
      · exact absurd (.inl hflag) hnone
      · exact absurd (.inr hpos) hnone
      · cases hphase
      · cases hphase
    · rcases List.mem_append.mp hd with hd | hd
      · exact h.drained d hd hnotified hstale
      · obtain rfl := List.mem_singleton.mp hd
        obtain rfl : notified = true := hnotified
        exact h.noticed hstale (.inr (.inr (.inr phase)))
  | processed phase processed state =>
    subst state
    refine ⟨fun hstale hnoticed => ?_, h.drained⟩
    have hbuffer := (processBatch_buffer processed).1
    rcases hnoticed with hflag | hpos | hphase | hphase
    · exact hbuffer ▸ h.noticed hstale (.inl hflag)
    · exact hbuffer ▸ h.noticed hstale (.inr (.inl hpos))
    · cases hphase
    · cases hphase

/-! ### Swaps -/

/-- The swaps are in order, and none is in the future. -/
structure Clocked (l : UpdateLoop F) : Prop where
  ordered : l.swaps.Pairwise (· ≤ ·)
  past : ∀ t ∈ l.swaps, t ≤ l.clock

theorem Clocked.step {op : LoopOp F} (h : l.Clocked) (hstep : l.step engine op = some l') :
    l'.Clocked := by
  cases step_effect hstep with
  | offered assessed state => exact state ▸ ⟨h.ordered, h.past⟩
  | checked found state => exact state ▸ ⟨h.ordered, h.past⟩
  | notified pending state => exact state ▸ ⟨h.ordered, h.past⟩
  | stopped state => exact state ▸ ⟨h.ordered, h.past⟩
  | elapsed state =>
    exact state ▸ ⟨h.ordered, fun t ht => Nat.le_add_right_of_le (h.past t ht)⟩
  | ended state => exact state ▸ ⟨h.ordered, h.past⟩
  | woken state => exact state ▸ ⟨h.ordered, h.past⟩
  | cleared phase state => exact state ▸ ⟨h.ordered, h.past⟩
  | drained phase state => exact state ▸ ⟨h.ordered, h.past⟩
  | @processed validating batch last evolution phase processed state =>
    subst state
    obtain ⟨hordered, hwithin⟩ := last.swapTimes_ordered l.clock validating
    refine ⟨List.pairwise_append.mpr ⟨h.ordered, hordered, fun t ht t' ht' => ?_⟩, fun t ht => ?_⟩
    · exact Nat.le_trans (h.past t ht) (hwithin t' ht').1
    · rcases List.mem_append.mp ht with ht | ht
      · exact Nat.le_add_right_of_le (h.past t ht)
      · exact (hwithin t ht).2

/-! ### The buffer's limits -/

/-- Every buffer has the limits of the settings; one without room for a frame stays empty. -/
structure Limited (buffer : BufferConfig) (l : UpdateLoop F) : Prop where
  cfg : l.evolution.buffer.cfg = buffer
  drained : ∀ d ∈ l.drained, d.buffer.cfg = buffer

theorem Limited.step {buffer : BufferConfig} {op : LoopOp F} (h : l.Limited buffer)
    (hstep : l.step engine op = some l') : l'.Limited buffer := by
  cases step_effect hstep with
  | offered assessed state =>
    subst state
    refine ⟨?_, h.drained⟩
    rcases CoresetEvolution.append_of_offer assessed with heq | ⟨data, score, -, heq⟩
    · exact (congrArg CandidateBuffer.cfg heq).trans h.cfg
    · exact (congrArg CandidateBuffer.cfg heq).trans
        ((l.evolution.buffer.append_cfg _).trans h.cfg)
  | checked found state => exact state ▸ ⟨h.cfg, h.drained⟩
  | notified pending state => exact state ▸ ⟨h.cfg, h.drained⟩
  | stopped state => exact state ▸ ⟨h.cfg, h.drained⟩
  | elapsed state => exact state ▸ ⟨h.cfg, h.drained⟩
  | ended state => exact state ▸ ⟨h.cfg, h.drained⟩
  | woken state => exact state ▸ ⟨h.cfg, h.drained⟩
  | cleared phase state => exact state ▸ ⟨h.cfg, h.drained⟩
  | drained phase state =>
    subst state
    refine ⟨h.cfg, fun d hd => ?_⟩
    rcases List.mem_append.mp hd with hd | hd
    · exact h.drained d hd
    · obtain rfl := List.mem_singleton.mp hd
      exact h.cfg
  | processed phase processed state =>
    subst state
    exact ⟨(congrArg CandidateBuffer.cfg (processBatch_buffer processed).1).trans h.cfg, h.drained⟩

/-- No frame is ever buffered, drained or merged. -/
structure Vacant (l : UpdateLoop F) : Prop where
  noFrames : l.evolution.buffer.cfg.maxFrames = 0
  buffer : l.evolution.buffer.candidates = []
  batch : ∀ batch, l.phase = .processing batch → batch = []
  drained : ∀ d ∈ l.drained, d.buffer.candidates = []
  swaps : l.swaps = []

theorem Vacant.step {op : LoopOp F} (h : l.Vacant) (hstep : l.step engine op = some l') :
    l'.Vacant := by
  cases step_effect hstep with
  | offered assessed state =>
    subst state
    have hbuffer := (CoresetEvolution.append_of_offer assessed).elim id fun ⟨_, _, _, heq⟩ =>
      heq.trans (CandidateBuffer.append_of_no_frames _ h.noFrames _)
    exact ⟨(congrArg (fun b => b.cfg.maxFrames) hbuffer).trans h.noFrames,
      (congrArg CandidateBuffer.candidates hbuffer).trans h.buffer, h.batch, h.drained, h.swaps⟩
  | checked found state => exact state ▸ ⟨h.noFrames, h.buffer, h.batch, h.drained, h.swaps⟩
  | notified pending state => exact state ▸ ⟨h.noFrames, h.buffer, h.batch, h.drained, h.swaps⟩
  | stopped state => exact state ▸ ⟨h.noFrames, h.buffer, h.batch, h.drained, h.swaps⟩
  | elapsed state => exact state ▸ ⟨h.noFrames, h.buffer, h.batch, h.drained, h.swaps⟩
  | ended state =>
    subst state
    exact ⟨h.noFrames, h.buffer, fun _ hphase => (by cases hphase), h.drained, h.swaps⟩
  | woken state =>
    subst state
    exact ⟨h.noFrames, h.buffer, fun _ hphase => (by cases hphase), h.drained, h.swaps⟩
  | cleared phase state =>
    subst state
    exact ⟨h.noFrames, h.buffer, fun _ hphase => (by cases hphase), h.drained, h.swaps⟩
  | drained phase state =>
    subst state
    refine ⟨h.noFrames, rfl, fun batch hphase => ?_, fun d hd => ?_, h.swaps⟩
    · exact (LoopPhase.processing.inj hphase).symm.trans h.buffer
    · rcases List.mem_append.mp hd with hd | hd
      · exact h.drained d hd
      · obtain rfl := List.mem_singleton.mp hd
        exact h.buffer
  | processed phase processed state =>
    subst state
    obtain ⟨hbuffer, hidle⟩ := processBatch_buffer processed
    obtain rfl := hidle (h.batch _ phase)
    refine ⟨(congrArg (fun b => b.cfg.maxFrames) hbuffer).trans h.noFrames,
      (congrArg CandidateBuffer.candidates hbuffer).trans h.buffer,
      fun _ hphase => (by cases hphase), h.drained, ?_⟩
    exact (List.append_nil _).trans h.swaps

/-! ### Runs -/

variable {settings : EvolutionSettings F} {bank : Option (FeatureBank F)}
  {profile : NormalityProfile F}

theorem notifies_of_reachable
    (h : Reachable (step engine) NoWrap (start settings bank profile) l) : l.Notifies := by
  refine h.invariant (P := Notifies) ?_ fun l op l' hl hwrap hstep => hl.step hwrap hstep
  refine ⟨fun _ hnoticed => ?_, fun d hd => by cases hd⟩
  rcases hnoticed with hflag | hpos | hphase | hphase
  · cases hflag
  · cases hpos
  · rw [start] at hphase
    dsimp only at hphase
    split_ifs at hphase
  · rw [start] at hphase
    dsimp only at hphase
    split_ifs at hphase

/-- What is drained after a notification was triggered, unless the notification is an old one. -/
theorem inOrder_iff_of_reachable
    (h : Reachable (step engine) NoWrap (start settings bank profile) l) :
    (∀ d ∈ l.drained, d.InOrder) ↔
      ∀ d ∈ l.drained, d.notified = false ∨ d.stale = true → d.InOrder := by
  refine ⟨fun hall d hd _ => hall d hd, fun hsome d hd => ?_⟩
  by_cases hlate : d.notified = false ∨ d.stale = true
  · exact hsome d hd hlate
  · obtain ⟨hnotified, hstale⟩ := not_or.mp hlate
    intro _
    exact (notifies_of_reachable h).drained d hd (Bool.eq_true_of_not_eq_false hnotified)
      (Bool.eq_false_iff.mpr hstale)

theorem clocked_of_run {ops : List (LoopOp F)}
    (hrun : run (step engine) (start settings bank profile) ops = some l) : l.Clocked :=
  run_induction _ (P := fun _ l => l.Clocked) ⟨.nil, fun t ht => by cases ht⟩
    (fun _ _ _ _ hl hstep => hl.step hstep) hrun

theorem limited_of_run {ops : List (LoopOp F)}
    (hrun : run (step engine) (start settings bank profile) ops = some l) :
    l.Limited settings.buffer :=
  run_induction _ (P := fun _ l => l.Limited settings.buffer) ⟨rfl, fun d hd => by cases hd⟩
    (fun _ _ _ _ hl hstep => hl.step hstep) hrun

theorem vacant_of_run {ops : List (LoopOp F)} (hframes : settings.buffer.maxFrames = 0)
    (hrun : run (step engine) (start settings bank profile) ops = some l) : l.Vacant := by
  refine run_induction _ (P := fun _ l => l.Vacant) ⟨hframes, rfl, fun batch hphase => ?_,
    fun d hd => (by cases hd), rfl⟩ (fun _ _ _ _ hl hstep => hl.step hstep) hrun
  rw [start] at hphase
  dsimp only at hphase
  split_ifs at hphase

theorem updatesProperly_of_run {ops : List (LoopOp F)} {interval : ℤ}
    (h : NeedsNoWaiting settings.buffer interval)
    (hrun : run (step engine) (start settings bank profile) ops = some l) :
    l.UpdatesProperly interval := by
  by_cases hframes : settings.buffer.maxFrames = 0
  · have hvacant := vacant_of_run hframes hrun
    exact ⟨fun d hd hne => absurd (hvacant.drained d hd) hne, hvacant.swaps ▸ .nil⟩
  constructor
  · intro d hd hne
    have hcfg := (limited_of_run hrun).drained d hd
    have hpos : 0 < d.buffer.candidates.length := List.length_pos_iff.mpr hne
    rw [CandidateBuffer.isTriggered, decide_eq_true_eq, hcfg]
    rcases h.trigger with htrigger | htrigger | hnone
    · exact .inl (Nat.le_trans htrigger hpos)
    · exact .inr (htrigger ▸ Nat.zero_le _)
    · exact absurd hnone hframes
  · have hinterval : interval ≤ 0 := h.interval.resolve_right hframes
    have hordered := (clocked_of_run hrun).ordered
    refine hordered.isChain.imp fun t t' ht => ?_
    omega

end Effect

/-! ### Impatient runs -/

section Impatient

variable (b : BufferConfig) (interval : ℤ)

/-- Settings under which no update passes its validation. -/
def impatientSettings : EvolutionSettings ℚ where
  toEvolutionConfig := { lineConfig with buffer := b, validationDegradationThreshold := 2 }
  minUpdateInterval := interval

def impatientStart : UpdateLoop ℚ := start (impatientSettings b interval) (some lineBank) lineProfile

/-- A novel frame whose grid is empty, which no limit on patches keeps out. -/
def emptyGridFrame : Offer ℚ := { lineOffer 1 with gridH := 0, gridW := 0 }

def emptyGridCandidate : EvolutionCandidate ℚ := ⟨[1], 0, 0, 1, 1⟩

/-- One frame has been drained after a timeout. -/
def impatientDrained : UpdateLoop ℚ :=
  { impatientStart b interval with
    phase := .processing [emptyGridCandidate]
    appended := 1
    clock := 500
    drained := [⟨⟨b, [emptyGridCandidate], 0⟩, false, false⟩] }

variable {b interval}

theorem offer_emptyGridFrame (hframes : 0 < b.maxFrames) :
    (impatientStart b interval).evolution.assessAndOffer emptyGridFrame =
      some { (impatientStart b interval).evolution with
        buffer := ⟨b, [emptyGridCandidate], 0⟩ } := by
  let s := (impatientStart b interval).evolution
  have hconsensus : multiSignalConsensusCheck (computeNormalcy [4] lineProfile (1 / 10))
      emptyGridFrame lineProfile.consensusThreshold = true := by decide +kernel
  have hadmits : s.Admits emptyGridFrame [1] :=
    ⟨rfl, rfl, by decide, by decide, by decide, hconsensus⟩
  have hnovel : (s.noveltyOf emptyGridFrame).isNovel = true := by
    change (checkNovelty [4] lineProfile (6 / 10)).isNovel = true
    decide +kernel
  have huncovered : ¬95 / 100 ≤ (checkNovelty [4] lineProfile (6 / 10)).coverageRatio := by
    decide +kernel
  have hnote : s.noteSaturation (s.noveltyOf emptyGridFrame) = (false, s) := if_neg huncovered
  have hscore : (computeNormalcy [4] lineProfile (1 / 10)).normalcyScore = 1 := by decide +kernel
  have hcandidate : s.candidateOf emptyGridFrame [1] = emptyGridCandidate :=
    congrArg (fun score => (⟨[1], 0, 0, 1, score⟩ : EvolutionCandidate ℚ)) hscore
  have happend : (s.buffer.append emptyGridCandidate).2 = ⟨b, [emptyGridCandidate], 0⟩ := by
    have hroom : ¬(b.maxFrames ≤ 0 ∨ b.maxPatches < 0) := by omega
    exact congrArg Prod.snd (if_neg hroom)
  change s.assessAndOffer emptyGridFrame = _
  rw [CoresetEvolution.assessAndOffer_of_admits hadmits, if_neg (not_not.mpr hnovel), hnote,
    if_neg Bool.false_ne_true, hcandidate, happend]

theorem run_impatientDrained (hframes : 0 < b.maxFrames) :
    run (step flatL2) (impatientStart b interval)
      [.offer emptyGridFrame, .elapse 500, .wake, .clearFlag, .drain] =
        some (impatientDrained b interval) := by
  let offered : UpdateLoop ℚ :=
    { impatientStart b interval with
      evolution := { (impatientStart b interval).evolution with
        buffer := ⟨b, [emptyGridCandidate], 0⟩ }
      appended := 1 }
  have hoffer : (impatientStart b interval).step flatL2 (.offer emptyGridFrame) =
      some offered := by
    rw [step, offer_emptyGridFrame hframes]
    rfl
  have hwake : { offered with clock := 500 }.step flatL2 .wake =
      some { offered with clock := 500, phase := .woken false } :=
    step_wake_of_timeout rfl rfl (Nat.le_refl 500)
  have helapse : offered.step flatL2 (.elapse 500) = some { offered with clock := 500 } := rfl
  rw [run_cons, hoffer, Option.bind_some, run_cons, helapse, Option.bind_some, run_cons, hwake]
  rfl

/-- The bank of the drained frame is swapped in and out at the same time. -/
theorem step_impatientDrained (b : BufferConfig) (interval : ℤ) :
    ∃ l, (impatientDrained b interval).step flatL2 (.process 0) = some l ∧
      l.swaps = [500, 500] := by
  have hend : ((impatientDrained b interval).evolution.processBatch flatL2
      [emptyGridCandidate]).map Prod.fst = some .rejected := by
    have hlimits := CoresetEvolution.processBatch_withBuffer flatL2
      (impatientStart {} 5).evolution ⟨b, [], 0⟩ [emptyGridCandidate]
    refine Eq.trans hlimits ?_
    decide +kernel
  obtain ⟨⟨last, evolution⟩, hprocessed, hlast⟩ := Option.map_eq_some_iff.mp hend
  obtain rfl : last = .rejected := hlast
  have hstep : (impatientDrained b interval).step flatL2 (.process 0) =
      ((impatientDrained b interval).evolution.processBatch flatL2 [emptyGridCandidate]).map
        fun (last, evolution) => { impatientDrained b interval with
          evolution
          phase := .waiting 500
          clock := 500
          swaps := last.swapTimes 500 0 } := rfl
  rw [hstep, hprocessed]
  exact ⟨_, rfl, rfl⟩

/-- Where some update has to wait, some run does not wait. -/
theorem exists_run_not_updatesProperly (h : ¬NeedsNoWaiting b interval) :
    ∃ ops l, run (step flatL2) (impatientStart b interval) ops = some l ∧
      ¬l.UpdatesProperly interval := by
  by_cases htrigger : b.triggerFrames ≤ 1 ∨ b.triggerPatches = 0 ∨ b.maxFrames = 0
  · have hinterval : ¬(interval ≤ 0 ∨ b.maxFrames = 0) := fun hinterval => h ⟨htrigger, hinterval⟩
    obtain ⟨hpos, hframes⟩ := not_or.mp hinterval
    obtain ⟨l, hstep, hswaps⟩ := step_impatientDrained b interval
    refine ⟨[.offer emptyGridFrame, .elapse 500, .wake, .clearFlag, .drain] ++ [.process 0], l,
      ?_, fun hproper => ?_⟩
    · rw [run_append, run_impatientDrained (Nat.pos_of_ne_zero hframes), Option.bind_some,
        run_cons, hstep]
      rfl
    · have hspaced := hproper.spaced
      rw [hswaps, List.isChain_cons_cons] at hspaced
      omega
  · obtain ⟨hmany, hpatches, hframes⟩ : ¬b.triggerFrames ≤ 1 ∧ ¬b.triggerPatches = 0 ∧
        ¬b.maxFrames = 0 := by simpa [not_or] using htrigger
    refine ⟨_, impatientDrained b interval, run_impatientDrained (Nat.pos_of_ne_zero hframes),
      fun hproper => ?_⟩
    have htriggered := hproper.triggered _ List.mem_cons_self (List.cons_ne_nil _ _)
    rw [CandidateBuffer.isTriggered, decide_eq_true_eq] at htriggered
    change b.triggerFrames ≤ 1 ∨ b.triggerPatches ≤ 0 at htriggered
    omega

end Impatient

/-! ### When updates are triggered and spaced -/

section Settings

variable [Zero F] [One F] [Add F] [Sub F] [Neg F] [Mul F] [Div F] [NatCast F] [LT F]
  [DecidableLT F] [LE F] [DecidableLE F] [DecidableEq F] [FloatMath F]

/-- All runs update properly where nothing has to be waited for, and only there. A single run
triggers its updates just when those after a timeout or an old notification are. -/
theorem updates_triggered_and_spaced (settings : EvolutionSettings F) (engine : NearestSearch F) :
    (NeedsNoWaiting settings.buffer settings.minUpdateInterval → ∀ bank profile ops l,
      run (step engine) (start settings bank profile) ops = some l →
        l.UpdatesProperly settings.minUpdateInterval) ∧
    (¬NeedsNoWaiting settings.buffer settings.minUpdateInterval →
      ∃ settings' : EvolutionSettings ℚ, settings'.buffer = settings.buffer ∧
        settings'.minUpdateInterval = settings.minUpdateInterval ∧ ∃ bank profile ops l,
          run (step flatL2) (start settings' bank profile) ops = some l ∧
            ¬l.UpdatesProperly settings'.minUpdateInterval) ∧
    ∀ bank profile l, Reachable (step engine) NoWrap (start settings bank profile) l →
      ((∀ d ∈ l.drained, d.InOrder) ↔
        ∀ d ∈ l.drained, d.notified = false ∨ d.stale = true → d.InOrder) := by
  refine ⟨fun hneeds bank profile ops l hrun => updatesProperly_of_run hneeds hrun,
    fun hneeds => ?_, fun bank profile l hreach => inOrder_iff_of_reachable hreach⟩
  obtain ⟨ops, l, hrun, hproper⟩ := exists_run_not_updatesProperly hneeds
  exact ⟨impatientSettings settings.buffer settings.minUpdateInterval, rfl, rfl, some lineBank,
    lineProfile, ops, l, hrun, hproper⟩

end Settings

/-- The default limits and interval. -/
def lineSettings : EvolutionSettings ℚ := { toEvolutionConfig := lineConfig }

/-- Two frames, each drained after half a second. -/
def hastyOps : List (LoopOp ℚ) :=
  [.offer (lineOffer 1), .checkTrigger, .elapse 500, .wake, .clearFlag, .drain, .process 0,
    .offer (lineOffer (3 / 2)), .checkTrigger, .elapse 500, .wake, .clearFlag, .drain, .process 0]

/-- One frame triggers an update, and updates need no interval. -/
def eagerSettings : EvolutionSettings ℚ :=
  { lineSettings with buffer := { triggerFrames := 1 }, minUpdateInterval := 0 }

theorem updates_triggered_and_spaced_eager : ∃ l,
    run (step flatL2) (start eagerSettings (some lineBank) lineProfile) hastyOps = some l ∧
      l.drained.length = 2 ∧ l.UpdatesProperly 0 := by
  have hsome : (run (step flatL2) (start eagerSettings (some lineBank) lineProfile)
      hastyOps).map (fun l => l.drained.length) = some 2 := by decide +kernel
  obtain ⟨l, hrun, hl⟩ := Option.map_eq_some_iff.mp hsome
  have hneeds : NeedsNoWaiting eagerSettings.buffer eagerSettings.minUpdateInterval :=
    ⟨.inl (Nat.le_refl 1), .inl (Int.le_refl 0)⟩
  exact ⟨l, hrun, hl,
    (updates_triggered_and_spaced eagerSettings flatL2).1 hneeds _ _ _ l hrun⟩

/-- Two single frames are merged half a second apart. -/
theorem hasty_updates : ∃ l,
    run (step flatL2) (start lineSettings (some lineBank) lineProfile) hastyOps = some l ∧
      l.drained.map (fun d => (d.buffer.candidates.length, d.buffer.isTriggered)) =
        [(1, false), (1, false)] ∧
      l.swaps = [500, 1000] ∧ ¬l.UpdatesProperly lineSettings.minUpdateInterval := by
  have hsome : (run (step flatL2) (start lineSettings (some lineBank) lineProfile)
      hastyOps).map (fun l =>
        (l.drained.map fun d => (d.buffer.candidates.length, d.buffer.isTriggered), l.swaps)) =
      some ([(1, false), (1, false)], [500, 1000]) := by decide +kernel
  obtain ⟨l, hrun, hl⟩ := Option.map_eq_some_iff.mp hsome
  obtain ⟨hdrained, hswaps⟩ := Prod.mk.inj hl
  refine ⟨l, hrun, hdrained, hswaps, fun hproper => ?_⟩
  have hspaced := hproper.spaced
  rw [hswaps, List.isChain_cons_cons] at hspaced
  exact absurd hspaced.1 (by decide)

end UpdateLoop

end SurfaceAi.Detection
