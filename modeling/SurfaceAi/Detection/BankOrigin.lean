import SurfaceAi.Detection.EvolutionRun
import Mathlib.Data.List.TakeWhile

/-! Where the vectors of the banks come from. An update selects from the standby bank and the
drained frames, so a condition that all of these meet is met by every bank. -/

namespace SurfaceAi.Detection

open Embeddings Rows

variable {F : Type*}

/-! ### What an update selects from -/

/-- A bank of the dimension whose vectors all meet a condition. -/
def BankIn (d : ℕ) (P : List F → Prop) (bank : Option (FeatureBank F)) : Prop :=
  ∀ b ∈ bank, b.dim = d ∧ ∀ v ∈ b.vectors, P v

section Select

variable {d : ℕ} {P : List F → Prop}

theorem BankIn.allRows {bank : FeatureBank F} (h : BankIn d P (some bank)) :
    AllRows d P bank.extractAllVectors := by
  obtain ⟨hdim, hvectors⟩ := h bank rfl
  exact .flatten fun v hv => ⟨hdim ▸ bank.length_vectors v hv, hvectors v hv⟩

theorem bankIn_of_rows {bank : FeatureBank F} {data : List F} (h : AllRows d P data) (hd : 0 < d)
    (hbank : bank.dim = d ∧ ∀ v ∈ bank.vectors, v ∈ Rows.rows d (data.length / d) data) :
    BankIn d P (some bank) := by
  intro b hb
  obtain rfl := Option.some.inj hb
  exact ⟨hbank.1, fun v hv => h.rows hd (Nat.div_mul_le_self _ _) v (hbank.2 v hv)⟩

theorem prefilter_allRows {vectors prefiltered : List F} {target : ℕ} (h : AllRows d P vectors)
    (hpre : prefilterCandidates vectors d target = some prefiltered) :
    0 < d ∧ AllRows d P prefiltered := by
  unfold prefilterCandidates at hpre
  dsimp only at hpre
  split_ifs at hpre with hd
  · obtain rfl := Option.some.inj hpre
    exact ⟨Nat.pos_of_ne_zero hd, h⟩
  · obtain rfl := Option.some.inj hpre
    have hpos : 0 < d := Nat.pos_of_ne_zero hd
    refine ⟨hpos, ?_⟩
    rw [List.flatMap_def]
    refine .flatten fun b hb => ?_
    obtain ⟨i, hi, rfl⟩ := List.mem_map.mp hb
    have hlt := List.mem_takeWhile_imp hi
    rw [decide_eq_true_eq] at hlt
    have hle := Nat.le_trans (Nat.mul_le_mul_right d (Nat.succ_le_of_lt hlt))
      (Nat.div_mul_le_self _ _)
    exact ⟨Rows.length_row hle, h.row hpos hle⟩

variable [Zero F] [One F] [Add F] [Sub F] [Neg F] [Mul F] [LT F] [DecidableLT F] [DecidableEq F]

theorem selectVectors_allRows (cfg : EvolutionConfig F) {existing : List F}
    (h : AllRows d P existing) (hd : 0 < d) : AllRows d P (selectVectors cfg d existing) := by
  unfold selectVectors
  dsimp only
  split_ifs
  · exact h
  · split
    next bank hbank =>
      exact (bankIn_of_rows h hd (FeatureBank.buildWithGreedyCoreset_mem hbank).2).allRows
    next => exact .nil

theorem updatedBank_in {cfg : EvolutionConfig F} {standby bank : FeatureBank F}
    {prefiltered : List F} (hd : 0 < d) (hstandby : BankIn d P (some standby))
    (hpre : AllRows d P prefiltered) (h : updatedBank cfg d standby prefiltered = some bank) :
    BankIn d P (some bank) := by
  have hselected := selectVectors_allRows cfg (hstandby.allRows.append hpre) hd
  unfold updatedBank at h
  dsimp only at h
  split_ifs at h
  generalize hbuild : FeatureBank.buildFromEmbeddings _ _ _ = built at h
  cases built with
  | error e => cases h
  | ok bank' =>
    obtain rfl := Option.some.inj h
    exact bankIn_of_rows hselected hd (FeatureBank.buildFromEmbeddings_mem hbuild)

end Select

/-! ### The buffer and the banks -/

namespace CoresetEvolution

variable {d : ℕ} {P : List F → Prop}

/-- A buffered frame of the dimension whose patches all meet a condition. -/
def CandidateIn (d : ℕ) (P : List F → Prop) (c : EvolutionCandidate F) : Prop :=
  c.Fits d ∧ ∀ v ∈ c.patches, P v

/-- A frame's data, cut off behind its grid. -/
theorem candidateIn_take {gridH gridW : ℕ} {data : List F}
    (hcovers : gridH * gridW * d ≤ data.length) (haddressable : data.length < 2 ^ 64)
    (hP : ∀ v ∈ Rows.rows d (gridH * gridW) data, P v) (score : F) :
    CandidateIn d P ⟨data.take (gridH * gridW * d), gridH, gridW, d, score⟩ := by
  have hlength : (data.take (gridH * gridW * d)).length = gridH * gridW * d := by
    rw [List.length_take, Nat.min_eq_left hcovers]
  refine ⟨⟨rfl, Nat.le_of_eq hlength.symm, ?_⟩, fun v hv => hP v ?_⟩
  · show (data.take (gridH * gridW * d)).length < 2 ^ 64
    rw [hlength]
    exact Nat.lt_of_le_of_lt hcovers haddressable
  · rw [← Rows.rows_take]
    exact hv

theorem flatten_allRows {batch : List (EvolutionCandidate F)} {vectors : List F}
    (h : ∀ c ∈ batch, CandidateIn d P c) (hflat : flatten batch = some vectors) :
    AllRows d P vectors := by
  obtain ⟨vectors', hflat', hlength, hrows⟩ := flatten_of_fits fun c hc => (h c hc).1
  obtain rfl := Option.some.inj (hflat.symm.trans hflat')
  refine .of_rows hlength fun v hv => ?_
  rw [hrows, batchPatches] at hv
  obtain ⟨c, hc, hv⟩ := List.mem_flatMap.mp hv
  exact (h c hc).2 v hv

/-- The banks of the evolution, and the dimension of its profile, which is zero once the profile
is that of an empty bank. -/
structure BanksIn (d : ℕ) (P : List F → Prop) (s : CoresetEvolution F) : Prop where
  profileDim : s.activeProfile.dim = d ∨ s.activeProfile.dim = 0
  detectorBank : BankIn d P s.detectorBank
  standbyBank : BankIn d P s.standbyBank

theorem BanksIn.mono {Q : List F → Prop} {s : CoresetEvolution F} (h : BanksIn d P s)
    (hPQ : ∀ v, P v → Q v) : BanksIn d Q s where
  profileDim := h.profileDim
  detectorBank b hb := ⟨(h.detectorBank b hb).1, fun v hv => hPQ v ((h.detectorBank b hb).2 v hv)⟩
  standbyBank b hb := ⟨(h.standbyBank b hb).1, fun v hv => hPQ v ((h.standbyBank b hb).2 v hv)⟩

section Steps

variable [Zero F] [One F] [Add F] [Sub F] [Neg F] [Mul F] [Div F] [NatCast F] [LT F]
  [DecidableLT F] [LE F] [DecidableLE F] [DecidableEq F] [FloatMath F] {engine : NearestSearch F}
  {s s' : CoresetEvolution F}

omit [Zero F] [One F] [Add F] [Sub F] [Neg F] [Mul F] [Div F] [NatCast F] [LT F] [DecidableLT F]
  [DecidableEq F] [FloatMath F] in
theorem noteSaturation_buffer (novelty : NoveltyResult F) :
    (s.noteSaturation novelty).2.buffer = s.buffer := by
  unfold noteSaturation
  dsimp only
  split_ifs <;> rfl

omit [Add F] [Neg F] [DecidableEq F] [FloatMath F] in
/-- An offered frame is given to the buffer as it is, or not at all. -/
theorem append_of_offer {offer : Offer F} (h : s.assessAndOffer offer = some s') :
    s'.buffer = s.buffer ∨ ∃ data score, offer.embeddingData = some data ∧ s'.buffer =
      (s.buffer.append ⟨data, offer.gridH, offer.gridW, offer.dim, score⟩).2 := by
  have hsame := s.noteSaturation_buffer (s.noveltyOf offer)
  cases offer_effect h with
  | ignored state => exact .inl (state ▸ rfl)
  | saturated admits novel full state => exact .inl (state ▸ hsame)
  | @buffered data admits novel full state =>
    subst state
    exact .inr ⟨data, (s.normalcyOf offer).normalcyScore, admits.data_eq,
      congrArg (fun buffer => (buffer.append (s.candidateOf offer data)).2) hsame⟩

omit [Add F] [Neg F] [DecidableEq F] [FloatMath F] in
theorem buffer_of_offer {offer : Offer F} (h : s.assessAndOffer offer = some s') :
    s'.buffer.candidates = s.buffer.candidates ∨
      ∃ data score, offer.embeddingData = some data ∧ s'.buffer.candidates =
        s.buffer.candidates ++ [⟨data, offer.gridH, offer.gridW, offer.dim, score⟩] := by
  rcases append_of_offer h with heq | ⟨data, score, hdata, heq⟩
  · exact .inl (congrArg CandidateBuffer.candidates heq)
  · rcases s.buffer.append_eq ⟨data, offer.gridH, offer.gridW, offer.dim, score⟩ with
      hrefused | hadded
    · exact .inl (congrArg CandidateBuffer.candidates (heq.trans hrefused))
    · exact .inr ⟨data, score, hdata, congrArg CandidateBuffer.candidates (heq.trans hadded)⟩

omit [One F] [Neg F] [LE F] [DecidableLE F] [DecidableEq F] in
theorem checkDrift_buffer (displacement : F) :
    (s.checkDrift displacement).buffer = s.buffer ∧
      ∀ b ∈ (s.checkDrift displacement).standbyBank, b ∈ s.standbyBank := by
  unfold checkDrift
  dsimp only
  split_ifs <;> simp

omit [Neg F] [LE F] [DecidableLE F] [DecidableEq F] in
theorem computeFast_dim {bank : FeatureBank F} {profile : NormalityProfile F} {k sampleCount : ℕ}
    {tailRatioMax : F}
    (h : NormalityProfile.computeFast engine bank k sampleCount tailRatioMax = some profile) :
    profile.dim = bank.dim ∨ profile.dim = 0 := by
  unfold NormalityProfile.computeFast at h
  dsimp only at h
  split_ifs at h
  · obtain rfl := Option.some.inj h
    exact .inr rfl
  · obtain rfl := Option.some.inj h
    exact .inl rfl

omit [Div F] [NatCast F] [LE F] [DecidableLE F] [FloatMath F] in
/-- The bank made of the standby bank and a batch. -/
theorem nextBank_in {batch : List (EvolutionCandidate F)} {bank : FeatureBank F}
    (h : BanksIn d P s) (hbatch : ∀ c ∈ batch, CandidateIn d P c)
    (hnext : s.nextBank batch = some (some bank)) : BankIn d P (some bank) := by
  obtain ⟨vectors, hflat, hnext⟩ := Option.bind_eq_some_iff.mp hnext
  obtain ⟨prefiltered, hpre, hnext⟩ := Option.bind_eq_some_iff.mp hnext
  obtain ⟨standby, hstandby, hupdated⟩ := Option.bind_eq_some_iff.mp (Option.some.inj hnext)
  have hrows := flatten_allRows hbatch hflat
  rcases h.profileDim with hdim | hdim
  · rw [hdim] at hpre hupdated
    obtain ⟨hd, hpre⟩ := prefilter_allRows hrows hpre
    exact updatedBank_in hd (hstandby ▸ h.standbyBank) hpre hupdated
  · rw [hdim, prefilterCandidates, if_pos rfl] at hpre
    cases hpre

omit [One F] [Neg F] [LE F] [DecidableLE F] [DecidableEq F] in
/-- The drift check after an update keeps the banks. -/
theorem BanksIn.checkDrift (h : BanksIn d P s) (displacement : F) :
    BanksIn d P (s.checkDrift displacement) where
  profileDim := by
    rw [(sameButStandby_checkDrift displacement).activeProfile]
    exact h.profileDim
  detectorBank := by
    rw [(sameButStandby_checkDrift displacement).detectorBank]
    exact h.detectorBank
  standbyBank b hb := h.standbyBank b ((checkDrift_buffer displacement).2 b hb)

omit [One F] [Neg F] [LE F] [DecidableLE F] [DecidableEq F] in
theorem BanksIn.recordUpdate (h : BanksIn d P s) (framesAdded : ℕ) :
    BanksIn d P (s.recordUpdate framesAdded) := by
  have hcounted : BanksIn d P { s with
      incrementalUpdateCount := s.incrementalUpdateCount + 1
      stats := ⟨framesAdded, s.stats.updateCount + 1⟩ } :=
    ⟨h.profileDim, h.detectorBank, h.standbyBank⟩
  exact hcounted.checkDrift 0

omit [One F] [Neg F] [LE F] [DecidableLE F] [DecidableEq F] in
theorem recordUpdate_buffer (framesAdded : ℕ) : (s.recordUpdate framesAdded).buffer = s.buffer :=
  (checkDrift_buffer 0).1

theorem BanksIn.update {last : UpdateEnd} (h : BanksIn d P s)
    (hbatch : ∀ c ∈ s.buffer.candidates, CandidateIn d P c)
    (hs : s.update engine = some (last, s')) : BanksIn d P s' ∧ s'.buffer.candidates = [] := by
  have hemptied : BanksIn d P s.emptied := ⟨h.profileDim, h.detectorBank, h.standbyBank⟩
  cases update_effect hs with
  | idle batch state => exact state ▸ ⟨hemptied, rfl⟩
  | discarded nonempty state reason => exact state ▸ ⟨hemptied, rfl⟩
  | @rejected newBank oldBank profile nonempty next detector computed state =>
    have hbanks : BanksIn d P { s.emptied with
        standbyBank := some newBank
        standbyProfile := s.activeProfile } :=
      ⟨h.profileDim, h.detectorBank, nextBank_in h hbatch next⟩
    rw [state]
    refine ⟨hbanks.recordUpdate _, ?_⟩
    rw [recordUpdate_buffer]
    rfl
  | @installed newBank oldBank profile nonempty next detector computed state =>
    have hold : BankIn d P (some oldBank) := detector ▸ h.detectorBank
    have hprofile : profile.dim = d ∨ profile.dim = 0 :=
      (hold oldBank rfl).1 ▸ computeFast_dim computed
    have hbanks : BanksIn d P { s.emptied with
        detectorBank := some newBank
        standbyBank := some oldBank
        standbyProfile := s.activeProfile
        activeProfile := profile } := ⟨hprofile, nextBank_in h hbatch next, hold⟩
    rw [state]
    refine ⟨hbanks.recordUpdate _, ?_⟩
    rw [recordUpdate_buffer]
    rfl

omit [LE F] [DecidableLE F] in
theorem BanksIn.fullRebuild {savePath : String} {io : RebuildIo} {result : Result Unit}
    {last : UpdateEnd} (h : BanksIn d P s)
    (hbatch : ∀ c ∈ s.buffer.candidates, CandidateIn d P c)
    (hs : s.fullRebuild engine savePath io = some (result, last, s')) :
    BanksIn d P s' ∧ s'.buffer.candidates = [] := by
  have hemptied : BanksIn d P s.emptied := ⟨h.profileDim, h.detectorBank, h.standbyBank⟩
  cases fullRebuild_effect hs with
  | discarded state reason => exact state ▸ ⟨hemptied, rfl⟩
  | @installed merged newBank profile merge build computed state =>
    obtain ⟨hpos, hbank⟩ := FeatureBank.buildWithGreedyCoreset_mem build
    have hdim := h.profileDim.resolve_right (Nat.ne_of_gt hpos)
    have hrows : AllRows d P merged := by
      obtain ⟨vectors, hflat, rfl⟩ := Option.map_eq_some_iff.mp merge
      have hstandby := h.standbyBank
      refine .append ?_ (flatten_allRows hbatch hflat)
      cases hs : s.standbyBank with
      | none => exact .nil
      | some standby => exact BankIn.allRows (hs ▸ hstandby)
    rw [hdim] at hpos hbank
    have hnew : BankIn d P (some newBank) := bankIn_of_rows hrows hpos hbank
    have hprofile : profile.dim = d ∨ profile.dim = 0 :=
      (hnew newBank rfl).1 ▸ computeFast_dim computed
    have hbanks : BanksIn d P { s.emptied with
        detectorBank := some newBank
        standbyBank := s.detectorBank
        standbyProfile := s.activeProfile
        activeProfile := profile
        savePath := savePath
        stats := { s.emptied.stats with updateCount := s.emptied.stats.updateCount + 1 } } :=
      ⟨hprofile, hnew, h.detectorBank⟩
    have hdrift := hbanks.checkDrift (s.emptied.meanDisplacement profile)
    rw [state]
    refine ⟨⟨hdrift.profileDim, hdrift.detectorBank, hdrift.standbyBank⟩, ?_⟩
    exact congrArg CandidateBuffer.candidates (checkDrift_buffer _).1

end Steps

end CoresetEvolution

end SurfaceAi.Detection
