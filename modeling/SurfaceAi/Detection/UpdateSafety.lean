import SurfaceAi.Detection.BankOrigin
import SurfaceAi.Detection.CheckedUpdate
import SurfaceAi.Detection.EvolutionYaml
import SurfaceAi.Detection.VectorRetention

/-! When the checked iteration is defined. Its divisors are sizes from the configuration and the
profile, and the dimensions of banks that earlier iterations made, so the conditions on the former
are carried through the run as an invariant on the latter. -/

namespace SurfaceAi.Detection

open Checked Embeddings Transition

variable {F : Type}

/-! ### The parts of an iteration -/

theorem prefilterCandidatesChecked_eq {dim target : ℕ} (hdim : 0 < dim) (htarget : 0 < target)
    (vectors : List F) : ∃ prefiltered,
      prefilterCandidatesChecked vectors dim target = some prefiltered ∧
        prefilterCandidates vectors dim target = some prefiltered := by
  rw [prefilterCandidatesChecked, prefilterCandidates, divide_eq _ hdim, if_neg hdim.ne']
  dsimp only [Option.bind_eq_bind, Option.bind_some]
  by_cases hfew : vectors.length / dim ≤ target
  · rw [if_pos hfew, if_pos hfew]
    exact ⟨vectors, rfl, rfl⟩
  · rw [if_neg hfew, if_neg hfew, if_neg htarget.ne', divide_eq _ htarget]
    let stride := max (vectors.length / dim / target) 1
    let kept := (List.range target).takeWhile fun i => i * stride < vectors.length / dim
    have hrows : kept.mapM (fun i => slice vectors (i * stride * dim) dim) =
        some (kept.map fun i => Rows.row dim (i * stride) vectors) := by
      apply Returns.mapM_eq_map
      intro i hi
      have hlt := List.mem_takeWhile_imp hi
      rw [decide_eq_true_eq] at hlt
      exact slice_block hlt (Nat.div_mul_le_self _ _)
    dsimp only [Option.bind_some]
    rw [hrows]
    exact ⟨_, rfl, rfl⟩

section Profile

variable [Zero F] [One F] [Add F] [Sub F] [Mul F] [Div F] [NatCast F] [LT F] [DecidableLT F]
  [FloatMath F] (engine : NearestSearch F)

namespace NormalityProfile

omit [One F] [Add F] [Sub F] [Mul F] [Div F] [NatCast F] [LT F] [DecidableLT F] [FloatMath F] in
theorem selfDistanceChecked_eq (bank : FeatureBank F) {k i : ℕ} (hk : k + 1 < 2 ^ 64)
    (hi : i < bank.numSamples) :
    selfDistanceChecked engine bank k i = some (selfDistance engine bank k i) := by
  have hrow : slice bank.extractAllVectors (i * bank.dim) bank.dim =
      some (Rows.row bank.dim i bank.extractAllVectors) :=
    slice_block hi bank.length_extractAllVectors.ge
  have hne : bank.search engine [Rows.row bank.dim i bank.extractAllVectors] (k + 1) ≠ [] := by
    rw [← List.length_pos_iff]
    simp [FeatureBank.search, engine.length_knn]
  rw [selfDistanceChecked, hrow, Nat.mod_eq_of_lt hk]
  exact getLast?_eq_getLastD hne 0

omit [One F] [Add F] [Sub F] [Div F] [LT F] [DecidableLT F] in
theorem percentileChecked_eq {sorted : List F} (hne : sorted ≠ []) (p : F) :
    percentileChecked sorted p = some (percentile sorted p) := by
  have hpos : 0 < sorted.length := List.length_pos_iff.mpr hne
  have hlt : min (FloatMath.toSize (p * ((sorted.length - 1 : ℕ) : F))) (sorted.length - 1) <
      sorted.length := by omega
  exact getElem?_eq_getD hlt 0

theorem computeFastChecked_eq (bank : FeatureBank F) {k sampleCount : ℕ} (hk : k + 1 < 2 ^ 64)
    (hcount : 0 < sampleCount) (tailRatioMax : F) : ∃ profile,
      computeFastChecked engine bank k sampleCount tailRatioMax = some profile ∧
        computeFast engine bank k sampleCount tailRatioMax = some profile := by
  rw [computeFastChecked, computeFast]
  dsimp only
  by_cases hnum : bank.numSamples = 0
  · rw [if_pos hnum, if_pos hnum]
    exact ⟨_, rfl, rfl⟩
  · have hpos : 0 < min sampleCount bank.numSamples := by omega
    rw [if_neg hnum, if_neg hnum, if_neg hpos.ne', divide_eq _ hpos]
    let stride := max (bank.numSamples / min sampleCount bank.numSamples) 1
    let distances := (List.range (min sampleCount bank.numSamples)).map fun i =>
      selfDistance engine bank k (min (i * stride) (bank.numSamples - 1))
    have hdistances : ((List.range (min sampleCount bank.numSamples)).mapM fun i =>
        selfDistanceChecked engine bank k (min (i * stride) (bank.numSamples - 1))) =
        some distances := Returns.mapM_eq_map fun i _ =>
      selfDistanceChecked_eq engine bank hk (by omega)
    have hne : stdSort distances ≠ [] := by
      rw [← List.length_pos_iff, stdSort, List.length_insertionSort]
      simpa [distances] using hpos
    dsimp only [Option.bind_eq_bind, Option.bind_some]
    rw [hdistances]
    dsimp only [Option.bind_some]
    rw [percentileChecked_eq hne, percentileChecked_eq hne, percentileChecked_eq hne]
    exact ⟨_, rfl, rfl⟩

end NormalityProfile

end Profile

section Update

variable [Zero F] [One F] [Add F] [Sub F] [Neg F] [Mul F] [LT F] [DecidableLT F] [DecidableEq F]
  {s : CoresetEvolution F}

theorem updatedBankChecked_eq (cfg : EvolutionConfig F) {dim : ℕ} (hdim : 0 < dim)
    (standby : FeatureBank F) (prefiltered : List F) :
    updatedBankChecked cfg dim standby prefiltered =
      some (updatedBank cfg dim standby prefiltered) := by
  rw [updatedBankChecked, updatedBank, divide_eq _ hdim]
  let selected := selectVectors cfg dim (standby.extractAllVectors ++ prefiltered)
  change (if selected = [] then some none
    else (divide selected.length dim).bind fun count => some
      (FeatureBank.buildFromEmbeddings [.ofVectors selected dim count 1] dim count).toOption) =
    some (if selected = [] then none else _)
  by_cases hempty : selected = []
  · rw [if_pos hempty, if_pos hempty]
  · rw [if_neg hempty, if_neg hempty, divide_eq _ hdim]
    rfl

omit [Zero F] [One F] [Add F] [Sub F] [Neg F] [Mul F] [LT F] [DecidableLT F] [DecidableEq F] in
theorem row_of_built {vectors : List F} {dim gridH gridW maxSamples : ℕ} {bank : FeatureBank F}
    (h : FeatureBank.buildFromEmbeddings [.ofVectors vectors dim gridH gridW] dim maxSamples =
      .ok bank) : 0 < vectors.length / dim := by
  obtain ⟨g, hg, htotal, -⟩ := gather_ofVectors vectors dim gridH gridW "BuildFromEmbeddings"
  rw [Nat.pos_iff_ne_zero, ← htotal]
  intro hzero
  rw [FeatureBank.buildFromEmbeddings, hg] at h
  change (if g.total = 0 then _ else _) = _ at h
  rw [if_pos hzero] at h
  cases h

/-- Nothing is selected towards an empty target. -/
theorem selectVectors_of_no_target {cfg : EvolutionConfig F} (hcfg : cfg.targetSize = 0) {dim : ℕ}
    {existing : List F} (hrow : 0 < existing.length / dim) :
    selectVectors cfg dim existing = [] := by
  rw [selectVectors, hcfg, Nat.zero_min, if_neg (Nat.not_le.mpr hrow)]
  obtain ⟨g, hg, htotal, -⟩ := gather_ofVectors existing dim (existing.length / dim) 1
    "BuildWithGreedyCoreset"
  have hbuilt : FeatureBank.buildWithGreedyCoreset
      [.ofVectors existing dim (existing.length / dim) 1] dim 0 =
        .ok (FeatureBank.greedyCoreset g 0) := by
    rw [FeatureBank.buildWithGreedyCoreset, hg, ← Nat.zero_min g.total]
    exact if_neg (htotal ▸ hrow.ne')
  rw [hbuilt]
  rfl

/-- Where a bank is made there is a target, and the bank has a vector. -/
theorem updatedBank_filled {cfg : EvolutionConfig F} {dim : ℕ} {standby bank : FeatureBank F}
    {prefiltered : List F} (h : updatedBank cfg dim standby prefiltered = some bank) :
    0 < cfg.targetSize ∧ bank.dim = dim ∧ 0 < bank.numSamples := by
  let existing := standby.extractAllVectors ++ prefiltered
  let selected := selectVectors cfg dim existing
  have hbuilt : (FeatureBank.buildFromEmbeddings
      [.ofVectors selected dim (selected.length / dim) 1] dim (selected.length / dim)).toOption =
        some bank := (Option.ite_none_left_eq_some.mp h).2
  generalize hresult : FeatureBank.buildFromEmbeddings _ _ _ = result at hbuilt
  cases result with
  | error e => cases hbuilt
  | ok bank' =>
    obtain rfl := Option.some.inj hbuilt
    have hrow := row_of_built hresult
    obtain ⟨copy, hcopy, hcopydim, hvectors⟩ :=
      FeatureBank.buildFromEmbeddings_ofVectors selected dim (selected.length / dim) 1 hrow
    obtain rfl := Except.ok.inj (hcopy.symm.trans hresult)
    refine ⟨?_, hcopydim, ?_⟩
    · rw [Nat.pos_iff_ne_zero]
      intro hzero
      by_cases hexisting : 0 < existing.length / dim
      · have hselected : selected = [] := selectVectors_of_no_target hzero hexisting
        rw [hselected, List.length_nil, Nat.zero_div] at hrow
        exact Nat.lt_irrefl 0 hrow
      · have hselected : selected = existing := if_pos (by omega)
        rw [hselected] at hrow
        exact hexisting hrow
    · rw [FeatureBank.numSamples, hvectors, Rows.length_rows]
      exact hrow

namespace CoresetEvolution

theorem nextBankChecked_eq (hdim : 0 < s.activeProfile.dim) (hprefilter : 0 < s.cfg.greedyPrefilter)
    {batch : List (EvolutionCandidate F)} {vectors : List F} (hflat : flatten batch = some vectors) :
    ∃ next, s.nextBankChecked batch = some next ∧ s.nextBank batch = some next := by
  obtain ⟨prefiltered, hchecked, hplain⟩ :=
    prefilterCandidatesChecked_eq hdim hprefilter vectors
  rw [nextBankChecked, nextBank, hflat]
  dsimp only [Option.bind_eq_bind, Option.bind_some]
  rw [hchecked, hplain]
  dsimp only [Option.bind_some]
  cases s.standbyBank with
  | none => exact ⟨none, rfl, rfl⟩
  | some standby => exact ⟨_, updatedBankChecked_eq s.cfg hdim standby prefiltered, rfl⟩

end CoresetEvolution

omit [Zero F] [One F] [Add F] [Sub F] [Neg F] [Mul F] [LT F] [DecidableLT F] [DecidableEq F] in
theorem validationSampleChecked_eq {oldBank : FeatureBank F} {sampleCount : ℕ}
    (hcount : 0 < sampleCount) (hsamples : 0 < oldBank.numSamples) :
    validationSampleChecked oldBank sampleCount =
      some (CoresetEvolution.validationSample oldBank sampleCount) := by
  let stride := max (oldBank.numSamples / sampleCount) 1
  have hrows : (List.range sampleCount).mapM (fun i => slice oldBank.extractAllVectors
        (min (i * stride) (oldBank.numSamples - 1) * oldBank.dim) oldBank.dim) =
      some ((List.range sampleCount).map fun i => Rows.row oldBank.dim
        (min (i * stride) (oldBank.numSamples - 1)) oldBank.extractAllVectors) := by
    apply Returns.mapM_eq_map
    intro i _
    exact slice_block (by omega) oldBank.length_extractAllVectors.ge
  rw [validationSampleChecked, divide_eq _ hcount]
  dsimp only [Option.bind_eq_bind, Option.bind_some]
  rw [hrows]
  rfl

omit [Zero F] [One F] [Add F] [Sub F] [Neg F] [Mul F] [LT F] [DecidableLT F] [DecidableEq F] in
theorem length_validationSample {oldBank : FeatureBank F} (hsamples : 0 < oldBank.numSamples)
    (sampleCount : ℕ) : (CoresetEvolution.validationSample oldBank sampleCount).length =
      sampleCount * oldBank.dim := by
  let stride := max (oldBank.numSamples / sampleCount) 1
  have hrow : ∀ i, (Rows.row oldBank.dim (min (i * stride) (oldBank.numSamples - 1))
      oldBank.extractAllVectors).length = oldBank.dim := by
    intro i
    apply Rows.length_row
    rw [oldBank.length_extractAllVectors]
    exact Nat.mul_le_mul_right _ (by omega)
  rw [CoresetEvolution.validationSample, List.length_flatMap]
  simp only [stride] at hrow
  simp only [hrow]
  rw [List.map_const', List.length_range, List.sum_replicate_nat]

section Validation

variable [Div F] [NatCast F] [LE F] [DecidableLE F] [FloatMath F] (engine : NearestSearch F)

omit [One F] [Add F] [Sub F] [Neg F] [Mul F] [DecidableEq F] [LE F] [DecidableLE F] [FloatMath F] in
theorem newCoverageChecked_eq {oldBank newBank : FeatureBank F} {sampleCount : ℕ}
    (hk : 0 < s.cfg.normalityK) (hcount : 0 < sampleCount) (hsamples : 0 < oldBank.numSamples)
    (hdim : newBank.dim = oldBank.dim) :
    s.newCoverageChecked engine oldBank newBank sampleCount =
      some (s.newCoverage engine oldBank newBank sampleCount) := by
  let k := s.cfg.normalityK
  let sampled := CoresetEvolution.validationSample oldBank sampleCount
  let queries := Rows.rows newBank.dim sampleCount sampled
  have hqueries : (List.range sampleCount).mapM (fun i =>
      slice sampled (i * newBank.dim) newBank.dim) = some queries := by
    apply Returns.mapM_eq_map
    intro i hi
    have hlength := length_validationSample hsamples sampleCount
    exact slice_block (List.mem_range.mp hi) (hdim ▸ hlength.ge)
  have hkth : (List.range sampleCount).mapM (fun i =>
      (newBank.search engine queries k)[i * k + k - 1]?) =
        some ((List.range sampleCount).map fun i =>
          (newBank.search engine queries k).getD (i * k + k - 1) 0) := by
    apply Returns.mapM_eq_map
    intro i hi
    have hindex : i * k + k - 1 = i * k + (k - 1) := by omega
    apply getElem?_eq_getD
    rw [newBank.length_search, Rows.length_rows, hindex]
    exact flat_lt (List.mem_range.mp hi) (by omega)
  rw [CoresetEvolution.newCoverageChecked, validationSampleChecked_eq hcount hsamples]
  dsimp only [Option.bind_eq_bind, Option.bind_some]
  rw [hqueries]
  dsimp only [Option.bind_some]
  rw [hkth]
  dsimp only [Option.bind_some]
  rw [List.countP_map]
  rfl

omit [One F] [Add F] [Sub F] [Neg F] [DecidableEq F] [FloatMath F] in
/-- Self-validation is defined for a sample of a bank of the new bank's dimension. -/
theorem selfValidationFailsChecked_eq
    (hsizes : ∀ oldBank ∈ s.standbyBank, ∀ newBank ∈ s.detectorBank,
      s.cfg.evolutionSelfValidation = true → 0 < s.cfg.normalityK ∧
        0 < s.cfg.validationSampleCount ∧ newBank.dim = oldBank.dim) :
    ∃ fails, s.selfValidationFailsChecked engine = some fails ∧
      s.selfValidationFails engine = some fails := by
  rw [CoresetEvolution.selfValidationFailsChecked, CoresetEvolution.selfValidationFails]
  rcases hold : s.standbyBank with _ | oldBank
  · exact ⟨false, rfl, rfl⟩
  rcases hnew : s.detectorBank with _ | newBank
  · exact ⟨false, rfl, rfl⟩
  dsimp only
  by_cases hvalid : s.cfg.evolutionSelfValidation = true ∧ 0 < oldBank.numSamples ∧
      0 < newBank.numSamples
  · obtain ⟨hk, hcount, hdim⟩ := hsizes oldBank hold newBank hnew hvalid.1
    have hsamples := hvalid.2.1
    have hsample : 0 < min s.cfg.validationSampleCount oldBank.numSamples := by omega
    rw [if_pos hvalid, if_pos hvalid, if_neg (by omega),
      newCoverageChecked_eq engine hk hsample hsamples hdim]
    exact ⟨_, rfl, rfl⟩
  · rw [if_neg hvalid, if_neg hvalid]
    exact ⟨false, rfl, rfl⟩

end Validation

/-! ### An iteration -/

section Iteration

variable [Div F] [NatCast F] [LE F] [DecidableLE F] [FloatMath F] {engine : NearestSearch F}
  {s' : CoresetEvolution F}

namespace CoresetEvolution

/-- What the configuration, the profile and the bank have to be for the divisors and subscripts.
Only an installed bank has a profile computed and is validated. -/
structure CanUpdate (cfg : EvolutionConfig F) (profile : NormalityProfile F)
    (bank : Option (FeatureBank F)) : Prop where
  dim : 0 < profile.dim
  prefilter : 0 < cfg.greedyPrefilter
  install : ∀ b ∈ bank, 0 < b.numSamples → 0 < cfg.targetSize →
    0 < b.dim ∧ cfg.normalityK + 1 < 2 ^ 64 ∧ (cfg.evolutionSelfValidation = true →
      0 < cfg.normalityK ∧ 0 < cfg.validationSampleCount ∧ b.dim = profile.dim)

/-- The same of a state, where an update may have replaced the banks and the profile. -/
structure Installs (d : ℕ) (s : CoresetEvolution F) (detectorBank : FeatureBank F) : Prop where
  detector : s.detectorBank = some detectorBank
  dim : 0 < detectorBank.dim
  samples : 0 < detectorBank.numSamples
  searchable : s.cfg.normalityK + 1 < 2 ^ 64
  validates : s.cfg.evolutionSelfValidation = true → 0 < s.cfg.normalityK ∧
    0 < s.cfg.validationSampleCount ∧ detectorBank.dim = d ∧ s.activeProfile.dim = d

structure Updatable (d : ℕ) (s : CoresetEvolution F) : Prop where
  dim : 0 < s.activeProfile.dim
  prefilter : 0 < s.cfg.greedyPrefilter
  install : 0 < s.cfg.targetSize → s.standbyBank.isSome → ∃ bank, Installs d s bank

variable {d : ℕ}

omit [Div F] [NatCast F] [LE F] [DecidableLE F] [FloatMath F] in
/-- What an update that makes a bank finds. -/
theorem Updatable.installs (h : Updatable d s) {batch : List (EvolutionCandidate F)}
    {newBank : FeatureBank F} (hnext : s.nextBank batch = some (some newBank)) :
    newBank.dim = s.activeProfile.dim ∧ 0 < newBank.numSamples ∧ ∃ bank, Installs d s bank := by
  obtain ⟨vectors, -, hnext⟩ := Option.bind_eq_some_iff.mp hnext
  obtain ⟨prefiltered, -, hnext⟩ := Option.bind_eq_some_iff.mp hnext
  obtain ⟨standby, hstandby, hupdated⟩ := Option.bind_eq_some_iff.mp (Option.some.inj hnext)
  obtain ⟨htarget, hdim, hsamples⟩ := updatedBank_filled hupdated
  exact ⟨hdim, hsamples, h.install htarget (Option.isSome_iff_exists.mpr ⟨standby, hstandby⟩)⟩

omit [Neg F] [DecidableEq F] [LE F] [DecidableLE F] in
theorem installUpdateChecked_eq (engine : NearestSearch F) {bank : FeatureBank F}
    (h : Installs d s bank) (newBank : FeatureBank F) : ∃ installed,
      s.installUpdateChecked engine newBank = some installed ∧
        s.installUpdate engine newBank = some installed ∧ installed.cfg = s.cfg ∧
        installed.detectorBank = some newBank ∧ installed.standbyBank = some bank := by
  have hsampled : 0 < 100 := by decide
  obtain ⟨profile, hchecked, hplain⟩ := NormalityProfile.computeFastChecked_eq engine bank
    h.searchable hsampled s.cfg.tailRatioMax
  rw [installUpdateChecked, installUpdate, swapFeatureBank, h.detector]
  dsimp only [Option.bind_eq_bind, Option.bind_some]
  rw [hchecked, hplain]
  exact ⟨_, rfl, rfl, rfl, rfl, rfl⟩

/-- The checked iteration computes what the unchecked one does. -/
theorem processBatchChecked_eq (engine : NearestSearch F) (h : Updatable d s)
    {batch : List (EvolutionCandidate F)} {vectors : List F}
    (hflat : flatten batch = some vectors) :
    ∃ r, s.processBatchChecked engine batch = some r ∧ s.processBatch engine batch = some r := by
  rw [processBatchChecked, processBatch]
  by_cases hempty : batch.isEmpty = true
  · rw [if_pos hempty, if_pos hempty]
    exact ⟨_, rfl, rfl⟩
  rw [if_neg hempty, if_neg hempty]
  by_cases hgate : meanNormalcy batch < s.activeProfile.evolutionGate
  · rw [if_pos hgate, if_pos hgate]
    exact ⟨_, rfl, rfl⟩
  rw [if_neg hgate, if_neg hgate]
  obtain ⟨next, hchecked, hplain⟩ := nextBankChecked_eq h.dim h.prefilter hflat
  rw [hchecked, hplain]
  cases next with
  | none => exact ⟨_, rfl, rfl⟩
  | some newBank =>
    obtain ⟨hdim, -, bank, hbank⟩ := h.installs hplain
    obtain ⟨installed, hinstalled, hinstalled', hcfg, hdetector, hstandby⟩ :=
      installUpdateChecked_eq engine hbank newBank
    have hsizes : ∀ oldBank ∈ installed.standbyBank, ∀ newBank ∈ installed.detectorBank,
        installed.cfg.evolutionSelfValidation = true → 0 < installed.cfg.normalityK ∧
          0 < installed.cfg.validationSampleCount ∧ newBank.dim = oldBank.dim := by
      rw [hcfg, hdetector, hstandby]
      rintro oldBank hold installed hnew hvalidates
      obtain ⟨hk, hcount, hold', hactive⟩ := hbank.validates hvalidates
      obtain rfl := Option.some.inj hold
      obtain rfl := Option.some.inj hnew
      exact ⟨hk, hcount, (hdim.trans hactive).trans hold'.symm⟩
    obtain ⟨fails, hfails, hfails'⟩ := selfValidationFailsChecked_eq engine hsizes
    dsimp only [Option.bind_eq_bind, Option.bind_some]
    rw [hinstalled, hinstalled']
    dsimp only [Option.bind_some]
    rw [hfails, hfails']
    exact ⟨_, rfl, rfl⟩

/-! ### What an operation keeps -/

omit [Zero F] [One F] [Add F] [Sub F] [Neg F] [Mul F] [LT F] [DecidableLT F] [DecidableEq F] [Div F]
  [NatCast F] [LE F] [DecidableLE F] [FloatMath F] in
theorem Updatable.of_sameBanks (h : Updatable d s) (hsame : SameBanks s s') : Updatable d s' where
  dim := hsame.activeProfile ▸ h.dim
  prefilter := hsame.cfg ▸ h.prefilter
  install htarget hstandby := by
    rw [hsame.cfg] at htarget
    rw [hsame.standbyBank] at hstandby
    obtain ⟨bank, hbank⟩ := h.install htarget hstandby
    refine ⟨bank, hsame.detectorBank ▸ hbank.detector, hbank.dim, hbank.samples, ?_, ?_⟩
    · rw [hsame.cfg]
      exact hbank.searchable
    · rw [hsame.cfg, hsame.activeProfile]
      exact hbank.validates

omit [One F] [Neg F] [LE F] [DecidableLE F] [DecidableEq F] in
theorem Updatable.checkDrift (h : Updatable d s) (displacement : F) :
    Updatable d (s.checkDrift displacement) := by
  have hsame := sameButStandby_checkDrift (s := s) displacement
  refine ⟨hsame.activeProfile ▸ h.dim, hsame.cfg ▸ h.prefilter, fun htarget hstandby => ?_⟩
  rw [hsame.cfg] at htarget
  obtain ⟨standby, hstandby⟩ := Option.isSome_iff_exists.mp hstandby
  have hkept : standby ∈ s.standbyBank := (checkDrift_buffer displacement).2 standby hstandby
  obtain ⟨bank, hbank⟩ := h.install htarget (Option.isSome_iff_exists.mpr ⟨standby, hkept⟩)
  refine ⟨bank, hsame.detectorBank.trans hbank.detector, hbank.dim, hbank.samples, ?_, ?_⟩
  · rw [hsame.cfg]
    exact hbank.searchable
  · rw [hsame.cfg, hsame.activeProfile]
    exact hbank.validates

omit [One F] [Neg F] [LE F] [DecidableLE F] [DecidableEq F] in
theorem Updatable.recordUpdate (h : Updatable d s) (framesAdded : ℕ) :
    Updatable d (s.recordUpdate framesAdded) := by
  have hcounted : Updatable d { s with
      incrementalUpdateCount := s.incrementalUpdateCount + 1
      stats := ⟨framesAdded, s.stats.updateCount + 1⟩ } := h.of_sameBanks ⟨rfl, rfl, rfl, rfl⟩
  exact hcounted.checkDrift 0

omit [Neg F] [LE F] [DecidableLE F] [DecidableEq F] in
theorem computeFast_dim_eq {bank : FeatureBank F} {profile : NormalityProfile F}
    {k sampleCount : ℕ} {tailRatioMax : F} (hsamples : 0 < bank.numSamples)
    (h : NormalityProfile.computeFast engine bank k sampleCount tailRatioMax = some profile) :
    profile.dim = bank.dim := by
  rw [NormalityProfile.computeFast] at h
  dsimp only at h
  split_ifs at h with hnum
  · exact absurd hnum hsamples.ne'
  · obtain rfl := Option.some.inj h
    rfl

theorem Updatable.update (h : Updatable d s) {last : UpdateEnd}
    (hs : s.update engine = some (last, s')) : Updatable d s' := by
  have hemptied : Updatable d s.emptied := h.of_sameBanks ⟨rfl, rfl, rfl, rfl⟩
  cases update_effect hs with
  | idle batch state => exact state ▸ hemptied
  | discarded nonempty state reason => exact state ▸ hemptied
  | @rejected newBank oldBank profile nonempty next detector computed state =>
    obtain ⟨-, -, bank, hbank⟩ := h.installs next
    have hswapped : Updatable d { s.emptied with
        standbyBank := some newBank
        standbyProfile := s.activeProfile } :=
      ⟨h.dim, h.prefilter, fun _ _ => ⟨bank, hbank.detector, hbank.dim, hbank.samples,
        hbank.searchable, hbank.validates⟩⟩
    rw [state]
    exact hswapped.recordUpdate _
  | @installed newBank oldBank profile nonempty next detector computed state =>
    obtain ⟨hdim, hsamples, bank, hbank⟩ := h.installs next
    obtain rfl : bank = oldBank := Option.some.inj (hbank.detector.symm.trans detector)
    have hprofile : profile.dim = bank.dim := computeFast_dim_eq hbank.samples computed
    have hinstalled : Updatable d { s.emptied with
        detectorBank := some newBank
        standbyBank := some bank
        standbyProfile := s.activeProfile
        activeProfile := profile } := by
      refine ⟨hprofile ▸ hbank.dim, h.prefilter, fun _ _ => ⟨newBank, rfl, hdim ▸ h.dim, hsamples,
        hbank.searchable, fun hvalidates => ?_⟩⟩
      obtain ⟨hk, hcount, hold, hactive⟩ := hbank.validates hvalidates
      exact ⟨hk, hcount, hdim.trans hactive, hprofile.trans hold⟩
    rw [state]
    exact hinstalled.recordUpdate _

end CoresetEvolution

/-! ### Runs -/

/-- An operation whose updates are checked. -/
def History.stepChecked (engine : NearestSearch F) (h : History F) :
    EvolutionOp F → Option (History F)
  | .update => (h.state.updateChecked engine).map fun (last, s) =>
      ⟨s, h.drained ++ batchPatches h.state.buffer.candidates, last⟩
  | op => h.step engine op

namespace CoresetEvolution

variable {d : ℕ}

/-- An operation of the update cycle, where a frame has all the floats its grid asks for. -/
def InContract : EvolutionOp F → Prop
  | .offer offer => ∀ data ∈ offer.embeddingData,
      offer.gridH * offer.gridW * offer.dim % 2 ^ 64 ≤ data.length
  | .update => True
  | .fullRebuild _ _ => False

/-- Every buffered frame can be read. -/
def Readable (s : CoresetEvolution F) : Prop := ∀ c ∈ s.buffer.candidates, c.flat.isSome

omit [Zero F] [One F] [Add F] [Sub F] [Neg F] [Mul F] [LT F] [DecidableLT F] [DecidableEq F] [Div F]
  [NatCast F] [LE F] [DecidableLE F] [FloatMath F] in
theorem Readable.flatten_eq_some (h : s.Readable) :
    ∃ vectors, flatten s.buffer.candidates = some vectors := by
  have hframes : Returns (s.buffer.candidates.mapM EvolutionCandidate.flat) fun _ => True := by
    refine Returns.mono (Returns.mapM fun c hc => ?_) fun _ _ => trivial
    obtain ⟨vectors, hvectors⟩ := Option.isSome_iff_exists.mp (h c hc)
    exact ⟨vectors, hvectors, trivial⟩
  obtain ⟨frames, hframes, -⟩ := hframes
  exact ⟨frames.flatten, by rw [flatten, hframes]; rfl⟩

theorem update_empties {last : UpdateEnd} (hs : s.update engine = some (last, s')) :
    s'.buffer.candidates = [] := by
  cases update_effect hs with
  | idle batch state => exact state ▸ rfl
  | discarded nonempty state reason => exact state ▸ rfl
  | rejected nonempty next detector computed state =>
    rw [state, recordUpdate_buffer]
    rfl
  | installed nonempty next detector computed state =>
    rw [state, recordUpdate_buffer]
    rfl

theorem readable_step {h h' : History F} {op : EvolutionOp F} (hop : InContract op)
    (hstep : h.step engine op = some h') (hreadable : h.state.Readable) : h'.state.Readable := by
  cases op with
  | offer offer =>
    obtain ⟨s, hs, rfl⟩ := Option.map_eq_some_iff.mp hstep
    rcases buffer_of_offer hs with heq | ⟨data, score, hdata, heq⟩
    · intro c hc
      exact hreadable c (heq ▸ hc)
    · intro c hc
      rcases List.mem_append.mp (heq ▸ hc) with hc | hc
      · exact hreadable c hc
      · obtain rfl := List.mem_singleton.mp hc
        rw [EvolutionCandidate.flat]
        dsimp only
        rw [if_pos (hop data hdata)]
        rfl
  | update =>
    obtain ⟨⟨last, s⟩, hs, rfl⟩ := Option.map_eq_some_iff.mp hstep
    intro c hc
    have hnil : s.buffer.candidates = [] := update_empties hs
    rw [hnil] at hc
    cases hc
  | fullRebuild savePath io => exact hop.elim

theorem Updatable.step {h h' : History F} {op : EvolutionOp F} (hop : InContract op)
    (hstep : h.step engine op = some h') (hupdatable : Updatable d h.state) :
    Updatable d h'.state := by
  cases op with
  | offer offer =>
    obtain ⟨s, hs, rfl⟩ := Option.map_eq_some_iff.mp hstep
    exact hupdatable.of_sameBanks (sameBanks_of_offer hs)
  | update =>
    obtain ⟨⟨last, s⟩, hs, rfl⟩ := Option.map_eq_some_iff.mp hstep
    exact hupdatable.update hs
  | fullRebuild savePath io => exact hop.elim

omit [Zero F] [One F] [Add F] [Sub F] [Neg F] [Mul F] [LT F] [DecidableLT F] [DecidableEq F] [Div F]
  [NatCast F] [LE F] [DecidableLE F] [FloatMath F] in
/-- There is a standby bank only if the detector has started with vectors. -/
theorem updatable_create {cfg : EvolutionConfig F} {bank : Option (FeatureBank F)}
    {profile : NormalityProfile F} (h : CanUpdate cfg profile bank) :
    Updatable profile.dim (create cfg bank profile) := by
  refine ⟨h.dim, h.prefilter, fun htarget hstandby => ?_⟩
  obtain ⟨standby, hstandby⟩ := Option.isSome_iff_exists.mp hstandby
  obtain ⟨b, hb, hcopied⟩ := Option.bind_eq_some_iff.mp
    (Option.ite_none_left_eq_some.mp hstandby).2
  obtain ⟨hsamples, -⟩ := Option.ite_none_left_eq_some.mp hcopied
  have hpos : 0 < b.numSamples := Nat.pos_of_ne_zero hsamples
  obtain ⟨hdim, hsearchable, hvalidates⟩ := h.install b hb hpos htarget
  refine ⟨b, hb, hdim, hpos, hsearchable, fun hvalidated => ?_⟩
  obtain ⟨hk, hcount, hsame⟩ := hvalidates hvalidated
  exact ⟨hk, hcount, hsame, rfl⟩

theorem updateChecked_eq (hreadable : s.Readable) (hupdatable : Updatable d s) :
    ∃ r, s.updateChecked engine = some r ∧ s.update engine = some r := by
  have hemptied : Updatable d s.emptied := hupdatable.of_sameBanks ⟨rfl, rfl, rfl, rfl⟩
  obtain ⟨vectors, hvectors⟩ := hreadable.flatten_eq_some
  exact processBatchChecked_eq engine hemptied hvectors

theorem stepChecked_eq {h : History F} (hreadable : h.state.Readable)
    (hupdatable : Updatable d h.state) (op : EvolutionOp F) :
    h.stepChecked engine op = h.step engine op := by
  cases op with
  | update =>
    obtain ⟨r, hchecked, hplain⟩ := updateChecked_eq hreadable hupdatable
    rw [History.stepChecked, History.step, hchecked, hplain]
  | offer offer => rfl
  | fullRebuild savePath io => rfl

/-- Along a run of the update cycle the buffered frames can be read, and what could be updated at
the start still can. -/
theorem run_updatable {cfg : EvolutionConfig F} {bank : Option (FeatureBank F)}
    {profile : NormalityProfile F} {ops : List (EvolutionOp F)} {h : History F}
    (hcan : CanUpdate cfg profile bank)
    (hrun : run (History.stepChecked engine) (.start cfg bank profile) ops = some h)
    (hops : ∀ op ∈ ops, InContract op) : h.state.Readable ∧ Updatable profile.dim h.state := by
  revert hops
  refine run_induction _ (P := fun ops h => (∀ op ∈ ops, InContract op) →
    h.state.Readable ∧ Updatable profile.dim h.state) ?_ ?_ hrun
  · intro _
    refine ⟨fun c hc => ?_, updatable_create hcan⟩
    cases hc
  · intro ops h op h' ih hstep hops
    obtain ⟨hreadable, hupdatable⟩ := ih fun op hop => hops op (List.mem_append_left _ hop)
    have hop : InContract op := hops op (List.mem_append_right _ (List.mem_singleton_self op))
    rw [stepChecked_eq hreadable hupdatable] at hstep
    exact ⟨readable_step hop hstep hreadable, hupdatable.step hop hstep⟩

theorem updateChecked_of_nothing_merged (h : s.buffer.candidates = [] ∨
      meanNormalcy s.buffer.candidates < s.activeProfile.evolutionGate) :
    ∃ r, s.updateChecked engine = some r ∧ s.update engine = some r := by
  change ∃ r, s.emptied.processBatchChecked engine s.buffer.candidates = some r ∧
    s.emptied.processBatch engine s.buffer.candidates = some r
  rw [processBatchChecked, processBatch]
  by_cases hempty : s.buffer.candidates.isEmpty = true
  · rw [if_pos hempty, if_pos hempty]
    exact ⟨_, rfl, rfl⟩
  · have hgate : meanNormalcy s.buffer.candidates < s.emptied.activeProfile.evolutionGate :=
      h.resolve_left fun hnil => hempty (List.isEmpty_iff.mpr hnil)
    rw [if_neg hempty, if_neg hempty, if_pos hgate, if_pos hgate]
    exact ⟨_, rfl, rfl⟩

/-- An update is defined where its batch is empty or turned away by the gate, and otherwise where
the configuration, the profile and the first bank have no size that is divided by or subscripts
out of range. -/
theorem update_cycle_defined {cfg : EvolutionConfig F} {bank : Option (FeatureBank F)}
    {profile : NormalityProfile F} {ops : List (EvolutionOp F)} {h : History F}
    (hrun : run (History.stepChecked engine) (.start cfg bank profile) ops = some h)
    (hops : ∀ op ∈ ops, InContract op)
    (hcan : h.state.buffer.candidates = [] ∨
      meanNormalcy h.state.buffer.candidates < h.state.activeProfile.evolutionGate ∨
      CanUpdate cfg profile bank) :
    ∃ r, h.state.updateChecked engine = some r ∧ h.state.update engine = some r := by
  rcases hcan with hempty | hgate | hcan
  · exact updateChecked_of_nothing_merged (.inl hempty)
  · exact updateChecked_of_nothing_merged (.inr hgate)
  · obtain ⟨hreadable, hupdatable⟩ := run_updatable hcan hrun hops
    exact updateChecked_eq hreadable hupdatable

end CoresetEvolution

end Iteration

end Update

/-! ### Sizes from documents -/

namespace CoresetEvolution

theorem canUpdate_line : CanUpdate lineConfig lineProfile (some lineBank) where
  dim := by decide
  prefilter := by decide
  install b hb _ _ := by
    obtain rfl := Option.some.inj hb
    exact ⟨by decide, by decide, fun _ => ⟨by decide, by decide, rfl⟩⟩

theorem inContract_lineOffer (x : ℚ) : InContract (.offer (lineOffer x)) := by
  intro data hdata
  obtain rfl := Option.some.inj hdata
  have hone : 1 * 1 * 1 % 2 ^ 64 ≤ 1 := by decide
  exact hone

theorem update_cycle_defined_line :
    (lineOffered.state.updateChecked flatL2).map Prod.fst = some (.installed 100) := by
  have hoffer : lineStart.stepChecked flatL2 (.offer (lineOffer 1)) = some lineOffered :=
    (Option.some_get _).symm
  have hrun : run (History.stepChecked flatL2) (.start lineConfig (some lineBank) lineProfile)
      [.offer (lineOffer 1)] = some lineOffered := by
    rw [run_cons, ← lineStart, hoffer]
    rfl
  have hops : ∀ op ∈ [EvolutionOp.offer (lineOffer 1)], InContract op := by
    intro op hop
    obtain rfl := List.mem_singleton.mp hop
    exact inContract_lineOffer 1
  obtain ⟨r, hchecked, hupdate⟩ := update_cycle_defined hrun hops (.inr (.inr canUpdate_line))
  have hlast : (lineOffered.state.update flatL2).map Prod.fst = some (.installed 100) := by
    decide +kernel
  rw [hchecked, ← hupdate]
  exact hlast

/-- A document that asks for no vector of a batch. -/
def unfilteredDocument : YamlPart (YamlPart (SelfEvolutionNode ℚ)) :=
  .map (.map { enabled := some true, update := .map { greedyPrefilter := some 0 } })

def lineProfileFile : YamlPart (YamlPart (ProfileNode ℚ)) :=
  .map (.map
    { dim := some 1
      numSamples := some 2
      statistics := .map
        { p50 := some 4, p95 := some 4, p99 := some 4, mean := some 4, selfNormalcy := some 1 } })

/-- Both documents are accepted, and the first frame that is merged is divided by zero. -/
theorem accepted_documents_divide_by_zero :
    ∃ settings profile h, EvolutionSettings.fromYaml unfilteredDocument = .ok settings ∧
      NormalityProfile.loadFromYaml "profile.yaml" lineProfileFile = .ok profile ∧
      InContract (.offer (lineOffer 1)) ∧
      run (History.stepChecked flatL2) (.start settings.toEvolutionConfig (some lineBank) profile)
        [.offer (lineOffer 1)] = some h ∧
      h.state.updateChecked flatL2 = none := by
  let settings : EvolutionSettings ℚ :=
    { EvolutionSettings.default with enabled := true, greedyPrefilter := 0 }
  let profile : NormalityProfile ℚ := ⟨5, 1, 2, 4, 4, 4, 4, 0, 1⟩
  let start : History ℚ := .start settings.toEvolutionConfig (some lineBank) profile
  have hsome : (start.stepChecked flatL2 (.offer (lineOffer 1))).isSome := by decide +kernel
  obtain ⟨h, hstep⟩ := Option.isSome_iff_exists.mp hsome
  refine ⟨settings, profile, h, rfl, rfl, inContract_lineOffer 1, ?_, ?_⟩
  · rw [run_cons]
    change (start.stepChecked flatL2 (.offer (lineOffer 1))).bind _ = _
    rw [hstep]
    rfl
  · have hnone : ((start.stepChecked flatL2 (.offer (lineOffer 1))).bind fun h =>
        h.state.updateChecked flatL2).isNone = true := by decide +kernel
    rw [hstep] at hnone
    exact Option.isNone_iff_eq_none.mp hnone

end CoresetEvolution

end SurfaceAi.Detection
