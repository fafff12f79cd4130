import SurfaceAi.Detection.EvolutionRun
import Mathlib.Algebra.Field.Rat
import Mathlib.Algebra.Order.Field.Basic
import Mathlib.Algebra.Order.Ring.Rat

/-! Whether drained patch vectors stay in the detector's bank. An update merges its batch
into the standby bank, which is the bank before last, and swaps the two: what the last
batch added is only in the bank that is swapped out. -/

namespace SurfaceAi.Detection

variable {F : Type*}

namespace CoresetEvolution

variable (s : CoresetEvolution F)

def standbyVectors : List (List F) := s.standbyBank.elim [] FeatureBank.vectors

/-- The buffered batch can be merged without loss: the dimensions agree, nothing has to be
subsampled, and what was drained before is in the standby bank or in the batch. -/
structure Mergeable (drained : List (List F)) : Prop where
  dim_pos : 0 < s.activeProfile.dim
  standby_dim : ∀ bank ∈ s.standbyBank, bank.dim = s.activeProfile.dim
  fits : ∀ c ∈ s.buffer.candidates, c.Fits s.activeProfile.dim
  within_target :
    s.standbyVectors.length + (batchPatches s.buffer.candidates).length ≤ s.cfg.targetSize
  kept : ∀ v ∈ drained, v ∈ s.standbyVectors ++ batchPatches s.buffer.candidates

variable {s}

/-- The merged array, cut into rows, is the standby bank followed by the batch. -/
theorem merged_rows {drained : List (List F)} (h : s.Mergeable drained) :
    ∃ vectors, flatten s.buffer.candidates = some vectors ∧
      vectors.length = (batchPatches s.buffer.candidates).length * s.activeProfile.dim ∧
      (s.standbyBank.elim [] FeatureBank.extractAllVectors ++ vectors).length =
        (s.standbyVectors ++ batchPatches s.buffer.candidates).length * s.activeProfile.dim ∧
      Rows.rows s.activeProfile.dim (s.standbyVectors ++ batchPatches s.buffer.candidates).length
          (s.standbyBank.elim [] FeatureBank.extractAllVectors ++ vectors) =
        s.standbyVectors ++ batchPatches s.buffer.candidates := by
  obtain ⟨vectors, hflat, hlen, hrows⟩ := flatten_of_fits h.fits
  have hstandby : (s.standbyBank.elim [] FeatureBank.extractAllVectors).length =
      s.standbyVectors.length * s.activeProfile.dim ∧
      Rows.rows s.activeProfile.dim s.standbyVectors.length
        (s.standbyBank.elim [] FeatureBank.extractAllVectors) = s.standbyVectors := by
    have hdim := h.standby_dim
    rw [standbyVectors]
    cases hbank : s.standbyBank with
    | none => exact ⟨by simp, rfl⟩
    | some bank =>
      rw [← hdim bank hbank]
      exact ⟨bank.length_extractAllVectors, bank.rows_extractAllVectors⟩
  refine ⟨vectors, hflat, hlen, ?_, ?_⟩
  · rw [List.length_append, hstandby.1, hlen, ← Nat.add_mul, List.length_append]
  · rw [List.length_append, Rows.rows_append hstandby.1 hlen, hstandby.2, hrows]

end CoresetEvolution

section Ordered

variable [Field F] [LinearOrder F] [IsStrictOrderedRing F]

namespace CoresetEvolution

variable {s s' : CoresetEvolution F} {drained : List (List F)}

omit [IsStrictOrderedRing F] in
/-- The bank an update would install holds the standby bank and the batch. -/
theorem nextBank_vectors (h : s.Mergeable drained) (hstandby : s.standbyBank.isSome)
    (hprefilter : (batchPatches s.buffer.candidates).length ≤ s.cfg.greedyPrefilter) :
    ∃ next, s.nextBank s.buffer.candidates = some next ∧
      next.elim [] FeatureBank.vectors =
        s.standbyVectors ++ batchPatches s.buffer.candidates := by
  obtain ⟨standby, hbank⟩ := Option.isSome_iff_exists.mp hstandby
  obtain ⟨vectors, hflat, hcount, htotal, hrows⟩ := merged_rows h
  rw [hbank, Option.elim_some] at htotal hrows
  have hdiv := Nat.div_eq_of_eq_mul_left h.dim_pos htotal
  have hpre : prefilterCandidates vectors s.activeProfile.dim s.cfg.greedyPrefilter =
      some vectors := by
    rw [prefilterCandidates, if_neg h.dim_pos.ne']
    refine if_pos ?_
    rw [hcount, Nat.mul_div_cancel _ h.dim_pos]
    exact hprefilter
  have hselect : selectVectors s.cfg s.activeProfile.dim (standby.extractAllVectors ++ vectors) =
      standby.extractAllVectors ++ vectors := by
    rw [selectVectors, hdiv]
    refine if_pos (le_min ?_ le_rfl)
    rw [List.length_append]
    exact h.within_target
  refine ⟨updatedBank s.cfg s.activeProfile.dim standby vectors, ?_, ?_⟩
  · simp only [nextBank, hflat, hpre, hbank, Option.bind_eq_bind, Option.bind_some]
  · rw [updatedBank, hselect]
    by_cases hnil : standby.extractAllVectors ++ vectors = []
    · rw [if_pos hnil, Option.elim_none, ← hrows]
      rw [hnil, List.length_nil, eq_comm, Nat.mul_eq_zero] at htotal
      rw [htotal.resolve_right h.dim_pos.ne']
      rfl
    · have hpos : 0 < (standby.extractAllVectors ++ vectors).length / s.activeProfile.dim := by
        have hlen := List.length_pos_iff.mpr hnil
        rw [hdiv]
        exact Nat.pos_of_mul_pos_right (htotal ▸ hlen)
      obtain ⟨bank, hbuild, -, hvectors⟩ := FeatureBank.buildFromEmbeddings_ofVectors
        (standby.extractAllVectors ++ vectors) s.activeProfile.dim
        ((standby.extractAllVectors ++ vectors).length / s.activeProfile.dim) 1 hpos
      rw [if_neg hnil]
      simp only [hbuild, Except.toOption, Option.elim_some]
      rw [hvectors, hdiv, hrows]

/-- The bank a rebuild would install holds the standby bank and the buffered batch. -/
theorem rebuild_vectors (h : s.Mergeable drained) :
    ∃ merged, s.mergedVectors s.buffer.candidates = some merged ∧
      (s.standbyVectors ++ batchPatches s.buffer.candidates ≠ [] → ∃ bank,
        FeatureBank.buildWithGreedyCoreset [.ofVectors merged s.activeProfile.dim
          (merged.length / s.activeProfile.dim) 1] s.activeProfile.dim
          (min s.cfg.targetSize (merged.length / s.activeProfile.dim)) = .ok bank ∧
        merged ≠ [] ∧
        ∀ v, v ∈ bank.vectors ↔ v ∈ s.standbyVectors ++ batchPatches s.buffer.candidates) := by
  obtain ⟨vectors, hflat, -, htotal, hrows⟩ := merged_rows h
  have hdiv := Nat.div_eq_of_eq_mul_left h.dim_pos htotal
  refine ⟨_, by rw [mergedVectors, hflat, Option.map_some], fun hne => ?_⟩
  have hpos := List.length_pos_iff.mpr hne
  have htarget : (s.standbyVectors ++ batchPatches s.buffer.candidates).length ≤
      s.cfg.targetSize := by
    rw [List.length_append]
    exact h.within_target
  obtain ⟨bank, hbuild, -, hmem⟩ := FeatureBank.buildWithGreedyCoreset_ofVectors
    (s.standbyBank.elim [] FeatureBank.extractAllVectors ++ vectors) s.activeProfile.dim
    ((s.standbyBank.elim [] FeatureBank.extractAllVectors ++ vectors).length /
      s.activeProfile.dim) 1 (hdiv.symm ▸ hpos) (le_min (hdiv.symm ▸ htarget) le_rfl)
  refine ⟨bank, hbuild, ?_, fun v => ?_⟩
  · intro hnil
    rw [hnil, List.length_nil] at htotal
    exact absurd htotal.symm (Nat.mul_pos hpos h.dim_pos).ne'
  · rw [hmem, hdiv, hrows]

end CoresetEvolution

/-! ### Runs that keep what they drain -/

variable [FloatMath F] (engine : NearestSearch F)

/-- The next operation keeps what was drained: its batch passes the gate and is not rejected,
its files can be written, and nothing is subsampled; and everything drained before stands in
the standby bank or in the batch. -/
def Keeps (h : History F) : EvolutionOp F → Prop
  | .offer _ => True
  | .update => h.state.buffer.candidates = [] ∨
      h.state.Mergeable h.drained ∧ h.state.standbyBank.isSome ∧
        ¬CoresetEvolution.meanNormalcy h.state.buffer.candidates <
          h.state.activeProfile.evolutionGate ∧
        (batchPatches h.state.buffer.candidates).length ≤ h.state.cfg.greedyPrefilter ∧
        ∀ s', h.state.update engine ≠ some (.rejected, s')
  | .fullRebuild _ io => h.state.Mergeable h.drained ∧ io.saveBank = .ok () ∧ io.saveProfile = .ok ()

/-- Every vector drained so far is in the detector's bank. -/
def Retained (h : History F) : Prop :=
  ∀ v ∈ h.drained, ∃ bank ∈ h.state.detectorBank, v ∈ bank.vectors

variable {engine}

theorem retained_step {h h' : History F} {op : EvolutionOp F} (hold : Retained h)
    (hkeeps : Keeps engine h op) (hstep : h.step engine op = some h') : Retained h' := by
  cases op with
  | offer offer =>
    obtain ⟨s, hs, rfl⟩ := Option.map_eq_some_iff.mp hstep
    intro v hv
    rw [(CoresetEvolution.sameBanks_of_offer hs).detectorBank]
    exact hold v hv
  | update =>
    obtain ⟨⟨last, s⟩, hs, rfl⟩ := Option.map_eq_some_iff.mp hstep
    intro v hv
    rcases hkeeps with hnil | ⟨hmerge, hstandby, hgate, hprefilter, hnotRejected⟩
    · cases CoresetEvolution.update_effect hs with
      | idle _ state =>
        simp only [hnil, batchPatches, List.flatMap_nil, List.append_nil] at hv
        exact state ▸ hold v hv
      | discarded nonempty => exact absurd hnil nonempty
      | rejected nonempty => exact absurd hnil nonempty
      | installed nonempty => exact absurd hnil nonempty
    · obtain ⟨next, hnext, hvectors⟩ :=
        CoresetEvolution.nextBank_vectors hmerge hstandby hprefilter
      have hin : v ∈ next.elim [] FeatureBank.vectors := by
        rw [hvectors]
        rcases List.mem_append.mp hv with hv | hv
        · exact hmerge.kept v hv
        · exact List.mem_append_right _ hv
      cases CoresetEvolution.update_effect hs with
      | idle batch state =>
        simp only [batch, batchPatches, List.flatMap_nil, List.append_nil] at hv
        exact state ▸ hold v hv
      | discarded nonempty state reason =>
        rcases reason with hpoor | hnone
        · exact absurd hpoor hgate
        · obtain rfl := Option.some.inj (hnext.symm.trans hnone)
          exact absurd hin List.not_mem_nil
      | rejected => exact absurd hs (hnotRejected s)
      | @installed newBank oldBank profile nonempty next' detector computed state =>
        obtain rfl := Option.some.inj (hnext.symm.trans next')
        have hbank : s.detectorBank = some newBank := by
          rw [state, CoresetEvolution.recordUpdate_detectorBank]
        exact ⟨newBank, hbank, hin⟩
  | fullRebuild savePath io =>
    obtain ⟨⟨result, last, s⟩, hs, rfl⟩ := Option.map_eq_some_iff.mp hstep
    intro v hv
    obtain ⟨hmerge, hsaveBank, hsaveProfile⟩ := hkeeps
    have hin : v ∈ h.state.standbyVectors ++ batchPatches h.state.buffer.candidates := by
      rcases List.mem_append.mp hv with hv | hv
      · exact hmerge.kept v hv
      · exact List.mem_append_right _ hv
    obtain ⟨merged, hmerged, hbuild⟩ := CoresetEvolution.rebuild_vectors hmerge
    obtain ⟨bank, hbank, hne, hmem⟩ := hbuild (List.ne_nil_of_mem hin)
    cases CoresetEvolution.fullRebuild_effect hs with
    | discarded state reason =>
      rcases reason with hdim | hnil | ⟨e, merged', hmerged', herror⟩ | hsave | hsave
      · exact absurd hdim hmerge.dim_pos.ne'
      · exact absurd (Option.some.inj (hmerged.symm.trans hnil)) hne
      · obtain rfl := Option.some.inj (hmerged.symm.trans hmerged')
        rw [hbank] at herror
        cases herror
      · exact absurd hsaveBank hsave
      · exact absurd hsaveProfile hsave
    | @installed merged' newBank profile merge build computed state =>
      obtain rfl := Option.some.inj (hmerged.symm.trans merge)
      obtain rfl := Except.ok.inj (hbank.symm.trans build)
      refine ⟨bank, ?_, (hmem v).mpr hin⟩
      show s.detectorBank = some bank
      rw [state]
      exact (CoresetEvolution.installRebuild_installed bank profile savePath).1

/-- In every run whose operations keep what was drained, every drained vector is in the
detector's bank. -/
theorem drained_vectors_retained {cfg : EvolutionConfig F} {bank : Option (FeatureBank F)}
    {profile : NormalityProfile F} {h : History F}
    (hreach : Transition.Reachable (History.step engine) (Keeps engine)
      (.start cfg bank profile) h) :
    ∀ v ∈ h.drained, ∃ bank ∈ h.state.detectorBank, v ∈ bank.vectors := by
  have hstart : Retained (History.start cfg bank profile) := fun v hv =>
    absurd hv List.not_mem_nil
  exact hreach.invariant (P := Retained) hstart fun _ _ _ => retained_step

end Ordered

/-! ### One-dimensional runs -/

section Line

/-- One-dimensional patches; neighbours are looked up one deep. -/
def lineConfig : EvolutionConfig ℚ where
  enabled := true
  normalityK := 1
  tailRatioMax := 1 / 10
  coverageThreshold := 6 / 10
  coverageSaturationThreshold := 95 / 100
  validationDegradationThreshold := 8 / 10

def lineBank : FeatureBank ℚ := ⟨1, [[0], [2]], by decide⟩

/-- A profile with the medians of the bank's neighbour distances. -/
def lineProfile : NormalityProfile ℚ := ⟨1, 1, 2, 4, 4, 4, 4, 0, 1⟩

/-- A novel frame with one patch. -/
def lineOffer (x : ℚ) : Offer ℚ where
  distances := [4]
  queryCount := 1
  embeddingData := some [x]
  gridH := 1
  gridW := 1
  dim := 1
  detResult := .default
  matchedRulesCount := 0
  reasonerVerdict := "OK"
  effectiveThreshold := 8 / 10
  pcaImageScore := 0
  pcaSelfQueryP95 := 0

def lineStart : History ℚ := .start lineConfig (some lineBank) lineProfile

def lineOffered : History ℚ := (lineStart.step flatL2 (.offer (lineOffer 1))).get (by decide +kernel)

def lineUpdated : History ℚ := (lineOffered.step flatL2 .update).get (by decide +kernel)

theorem drained_vectors_retained_once :
    lineUpdated.drained = [[1]] ∧
      ∀ v ∈ lineUpdated.drained, ∃ bank ∈ lineUpdated.state.detectorBank, v ∈ bank.vectors := by
  have hmerge : lineOffered.state.Mergeable lineOffered.drained :=
    ⟨by decide +kernel, by decide +kernel, by decide +kernel, by decide +kernel, by decide +kernel⟩
  have haccepted : (lineOffered.state.update flatL2).map Prod.fst = some (.installed 100) := by
    decide +kernel
  have hkeeps : Keeps flatL2 lineOffered .update := by
    refine .inr ⟨hmerge, by decide +kernel, by decide +kernel, by decide +kernel, ?_⟩
    intro s' hs'
    rw [hs'] at haccepted
    cases haccepted
  have hreach : Transition.Reachable (History.step flatL2) (Keeps flatL2)
      (.start lineConfig (some lineBank) lineProfile) lineUpdated := by
    refine .next (.next .start (a := .offer (lineOffer 1)) trivial ?_) hkeeps ?_
    · exact (Option.some_get _).symm
    · exact (Option.some_get _).symm
  exact ⟨by decide +kernel, drained_vectors_retained hreach⟩

def lineReoffered : History ℚ :=
  (lineUpdated.step flatL2 (.offer (lineOffer (3 / 2)))).get (by decide +kernel)

def lineReupdated : History ℚ := (lineReoffered.step flatL2 .update).get (by decide +kernel)

/-- A second accepted update drops the patch the first one added. -/
theorem drained_vector_dropped :
    Transition.run (History.step flatL2) lineStart
        [.offer (lineOffer 1), .update, .offer (lineOffer (3 / 2)), .update] = some lineReupdated ∧
      lineUpdated.last = .installed 100 ∧ lineReupdated.last = .installed 100 ∧
      [1] ∈ lineReupdated.drained ∧
      ¬∃ bank ∈ lineReupdated.state.detectorBank, [1] ∈ bank.vectors := by
  refine ⟨?_, by decide +kernel, by decide +kernel, by decide +kernel, ?_⟩
  · have hoffer : lineStart.step flatL2 (.offer (lineOffer 1)) = some lineOffered :=
      (Option.some_get _).symm
    have hupdate : lineOffered.step flatL2 .update = some lineUpdated := (Option.some_get _).symm
    have hreoffer : lineUpdated.step flatL2 (.offer (lineOffer (3 / 2))) = some lineReoffered :=
      (Option.some_get _).symm
    have hreupdate : lineReoffered.step flatL2 .update = some lineReupdated :=
      (Option.some_get _).symm
    simp only [Transition.run_cons, Transition.run_nil, hoffer, hupdate, hreoffer, hreupdate,
      Option.bind_some]
  · have hvectors : lineReupdated.state.detectorBank.map FeatureBank.vectors =
        some [[0], [2], [3 / 2]] := by decide +kernel
    rintro ⟨bank, hbank, hin⟩
    rw [Option.mem_def.mp hbank, Option.map_some, Option.some.injEq] at hvectors
    rw [hvectors] at hin
    exact absurd hin (by decide +kernel)

end Line

end SurfaceAi.Detection
