import SurfaceAi.Pipeline.PipelineBuilder

/-! When an accepted configuration is wired as one chain. Nothing but the number of entry
stages decides it: with one entry and no fan-out, the edges are too few for a stage to have two
upstreams, and what the walk from the entry misses would depend on itself. -/

namespace SurfaceAi.Pipeline.PipelineBuilder

variable {α : Type} {config : PipelineConfig} {stages : List StageConfig} {w : Wiring α}

/-- What the accepted stages satisfy, as far as the wiring depends on it. -/
structure Accepted (stages : List StageConfig) : Prop where
  nodup : (ids stages).Nodup
  references : ∀ s ∈ stages, ∀ dep ∈ s.dependsOn, dep ∈ ids stages
  acyclic : isAcyclic stages = true
  captureEntry : ∃ s ∈ stages, isEntry s = true ∧ s.type = .capture
  exportExit : ∃ s ∈ stages, isExit stages s = true ∧ s.type = .exportStage
  fanOut : ∀ id, (dependedOn stages).count id ≤ 1

theorem nodup_of_checkIds {seen : List String} (h : checkIds stages seen = .ok ()) :
    (ids stages).Nodup ∧ ∀ id ∈ ids stages, id ∉ seen := by
  induction stages generalizing seen with
  | nil => simp [ids]
  | cons s stages ih =>
    simp only [checkIds, seq_eq_ok, failIf_eq_ok] at h
    obtain ⟨-, hnew, hrest⟩ := h
    obtain ⟨hnodup, hseen⟩ := ih hrest
    have hid : s.id ∉ ids stages := fun hmem => hseen s.id hmem List.mem_cons_self
    refine ⟨List.nodup_cons.mpr ⟨hid, hnodup⟩, fun id hmem => ?_⟩
    rcases List.mem_cons.mp hmem with rfl | hmem
    · simpa using hnew
    · exact fun hold => hseen id hmem (List.mem_cons_of_mem _ hold)

theorem accepted_of_validate (h : validate config = .ok ()) : Accepted config.stages := by
  simp only [validate, seq_eq_ok, failIf_eq_ok, checkAll_eq_ok] at h
  obtain ⟨-, -, -, hids, hrefs, hacyclic, -, -, hentry, hexit, hfan, -⟩ := h
  refine ⟨(nodup_of_checkIds hids).1, ?_, by simpa using hacyclic, ?_, ?_, ?_⟩
  · intro s hs dep hdep
    have href := checkAll_eq_ok.mp (hrefs s hs) dep hdep
    simpa using href
  · simpa using hentry
  · simpa using hexit
  · intro id
    by_cases hid : id ∈ dependedOn config.stages
    · have hcount := hfan id (mem_sortedKeys.mpr hid)
      simpa [checkFanOut] using hcount
    · simp [List.count_eq_zero_of_not_mem hid]

/-- The wiring is one chain: the entry is a Capture stage, the walk along the downstreams from
it meets every stage once, no stage has two downstreams or two upstreams, and the walk ends at
an Export stage that delivers to none. -/
structure IsChain (config : PipelineConfig) (w : Wiring α) : Prop where
  entry : ∃ s ∈ config.stages, s.id = w.entryStageId ∧ s.type = .capture
  visits : (Walk.follow w.downstreams config.stages.length w.entryStageId).Perm (ids config.stages)
  downstream : ∀ a, (w.downstreams a).length ≤ 1
  upstream : ∀ a b x, x ∈ w.downstreams a → x ∈ w.downstreams b → a = b
  last : ∃ s ∈ config.stages, s.type = .exportStage ∧ w.downstreams s.id = [] ∧
    (Walk.follow w.downstreams config.stages.length w.entryStageId).getLast? = some s.id

theorem wiring_eq (h : buildQueueWiring config = .ok w) :
    w.downstreams = consumers config.stages ∧
      w.entryStageId = ((config.stages.find? isEntry).map StageConfig.id).getD "" := by
  obtain ⟨queues, -, hw⟩ := bind_eq_ok.mp h
  cases hw
  exact ⟨rfl, rfl⟩

/-! ### One entry -/

theorem countP_pos_le_sum {β : Type} (f : β → ℕ) (l : List β) :
    (l.countP fun x => decide (0 < f x)) ≤ (l.map f).sum := by
  induction l with
  | nil => simp
  | cons y l ih =>
    rw [List.countP_cons, List.map_cons, List.sum_cons]
    split_ifs with hy
    · have hpos := of_decide_eq_true hy
      omega
    · omega

/-- Sizes that sum up to no more than the number of positive ones are at most one. -/
theorem le_one_of_sum_le {β : Type} (f : β → ℕ) {l : List β}
    (h : (l.map f).sum ≤ l.countP fun x => decide (0 < f x)) : ∀ x ∈ l, f x ≤ 1 := by
  induction l with
  | nil => simp
  | cons y l ih =>
    have hle := countP_pos_le_sum f l
    rw [List.countP_cons, List.map_cons, List.sum_cons] at h
    intro x hx
    by_cases hy : 0 < f y
    · simp only [hy, decide_true, if_true] at h
      rcases List.mem_cons.mp hx with rfl | hx
      · omega
      · exact ih (by omega) x hx
    · simp only [hy, decide_false, Bool.false_eq_true, if_false] at h
      rcases List.mem_cons.mp hx with rfl | hx
      · omega
      · exact ih (by omega) x hx

/-- Some stage has no consumer, so there are fewer edges than stages. -/
theorem Accepted.length_dependedOn_lt (h : Accepted stages) :
    (dependedOn stages).length < stages.length := by
  obtain ⟨e, he, hexit, -⟩ := h.exportExit
  have hnodup : (dependedOn stages).Nodup := List.nodup_iff_count_le_one.mpr h.fanOut
  have hmem : e.id ∈ ids stages := mem_ids.mpr ⟨e, he, rfl⟩
  have hsubset : dependedOn stages ⊆ (ids stages).erase e.id := by
    intro d hd
    obtain ⟨s, hs, hdep⟩ := mem_dependedOn.mp hd
    refine (h.nodup.mem_erase_iff).mpr ⟨?_, h.references s hs d hdep⟩
    rintro rfl
    simp [isExit, hd] at hexit
  have hle := (List.subperm_of_subset hnodup hsubset).length_le
  have hpos := List.length_pos_of_mem hmem
  rw [List.length_erase_of_mem hmem] at hle
  have hlen : (ids stages).length = stages.length := List.length_map _
  omega

/-- With one entry no stage has two upstreams. -/
theorem Accepted.length_dependsOn_le (h : Accepted stages) (hone : stages.countP isEntry = 1) :
    ∀ s ∈ stages, s.dependsOn.length ≤ 1 := by
  apply le_one_of_sum_le fun s : StageConfig => s.dependsOn.length
  have hsplit := List.length_eq_countP_add_countP isEntry (l := stages)
  have hnot : (stages.countP fun s => decide (0 < s.dependsOn.length)) =
      stages.countP fun s => decide ¬ isEntry s = true := by
    apply List.countP_congr
    intro s _
    simp [isEntry, List.length_pos_iff]
  have hsum : (stages.map fun s => s.dependsOn.length).sum = (dependedOn stages).length := by
    simp [dependedOn, List.length_flatMap]
  have hlt := h.length_dependedOn_lt
  rw [hsum, hnot]
  omega

theorem entry_of_wiring (h : Accepted config.stages) (hw : buildQueueWiring config = .ok w) :
    ∃ s ∈ config.stages, isEntry s = true ∧ s.id = w.entryStageId := by
  obtain ⟨c, hc, hentry, -⟩ := h.captureEntry
  obtain ⟨s, hs⟩ := Option.isSome_iff_exists.mp (List.find?_isSome.mpr ⟨c, hc, hentry⟩)
  refine ⟨s, List.mem_of_find?_eq_some hs, List.find?_some hs, ?_⟩
  rw [(wiring_eq hw).2, hs]
  rfl

theorem eq_of_countP_eq_one {β : Type} {p : β → Bool} {l : List β} (h : l.countP p = 1) {x y : β}
    (hx : x ∈ l) (hy : y ∈ l) (hpx : p x = true) (hpy : p y = true) : x = y := by
  rw [List.countP_eq_length_filter] at h
  obtain ⟨z, hz⟩ := List.length_eq_one_iff.mp h
  have hxz := List.mem_filter.mpr ⟨hx, hpx⟩
  have hyz := List.mem_filter.mpr ⟨hy, hpy⟩
  rw [hz, List.mem_singleton] at hxz hyz
  rw [hxz, hyz]

/-- A stage that depends on nothing is nobody's downstream. -/
theorem Accepted.notMem_consumers (h : Accepted stages) {s : StageConfig} (hs : s ∈ stages)
    (hentry : isEntry s = true) (d : String) : s.id ∉ consumers stages d := by
  intro hmem
  obtain ⟨t, ht, hid, hdep⟩ := mem_consumers.mp hmem
  obtain rfl := eq_of_id_eq h.nodup ht hs hid
  rw [isEntry, List.isEmpty_iff] at hentry
  rw [hentry] at hdep
  cases hdep

theorem Accepted.length_consumers_le (h : Accepted stages) (a : String) :
    (consumers stages a).length ≤ 1 := by
  rw [length_consumers]
  exact h.fanOut a

theorem Accepted.upstream_unique (h : Accepted stages) (hone : stages.countP isEntry = 1)
    (a b x : String) (ha : x ∈ consumers stages a) (hb : x ∈ consumers stages b) : a = b := by
  obtain ⟨s, hs, hsid, hadep⟩ := mem_consumers.mp ha
  obtain ⟨t, ht, htid, hbdep⟩ := mem_consumers.mp hb
  obtain rfl := eq_of_id_eq h.nodup hs ht (hsid.trans htid.symm)
  exact Walk.eq_of_length_le_one (h.length_dependsOn_le hone s hs) hadep hbdep

theorem isEntry_of_dependencies {s : StageConfig} (hs : s ∈ stages)
    (hnone : dependencies stages s.id = []) : isEntry s = true := by
  rw [isEntry, List.isEmpty_iff, List.eq_nil_iff_forall_not_mem]
  intro d hd
  have hmem := mem_dependencies.mpr ⟨s, hs, rfl, hd⟩
  rw [hnone] at hmem
  cases hmem

theorem Accepted.follow_perm (h : Accepted stages) (hone : stages.countP isEntry = 1)
    {e : StageConfig} (he : e ∈ stages) (hentry : isEntry e = true) :
    (Walk.follow (consumers stages) stages.length e.id).Perm (ids stages) := by
  have hlen : (ids stages).length = stages.length := List.length_map _
  rw [← hlen]
  refine Walk.follow_perm h.nodup consumers_subset h.length_consumers_le ?_
    (mem_ids.mpr ⟨e, he, rfl⟩) ?_ ?_ (eq_empty_of_isAcyclic h.acyclic) (h.upstream_unique hone)
    (h.notMem_consumers he hentry)
  · intro x d hd
    exact mem_consumers.mpr (mem_dependencies.mp hd)
  · intro x hx hnone
    obtain ⟨s, hs, rfl⟩ := mem_ids.mp hx
    rw [eq_of_countP_eq_one hone hs he (isEntry_of_dependencies hs hnone) hentry]
  · intro x d hd
    obtain ⟨s, hs, -, hdep⟩ := mem_dependencies.mp hd
    exact h.references s hs d hdep

theorem isChain_of_one_entry (h : Accepted config.stages)
    (hw : buildQueueWiring config = .ok w) (hone : config.stages.countP isEntry = 1) :
    IsChain config w := by
  obtain ⟨hnext, -⟩ := wiring_eq hw
  obtain ⟨e, he, hentry, hid⟩ := entry_of_wiring h hw
  obtain ⟨c, hc, hcentry, hcapture⟩ := h.captureEntry
  obtain ⟨x, hx, hexit, hexport⟩ := h.exportExit
  have hperm := h.follow_perm hone he hentry
  have hend : consumers config.stages x.id = [] := by
    rw [← List.length_eq_zero_iff, length_consumers, List.count_eq_zero]
    simpa [isExit] using hexit
  have hlast := Walk.getLast?_follow (hperm.mem_iff.mpr (mem_ids.mpr ⟨x, hx, rfl⟩)) hend
  obtain rfl := eq_of_countP_eq_one hone hc he hcentry hentry
  rw [hid] at hperm hlast
  rw [← hnext] at hperm hlast hend
  exact {
    entry := ⟨c, hc, hid, hcapture⟩
    visits := hperm
    downstream := by
      rw [hnext]
      exact h.length_consumers_le
    upstream := by
      rw [hnext]
      exact h.upstream_unique hone
    last := ⟨x, hx, hexport, hend, hlast⟩ }

/-- What a chain reaches is its entry or has an upstream, so no other stage depends on
nothing. -/
theorem IsChain.one_entry (hchain : IsChain config w) (h : Accepted config.stages)
    (hw : buildQueueWiring config = .ok w) : config.stages.countP isEntry = 1 := by
  obtain ⟨hnext, -⟩ := wiring_eq hw
  obtain ⟨e, he, hentry, hid⟩ := entry_of_wiring h hw
  have honly : ∀ s ∈ config.stages, isEntry s = true ↔ s = e := by
    intro s hs
    refine ⟨fun hsentry => ?_, fun heq => heq ▸ hentry⟩
    have hreached := hchain.visits.mem_iff.mpr (mem_ids.mpr ⟨s, hs, rfl⟩)
    obtain ⟨i, hi, hat⟩ := List.mem_iff_getElem.mp hreached
    cases i with
    | zero =>
      rw [Walk.getElem_zero_follow] at hat
      exact eq_of_id_eq h.nodup hs he (hat.symm.trans hid.symm)
    | succ i =>
      have hmem := Walk.mem_next_follow hi
      have hnot := h.notMem_consumers hs hsentry
      rw [← hnext] at hnot
      rw [hat] at hmem
      exact absurd hmem (hnot _)
  have hcount : config.stages.countP isEntry = config.stages.count e := by
    apply List.countP_congr
    intro s hs
    rw [honly s hs, beq_iff_eq]
  rw [hcount]
  exact List.count_eq_one_of_mem (List.Nodup.of_map _ h.nodup) he

/-- An accepted configuration is wired as one chain exactly if it has one entry stage. -/
theorem wired_as_chain_iff (hv : validate config = .ok ()) (hw : buildQueueWiring config = .ok w) :
    IsChain config w ↔ config.stages.countP isEntry = 1 := by
  have h := accepted_of_validate hv
  exact ⟨fun hchain => hchain.one_entry h hw, isChain_of_one_entry h hw⟩

/-- The inspection pipeline of the seat application. -/
def seatConfig : PipelineConfig where
  name := "seat_aoi_inspection"
  version := "1.0"
  stages := [
    ⟨"capture", .capture, [], .dropOldest, none⟩,
    ⟨"preprocess", .preprocess, ["capture"], .block, none⟩,
    ⟨"inference", .inference, ["preprocess"], .block, none⟩,
    ⟨"detect", .detect, ["inference"], .block, none⟩,
    ⟨"rule_eval", .ruleEval, ["detect"], .block, none⟩,
    ⟨"reason", .reason, ["rule_eval"], .block, none⟩,
    ⟨"export", .exportStage, ["reason"], .block, none⟩]

theorem seat_wired_as_chain :
    ∃ w : Wiring ℕ, buildQueueWiring seatConfig = .ok w ∧ IsChain seatConfig w :=
  ⟨_, rfl, (wired_as_chain_iff (by decide +kernel) rfl).mpr (by decide +kernel)⟩

/-- A camera and an exporter that nothing connects. -/
def disconnectedConfig : PipelineConfig where
  name := "seat_aoi_inspection"
  version := "1.0"
  stages := [⟨"capture", .capture, [], .block, none⟩, ⟨"export", .exportStage, [], .block, none⟩]

theorem disconnected_stages_accepted :
    ¬ ∀ (config : PipelineConfig) (w : Wiring ℕ), validate config = .ok () →
      buildQueueWiring config = .ok w → IsChain config w := by
  intro h
  have hchain := h disconnectedConfig _ (by decide +kernel) rfl
  -- the walk ends at the camera
  have hlen := hchain.visits.length_eq
  exact absurd hlen (by decide +kernel)

end SurfaceAi.Pipeline.PipelineBuilder
