import SurfaceAi.Pipeline.PipelineChain

/-! The graph of the stages of a configuration. The acyclicity check is exact, so a graph that
passes it has a stage that depends on nothing and a stage that nothing depends on: the two
checks for an entry and for an exit that follow it never fail. -/

namespace SurfaceAi.Pipeline.PipelineBuilder

variable {stages : List StageConfig}

/-- A stage of id `a` names `b` among what it depends on. -/
def DependsOn (stages : List StageConfig) (a b : String) : Prop :=
  ∃ s ∈ stages, s.id = a ∧ b ∈ s.dependsOn

/-- Every stage depends on stages only, as far as `depends_on` goes. -/
def Closed (stages : List StageConfig) : Prop :=
  ∀ s ∈ stages, ∀ dep ∈ s.dependsOn, dep ∈ ids stages

theorem kahn_dependsOn : Kahn.DependsOn (ids stages) (dependencies stages) = DependsOn stages := by
  funext a b
  apply propext
  rw [Kahn.DependsOn, mem_dependencies, mem_ids]
  exact ⟨And.right, fun h => ⟨let ⟨s, hs, hid, _⟩ := h; ⟨s, hs, hid⟩, h⟩⟩

theorem kahnStart_caught : Kahn.Caught (ids stages) (kahnStart stages) := by
  intro x hx hzero
  simp only [kahnStart, List.nil_append, List.mem_filter, mem_sortedKeys, decide_eq_true_eq]
  exact ⟨hx, by simpa [kahnStart] using hzero⟩

/-- The acyclicity check is exact. -/
theorem isAcyclic_iff (hnodup : (ids stages).Nodup) (hclosed : Closed stages) :
    isAcyclic stages = true ↔ Cycles.Acyclic (DependsOn stages) := by
  have hlen : (ids stages).length = stages.length := List.length_map _
  have hdeps : ∀ x ∈ ids stages, dependencies stages x ⊆ ids stages := by
    intro x _ d hd
    obtain ⟨s, hs, -, hdep⟩ := mem_dependencies.mp hd
    exact hclosed s hs d hdep
  rw [← kahn_dependsOn, ← Kahn.length_visited_iff_acyclic kahnStart_inv kahnStart_caught
    count_consumers_eq consumers_subset hdeps hnodup rfl hlen.le, hlen]
  exact decide_eq_true_iff

theorem finite_ids : {x | x ∈ ids stages}.Finite := List.finite_toSet (ids stages)

theorem exists_entry (hacyclic : Cycles.Acyclic (DependsOn stages)) (hclosed : Closed stages)
    (hne : stages ≠ []) : stages.any isEntry = true := by
  obtain ⟨s₀, hs₀⟩ := List.exists_mem_of_ne_nil stages hne
  obtain ⟨x, hx, hlast⟩ := hacyclic.exists_last (S := {x | x ∈ ids stages}) finite_ids
    ⟨s₀.id, mem_ids.mpr ⟨s₀, hs₀, rfl⟩⟩
  obtain ⟨s, hs, rfl⟩ := mem_ids.mp hx
  refine List.any_eq_true.mpr ⟨s, hs, List.isEmpty_iff.mpr ?_⟩
  rw [List.eq_nil_iff_forall_not_mem]
  exact fun d hd => hlast d (hclosed s hs d hd) ⟨s, hs, rfl, hd⟩

theorem exists_exit (hacyclic : Cycles.Acyclic (DependsOn stages)) (hne : stages ≠ []) :
    stages.any (isExit stages) = true := by
  obtain ⟨s₀, hs₀⟩ := List.exists_mem_of_ne_nil stages hne
  obtain ⟨x, hx, hfirst⟩ := hacyclic.exists_first (S := {x | x ∈ ids stages}) finite_ids
    ⟨s₀.id, mem_ids.mpr ⟨s₀, hs₀, rfl⟩⟩
  obtain ⟨s, hs, rfl⟩ := mem_ids.mp hx
  refine List.any_eq_true.mpr ⟨s, hs, ?_⟩
  have hnot : s.id ∉ dependedOn stages := by
    intro hmem
    obtain ⟨t, ht, hdep⟩ := mem_dependedOn.mp hmem
    exact hfirst t.id (mem_ids.mpr ⟨t, ht, rfl⟩) ⟨t, ht, rfl, hdep⟩
  simpa [isExit] using hnot

/-! ### The errors of the validation -/

/-- An early return with an error of another text. -/
theorem failIf_ne {bad : Bool} {code : ErrorCode} {text : String} {e : ErrorInfo}
    (h : text ≠ e.message) : failIf bad code text ≠ .error e := by
  unfold failIf
  split
  · intro heq
    exact h (congrArg ErrorInfo.message (Except.error.inj heq))
  · exact nofun

theorem checkAll_ne {α : Type*} {body : α → Result Unit} {e : ErrorInfo} {xs : List α}
    (h : ∀ x ∈ xs, body x ≠ .error e) : checkAll body xs ≠ .error e := by
  induction xs with
  | nil => exact nofun
  | cons x xs ih =>
    rw [checkAll]
    cases hbody : body x with
    | error e' =>
      intro heq
      exact h x List.mem_cons_self (by rw [hbody]; exact heq)
    | ok u => exact ih fun y hy => h y (List.mem_cons_of_mem _ hy)

/-- An error of two steps that is not one of the first is one of the second. -/
theorem seq_ne {x y : Result Unit} {e : ErrorInfo} (hx : x ≠ .error e)
    (hy : x = .ok () → y ≠ .error e) : (x >>= fun _ => y) ≠ .error e := by
  cases x with
  | error e' => exact fun heq => hx heq
  | ok u => exact hy rfl

/-- A text that begins with a fixed part of it is not another one that begins otherwise. -/
theorem append_ne {front back text : String} {c : Char} (hfront : front.toList.head? = some c)
    (htext : text.toList.head? ≠ some c) : front ++ back ≠ text := by
  rintro rfl
  apply htext
  rw [String.toList_append, List.head?_append, hfront]
  rfl

theorem checkIds_ne {seen : List String} {e : ErrorInfo} (he : e.message.toList.head? = some 'n') :
    checkIds stages seen ≠ .error e := by
  induction stages generalizing seen with
  | nil => exact nofun
  | cons s stages ih =>
    rw [checkIds]
    refine seq_ne (failIf_ne ?_) fun _ => seq_ne (failIf_ne ?_) fun _ => ih
    · rintro h
      rw [← h] at he
      exact absurd he (by decide)
    · exact append_ne (c := 'd') (by decide) (by rw [he]; decide)

theorem checkReferences_ne {e : ErrorInfo} (he : e.message.toList.head? = some 'n')
    (s : StageConfig) : checkReferences stages s ≠ .error e := by
  refine checkAll_ne fun dep _ => failIf_ne ?_
  rw [String.append_assoc, String.append_assoc, String.append_assoc]
  exact append_ne (c := 's') (by decide) (by rw [he]; decide)

theorem checkFanOut_ne {e : ErrorInfo} (he : e.message.toList.head? = some 'n') (id : String) :
    checkFanOut stages id ≠ .error e := by
  refine failIf_ne ?_
  rw [String.append_assoc, String.append_assoc, String.append_assoc]
  exact append_ne (c := 'v') (by decide) (by rw [he]; decide)

theorem checkEdgeTypes_ne {e : ErrorInfo} (he : e.message.toList.head? = some 'n')
    (s : StageConfig) : checkEdgeTypes stages s ≠ .error e := by
  refine checkAll_ne fun dep _ => ?_
  split
  · apply failIf_ne
    rw [String.append_assoc, String.append_assoc]
    exact append_ne (c := 't') (by decide) (by rw [he]; decide)
  · exact nofun

theorem closed_of_checkReferences (h : checkAll (checkReferences stages) stages = .ok ()) :
    Closed stages := by
  intro s hs dep hdep
  have href := checkAll_eq_ok.mp (checkAll_eq_ok.mp h s hs) dep hdep
  simpa using href

/-- The errors whose texts begin as those of the missing entry and the missing exit do are none
that a validation returns. -/
theorem validate_ne {config : PipelineConfig} {e : ErrorInfo}
    (he : e.message.toList.head? = some 'n') : validate config ≠ .error e := by
  have hother : ∀ text : String, text.toList.head? ≠ some 'n' → text ≠ e.message := by
    rintro text htext rfl
    exact htext he
  unfold validate
  refine seq_ne (failIf_ne (hother _ (by decide))) fun _ => ?_
  refine seq_ne (failIf_ne ?_) fun _ => ?_
  · exact append_ne (c := 'p') (by decide) (by rw [he]; decide)
  refine seq_ne (failIf_ne (hother _ (by decide))) fun hsome => ?_
  refine seq_ne (checkIds_ne he) fun hids => ?_
  refine seq_ne (checkAll_ne fun s _ => checkReferences_ne he s) fun hrefs => ?_
  refine seq_ne (failIf_ne (hother _ (by decide))) fun hkahn => ?_
  have hclosed := closed_of_checkReferences hrefs
  have hne : config.stages ≠ [] := by simpa using hsome
  have hacyclic : Cycles.Acyclic (DependsOn config.stages) :=
    (isAcyclic_iff (nodup_of_checkIds hids).1 hclosed).mp (by simpa using hkahn)
  -- the two checks pass: the graph has a stage at either end
  rw [exists_entry hacyclic hclosed hne, exists_exit hacyclic hne]
  refine seq_ne nofun fun _ => seq_ne nofun fun _ => ?_
  refine seq_ne (failIf_ne (hother _ (by decide))) fun _ => ?_
  refine seq_ne (failIf_ne (hother _ (by decide))) fun _ => ?_
  refine seq_ne (checkAll_ne fun id _ => checkFanOut_ne he id) fun _ => ?_
  exact checkAll_ne fun s _ => checkEdgeTypes_ne he s

/-- The loop of the check ends with nothing queued, its answer is exact, and a validation never
returns that the entry or the exit is missing. -/
theorem kahn_check_exact (stages : List StageConfig) (hnodup : (ids stages).Nodup)
    (hclosed : Closed stages) :
    (Kahn.loop (consumers stages) stages.length (kahnStart stages)).queue = [] ∧
      (isAcyclic stages = true ↔ Cycles.Acyclic (DependsOn stages)) ∧
      (isAcyclic stages = true → stages ≠ [] →
        stages.any isEntry = true ∧ stages.any (isExit stages) = true) ∧
      ∀ name version,
        validate ⟨name, version, stages⟩ ≠
            fail .pipelineInvalidConfig "no entry stage (empty depends_on) found" ∧
          validate ⟨name, version, stages⟩ ≠ fail .pipelineInvalidConfig "no exit stage found" := by
  have hexact := isAcyclic_iff hnodup hclosed
  refine ⟨isAcyclic_queue_eq_nil, hexact, fun hkahn hne => ?_, fun name version => ?_⟩
  · have hacyclic := hexact.mp hkahn
    exact ⟨exists_entry hacyclic hclosed hne, exists_exit hacyclic hne⟩
  · exact ⟨validate_ne (by decide), validate_ne (by decide)⟩

/-- Stages that name what they depend on twice. -/
def doubledEdges : List StageConfig :=
  [{ id := "merge", type := .detect, dependsOn := ["left", "right", "left"] },
    { id := "left", type := .preprocess, dependsOn := ["source", "source"] },
    { id := "right", type := .preprocess, dependsOn := ["source", "source"] },
    { id := "source", type := .capture, dependsOn := [] }]

theorem kahn_check_doubledEdges :
    (Kahn.loop (consumers doubledEdges) doubledEdges.length (kahnStart doubledEdges)).queue = [] ∧
      (isAcyclic doubledEdges = true ↔ Cycles.Acyclic (DependsOn doubledEdges)) ∧
      (isAcyclic doubledEdges = true → doubledEdges ≠ [] →
        doubledEdges.any isEntry = true ∧ doubledEdges.any (isExit doubledEdges) = true) ∧
      ∀ name version,
        validate ⟨name, version, doubledEdges⟩ ≠
            fail .pipelineInvalidConfig "no entry stage (empty depends_on) found" ∧
          validate ⟨name, version, doubledEdges⟩ ≠
            fail .pipelineInvalidConfig "no exit stage found" :=
  kahn_check_exact doubledEdges (by decide) (by
    intro s hs dep hdep
    revert dep
    revert s
    decide)

end SurfaceAi.Pipeline.PipelineBuilder
