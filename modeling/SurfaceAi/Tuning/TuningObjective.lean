import Mathlib.Algebra.Order.Ring.Rat
import Mathlib.Order.Defs.Unbundled
import Mathlib.Tactic.NormNum
import Mathlib.Data.Finset.Max
import SurfaceAi.Knowledge.Graph

/-! The cost of a threshold, counted over the records of type GroundTruth in the knowledge graph.
The simulated evaluation replays a record's detection score against the candidate threshold where
there is a score; the legacy one reads the stored verdict only. A record is skipped or counted in
one cell, so what holds of the cells holds of the counts. -/

namespace SurfaceAi.Tuning

open Knowledge

/-- False and true positives and negatives. -/
inductive Cell where
  | fp | fn | tp | tn
  deriving DecidableEq, Repr

structure Counts where
  fp : ℕ
  fn : ℕ
  tp : ℕ
  tn : ℕ
  deriving DecidableEq, Repr

namespace Counts

def total (c : Counts) : ℕ := c.fp + c.fn + c.tp + c.tn

def increment (c : Counts) : Cell → Counts
  | .fp => { c with fp := c.fp + 1 }
  | .fn => { c with fn := c.fn + 1 }
  | .tp => { c with tp := c.tp + 1 }
  | .tn => { c with tn := c.tn + 1 }

/-- The loop over the records: `none` skips one. -/
def count {α : Type} (cellOf : α → Option Cell) (nodes : List α) : Counts :=
  nodes.foldl (fun c node => (cellOf node).elim c c.increment) ⟨0, 0, 0, 0⟩

section Loop

variable {α : Type} (f : α → Option Cell)

/-- From any start, the loop adds to each counter the records of its cell. -/
theorem foldl_increment (nodes : List α) (c : Counts) :
    nodes.foldl (fun c node => (f node).elim c c.increment) c =
      ⟨c.fp + nodes.countP (f · = some .fp), c.fn + nodes.countP (f · = some .fn),
        c.tp + nodes.countP (f · = some .tp), c.tn + nodes.countP (f · = some .tn)⟩ := by
  induction nodes generalizing c with
  | nil => rfl
  | cons node nodes ih =>
    rw [List.foldl_cons, ih]
    rcases hcell : f node with _ | cell
    · simp [hcell]
    · cases cell <;> simp [hcell, increment, Nat.add_assoc, Nat.add_comm 1]

theorem count_eq (nodes : List α) :
    count f nodes = ⟨nodes.countP (f · = some .fp), nodes.countP (f · = some .fn),
      nodes.countP (f · = some .tp), nodes.countP (f · = some .tn)⟩ := by
  rw [count, foldl_increment]
  simp only [Nat.zero_add]

/-- Every record that is not skipped is counted once. -/
theorem total_count (nodes : List α) : (count f nodes).total = nodes.countP (f · |>.isSome) := by
  rw [count_eq, total]
  induction nodes with
  | nil => rfl
  | cons node nodes ih =>
    simp only [List.countP_cons]
    rcases hcell : f node with _ | cell
    · simpa using ih
    · cases cell <;> simp at ih ⊢ <;> omega

variable {f} {g : α → Option Cell} {nodes : List α}

theorem count_congr (h : ∀ node ∈ nodes, f node = g node) : count f nodes = count g nodes := by
  rw [count_eq, count_eq]
  congr 1 <;> exact List.countP_congr fun node hnode => by rw [h node hnode]

end Loop

end Counts

namespace GroundTruth

variable {F : Type} (node : KnowledgeNode F)

def field (name : String) : Option (FieldValue F) := node.properties.fields.lookup name

/-- The timestamp where it is an integer and not before `sinceUs`. -/
def counted (sinceUs : ℤ) : Bool :=
  match field node "timestamp" with
  | some (.int ts) => !decide (ts < sinceUs)
  | _ => false

def machineVerdict : Option String :=
  match field node "machine_verdict" with
  | some (.string mv) => some mv
  | _ => none

def notOk (verdict : String) : Bool := verdict ≠ "OK"

/-- The label where there is one, else `bootstrap`: a label that is no string reads as not NG. -/
def groundTruthNg (bootstrap : Option Bool) : Option Bool :=
  match field node "human_label" with
  | some (.string label) => some (label = "NG")
  | some _ => some false
  | none => bootstrap

def classify (machineNg groundTruthNg : Bool) : Cell :=
  if machineNg && groundTruthNg then .tp
  else if !machineNg && !groundTruthNg then .tn
  else if machineNg && !groundTruthNg then .fp
  else .fn

/-- The body of the loop of `EvaluateLegacy`. -/
def legacyCell (sinceUs : ℤ) : Option Cell :=
  if counted node sinceUs then do
    let mv ← machineVerdict node
    let groundTruthNg ← groundTruthNg node (some (notOk mv))
    let machineOk := decide (mv = "OK")
    return classify (!machineOk) groundTruthNg
  else none

variable [LT F] [DecidableLT F]

/-- The verdict of the score under the candidate threshold, else the stored one. -/
def machineNg (ngThreshold : F) : Option Bool :=
  match field node "detection_score" with
  | some (.double score) => some (ngThreshold < score)
  | _ => (machineVerdict node).map notOk

/-- The body of the loop of `EvaluateSimulated`. -/
def simulatedCell (ngThreshold : F) (sinceUs : ℤ) : Option Cell :=
  if counted node sinceUs then do
    let groundTruthNg ← groundTruthNg node ((machineVerdict node).map notOk)
    let machineNg ← machineNg node ngThreshold
    return classify machineNg groundTruthNg
  else none

variable {node} in
/-- Without a score the simulation reads the stored verdict, and each skips what the other
skips. -/
theorem simulatedCell_of_no_score (h : ∀ score, field node "detection_score" ≠ some (.double score))
    (ngThreshold : F) (sinceUs : ℤ) :
    simulatedCell node ngThreshold sinceUs = legacyCell node sinceUs := by
  have hmachine : machineNg node ngThreshold = (machineVerdict node).map notOk := by
    rw [machineNg]
    split
    · next score hscore => exact absurd hscore (h score)
    · rfl
  rw [simulatedCell, legacyCell, hmachine]
  split_ifs with hcounted
  · rcases hverdict : machineVerdict node with _ | mv
    · cases groundTruthNg node (Option.map notOk none) <;> rfl
    · simp [notOk]
  · rfl

/-- A higher threshold turns the machine's verdict from NG to OK or leaves it. -/
theorem machineNg_of_lt [IsTrans F (· < ·)] {a b : F} (hab : a < b) :
    machineNg node a = machineNg node b ∨
      machineNg node a = some true ∧ machineNg node b = some false := by
  simp only [machineNg]
  split
  · next score hscore =>
    by_cases hb : b < score
    · exact .inl (by simp [hb, trans_of (· < ·) hab hb])
    · by_cases ha : a < score <;> simp [ha, hb]
  · exact .inl rfl

theorem simulatedCell_of_lt [IsTrans F (· < ·)] {a b : F} (hab : a < b) (sinceUs : ℤ) :
    simulatedCell node a sinceUs = simulatedCell node b sinceUs ∨
      simulatedCell node a sinceUs = some .tp ∧ simulatedCell node b sinceUs = some .fn ∨
      simulatedCell node a sinceUs = some .fp ∧ simulatedCell node b sinceUs = some .tn := by
  simp only [simulatedCell]
  split_ifs with hcounted
  · rcases machineNg_of_lt node hab with h | ⟨ha, hb⟩
    · exact .inl (by rw [h])
    · rw [ha, hb]
      rcases groundTruthNg node _ with _ | _ | _
      · exact .inl rfl
      · exact .inr (.inr ⟨rfl, rfl⟩)
      · exact .inr (.inl ⟨rfl, rfl⟩)
  · exact .inl rfl

end GroundTruth

open GroundTruth

/-- The objective over a knowledge graph. An index below zero is no parameter. -/
structure KnowledgeGraphObjective (F : Type) where
  kg : KnowledgeGraph F
  fpCost : F
  fnCost : F
  ngThresholdIdx : ℤ := -1
  warnThresholdIdx : ℤ := -1

namespace KnowledgeGraphObjective

variable {F : Type} (objective : KnowledgeGraphObjective F)

def setThresholdParamIndices (ngThresholdIdx warnThresholdIdx : ℤ) :
    KnowledgeGraphObjective F :=
  { objective with ngThresholdIdx := ngThresholdIdx, warnThresholdIdx := warnThresholdIdx }

/-- The records of a query, whatever it fails with. -/
def groundTruthNodes : Result (List (KnowledgeNode F)) :=
  match objective.kg.findNodesByType "GroundTruth" with
  | .ok nodes => .ok nodes
  | .error _ =>
    fail .tuningObjectiveEvalFailed "Failed to query GroundTruth nodes from knowledge graph"

theorem mem_of_groundTruthNodes {objective : KnowledgeGraphObjective F}
    {nodes : List (KnowledgeNode F)} {node : KnowledgeNode F}
    (h : objective.groundTruthNodes = .ok nodes) (hnode : node ∈ nodes) :
    node ∈ objective.kg.nodes ∧ node.type = "GroundTruth" := by
  rw [groundTruthNodes, KnowledgeGraph.findNodesByType] at h
  rcases hprepare : objective.kg.prepareError
      "SELECT id, type, properties_json FROM nodes WHERE type = ?" with _ | msg
  · rw [hprepare] at h
    obtain rfl : objective.kg.nodes.filter (fun n => n.type = "GroundTruth") = nodes :=
      Except.ok.inj h
    simpa using hnode
  · rw [hprepare] at h
    cases h

/-- `duration_cast` to microseconds, from the nanoseconds of the clock. -/
def sinceUs (since : ℤ) : ℤ := since.tdiv 1000

def legacyCounts (since : ℤ) (nodes : List (KnowledgeNode F)) : Counts :=
  Counts.count (legacyCell · (sinceUs since)) nodes

section Cost

variable [Zero F] [Add F] [Mul F] [Div F] [NatCast F]

def cost (c : Counts) : F :=
  if c.total = 0 then 0
  else objective.fpCost * (c.fp : F) / (c.total : F) + objective.fnCost * (c.fn : F) / (c.total : F)

def evaluateLegacy (since : ℤ) : Result F := do
  let nodes ← objective.groundTruthNodes
  return objective.cost (legacyCounts since nodes)

variable [LT F] [DecidableLT F]

omit [Zero F] [Add F] [Mul F] [Div F] [NatCast F] in
def simulatedCounts (ngThreshold : F) (since : ℤ) (nodes : List (KnowledgeNode F)) : Counts :=
  Counts.count (simulatedCell · ngThreshold (sinceUs since)) nodes

/-- The point has the candidate threshold, as `Evaluate` checks before it simulates. -/
def Simulates (point : List F) : Prop :=
  0 ≤ objective.ngThresholdIdx ∧ objective.ngThresholdIdx.toNat < point.length

instance (point : List F) : Decidable (objective.Simulates point) :=
  inferInstanceAs (Decidable (_ ∧ _))

def evaluateSimulated (point : List F) (h : objective.Simulates point) (since : ℤ) : Result F := do
  let nodes ← objective.groundTruthNodes
  let ngThreshold := point.get ⟨objective.ngThresholdIdx.toNat, h.2⟩
  return objective.cost (simulatedCounts ngThreshold since nodes)

def evaluate (point : List F) (since : ℤ) : Result F :=
  if h : objective.Simulates point then objective.evaluateSimulated point h since
  else objective.evaluateLegacy since

variable {objective} {point : List F} {since : ℤ}

theorem evaluateSimulated_of_no_score (h : objective.Simulates point)
    (hscores : ∀ node ∈ objective.kg.nodes, node.type = "GroundTruth" →
      ∀ score, field node "detection_score" ≠ some (.double score)) :
    objective.evaluateSimulated point h since = objective.evaluateLegacy since := by
  rw [evaluateSimulated, evaluateLegacy]
  rcases hnodes : objective.groundTruthNodes with e | nodes
  · rfl
  · have hcells : ∀ ngThreshold : F,
        simulatedCounts ngThreshold since nodes = legacyCounts since nodes := by
      intro ngThreshold
      apply Counts.count_congr
      intro node hnode
      obtain ⟨hmem, htype⟩ := mem_of_groundTruthNodes hnodes hnode
      exact simulatedCell_of_no_score (hscores node hmem htype) ngThreshold _
    change Except.ok _ = Except.ok _
    rw [hcells]

end Cost

section Threshold

variable [LT F] [DecidableLT F] [IsTrans F (· < ·)] {a b : F} (hab : a < b) (since : ℤ)
  (nodes : List (KnowledgeNode F))

include hab

theorem simulatedCounts_fp_le :
    (simulatedCounts b since nodes).fp ≤ (simulatedCounts a since nodes).fp := by
  rw [simulatedCounts, simulatedCounts, Counts.count_eq, Counts.count_eq]
  apply List.countP_mono_left
  intro node _ hb
  rcases simulatedCell_of_lt node hab (sinceUs since) with h | ⟨_, h⟩ | ⟨_, h⟩
  · rw [h]; exact hb
  · simp [h] at hb
  · simp [h] at hb

theorem le_simulatedCounts_fn :
    (simulatedCounts a since nodes).fn ≤ (simulatedCounts b since nodes).fn := by
  rw [simulatedCounts, simulatedCounts, Counts.count_eq, Counts.count_eq]
  apply List.countP_mono_left
  intro node _ ha
  rcases simulatedCell_of_lt node hab (sinceUs since) with h | ⟨h, _⟩ | ⟨h, _⟩
  · rw [← h]; exact ha
  · simp [h] at ha
  · simp [h] at ha

theorem total_simulatedCounts :
    (simulatedCounts a since nodes).total = (simulatedCounts b since nodes).total := by
  rw [simulatedCounts, simulatedCounts, Counts.total_count, Counts.total_count]
  apply List.countP_congr
  intro node _
  rcases simulatedCell_of_lt node hab (sinceUs since) with h | ⟨ha, hb⟩ | ⟨ha, hb⟩
  · rw [h]
  · rw [ha, hb]; rfl
  · rw [ha, hb]; rfl

end Threshold

/-- Where no GroundTruth record has a score, both evaluations return the same; whatever the
records, a higher threshold gives no more false positives, no fewer false negatives and the same
total. -/
theorem simulated_agrees_with_legacy [Zero F] [Add F] [Mul F] [Div F] [NatCast F] [LT F]
    [DecidableLT F] [IsTrans F (· < ·)] :
    (∀ (objective : KnowledgeGraphObjective F) (point : List F) (h : objective.Simulates point)
      (since : ℤ),
      (∀ node ∈ objective.kg.nodes, node.type = "GroundTruth" →
        ∀ score, field node "detection_score" ≠ some (.double score)) →
      objective.evaluateSimulated point h since = objective.evaluateLegacy since) ∧
    ∀ (since : ℤ) (nodes : List (KnowledgeNode F)) (a b : F), a < b →
      (simulatedCounts b since nodes).fp ≤ (simulatedCounts a since nodes).fp ∧
        (simulatedCounts a since nodes).fn ≤ (simulatedCounts b since nodes).fn ∧
        (simulatedCounts a since nodes).total = (simulatedCounts b since nodes).total := by
  constructor
  · intro objective point h since hscores
    exact evaluateSimulated_of_no_score h hscores
  · intro since nodes a b hab
    exact ⟨simulatedCounts_fp_le hab since nodes, le_simulatedCounts_fn hab since nodes,
      total_simulatedCounts hab since nodes⟩

/-- A record whose stored verdict is NG and whose label is OK. -/
def overruled (scores : List (String × FieldValue ℚ)) : KnowledgeNode ℚ :=
  ⟨1, "GroundTruth", ⟨(⟨"timestamp", .int 5⟩ :: ⟨"machine_verdict", .string "NG"⟩ ::
    ⟨"human_label", .string "OK"⟩ :: scores.map fun s => ⟨s.1, s.2⟩).toAList⟩⟩

theorem field_overruled_nil (score : ℚ) :
    field (overruled []) "detection_score" ≠ some (.double score) := by
  have hnone : field (overruled []) "detection_score" = none := rfl
  rw [hnone]
  exact (Option.some_ne_none _).symm

/-- The objective over some records, with the threshold as first parameter. -/
def objectiveOver (nodes : List (KnowledgeNode ℚ)) : KnowledgeGraphObjective ℚ where
  kg := ⟨nodes, [], fun _ => none⟩
  fpCost := 1
  fnCost := 5
  ngThresholdIdx := 0

/-- One record without a score, and one whose score is passed by the higher threshold. -/
theorem simulated_agrees_with_legacy_overruled :
    (objectiveOver [overruled []]).evaluateSimulated [1 / 2] (by decide) 0 =
      (objectiveOver [overruled []]).evaluateLegacy 0 ∧
    (simulatedCounts (7 / 10) 0 [overruled [("detection_score", .double (1 / 2))]]).fp ≤
      (simulatedCounts (3 / 10) 0 [overruled [("detection_score", .double (1 / 2))]]).fp := by
  constructor
  · apply simulated_agrees_with_legacy.1
    intro node hnode _ score
    obtain rfl : node = overruled [] := List.mem_singleton.mp hnode
    exact field_overruled_nil score
  · exact (simulated_agrees_with_legacy.2 0 [overruled [("detection_score", .double (1 / 2))]]
      (3 / 10) (7 / 10) (by norm_num)).1

end KnowledgeGraphObjective

/-! The simulated cost as a function of the threshold. It changes at the recorded scores only, so
its minimum over all thresholds is found among them and one threshold below them all. -/

namespace KnowledgeGraphObjective

variable {F : Type}

/-- The detection score of a record, where it is a double. -/
def detectionScore (node : KnowledgeNode F) : Option F :=
  match field node "detection_score" with
  | some (.double score) => some score
  | _ => none

/-- The scores that thresholds are compared with. -/
def scores (nodes : List (KnowledgeNode F)) : List F := nodes.filterMap detectionScore

section Cells

variable [LT F] [DecidableLT F] {a b : F} {nodes : List (KnowledgeNode F)}

/-- Thresholds that a record's score passes alike classify the record alike. -/
theorem simulatedCell_of_score_iff {node : KnowledgeNode F}
    (h : ∀ score, detectionScore node = some score → (a < score ↔ b < score)) (sinceUs : ℤ) :
    simulatedCell node a sinceUs = simulatedCell node b sinceUs := by
  have hmachine : machineNg node a = machineNg node b := by
    rw [machineNg, machineNg]
    split
    · next score hscore =>
      have hiff := h score (by rw [detectionScore, hscore])
      simp only [hiff]
    · rfl
  rw [simulatedCell, simulatedCell, hmachine]

theorem simulatedCounts_of_score_iff (h : ∀ score ∈ scores nodes, (a < score ↔ b < score))
    (since : ℤ) : simulatedCounts a since nodes = simulatedCounts b since nodes := by
  apply Counts.count_congr
  intro node hnode
  apply simulatedCell_of_score_iff
  intro score hscore
  exact h score (List.mem_filterMap.mpr ⟨node, hnode, hscore⟩)

end Cells

section Minimum

variable [LinearOrder F] {nodes : List (KnowledgeNode F)}

/-- A threshold does what the highest score up to it does, or what any threshold below all scores
does. -/
theorem exists_candidate (a : F) {low : F} (hlow : ∀ score ∈ scores nodes, low < score)
    (since : ℤ) : ∃ b ∈ low :: scores nodes,
      simulatedCounts a since nodes = simulatedCounts b since nodes := by
  by_cases hbelow : ∃ score ∈ scores nodes, score ≤ a
  · obtain ⟨score, hscore, hle⟩ := hbelow
    have hne : ((scores nodes).toFinset.filter (· ≤ a)).Nonempty :=
      ⟨score, Finset.mem_filter.mpr ⟨List.mem_toFinset.mpr hscore, hle⟩⟩
    obtain ⟨b, hb, hmax⟩ := Finset.exists_max_image _ id hne
    obtain ⟨hmem, hba⟩ := Finset.mem_filter.mp hb
    refine ⟨b, List.mem_cons_of_mem _ (List.mem_toFinset.mp hmem), ?_⟩
    apply simulatedCounts_of_score_iff
    intro s hs
    constructor
    · exact fun has => lt_of_le_of_lt hba has
    · intro hbs
      by_contra hc
      have hsb : s ≤ b :=
        hmax s (Finset.mem_filter.mpr ⟨List.mem_toFinset.mpr hs, not_lt.mp hc⟩)
      exact absurd hbs (not_lt.mpr hsb)
  · refine ⟨low, List.mem_cons_self, ?_⟩
    apply simulatedCounts_of_score_iff
    intro s hs
    refine iff_of_true ?_ (hlow s hs)
    exact not_le.mp fun hc => hbelow ⟨s, hs, hc⟩

theorem exists_below [NoMinOrder F] [Nonempty F] (xs : List F) : ∃ low, ∀ x ∈ xs, low < x := by
  induction xs with
  | nil => simp
  | cons x xs ih =>
    obtain ⟨bound, hbound⟩ := ih
    obtain ⟨low, hlow⟩ := exists_lt (min bound x)
    obtain ⟨hlt, hltx⟩ := lt_min_iff.mp hlow
    refine ⟨low, List.forall_mem_cons.mpr ⟨hltx, fun y hy => ?_⟩⟩
    exact lt_trans hlt (hbound y hy)

variable [NoMinOrder F] [Zero F] [Add F] [Mul F] [Div F] [NatCast F]
  {objective : KnowledgeGraphObjective F}

omit [NoMinOrder F] in
theorem evaluate_of_simulates {point : List F} (h : objective.Simulates point) {since : ℤ}
    (hnodes : objective.groundTruthNodes = .ok nodes) :
    objective.evaluate point since = .ok (objective.cost (simulatedCounts
      (point.get ⟨objective.ngThresholdIdx.toNat, h.2⟩) since nodes)) := by
  rw [evaluate, dif_pos h, evaluateSimulated, hnodes]
  rfl

/-- Among all points no threshold costs less than the best of the recorded scores and of the
thresholds below them all. -/
theorem evaluate_attains_minimum (hnodes : objective.groundTruthNodes = .ok nodes) (since : ℤ) :
    ∃ b least, (b ∈ scores nodes ∨ ∀ score ∈ scores nodes, b < score) ∧
      (∀ point (h : objective.Simulates point),
        point.get ⟨objective.ngThresholdIdx.toNat, h.2⟩ = b →
          objective.evaluate point since = .ok least) ∧
      ∀ point, objective.Simulates point →
        ∃ value, objective.evaluate point since = .ok value ∧ least ≤ value := by
  have : Nonempty F := ⟨0⟩
  obtain ⟨low, hlow⟩ := exists_below (scores nodes)
  obtain ⟨b, hb, hmin⟩ := Finset.exists_min_image (low :: scores nodes).toFinset
    (fun a => objective.cost (simulatedCounts a since nodes)) ⟨low, by simp⟩
  refine ⟨b, objective.cost (simulatedCounts b since nodes), ?_, ?_, ?_⟩
  · rcases List.mem_cons.mp (List.mem_toFinset.mp hb) with rfl | hb
    · exact .inr hlow
    · exact .inl hb
  · intro point h hpoint
    rw [evaluate_of_simulates h hnodes, hpoint]
  · intro point h
    refine ⟨_, evaluate_of_simulates h hnodes, ?_⟩
    obtain ⟨c, hc, hcounts⟩ :=
      exists_candidate (point.get ⟨objective.ngThresholdIdx.toNat, h.2⟩) hlow since
    rw [hcounts]
    exact hmin c (List.mem_toFinset.mpr hc)

end Minimum

/-- A record with a score. -/
def scored : KnowledgeNode ℚ := overruled [("detection_score", .double (1 / 2))]

theorem evaluate_attains_minimum_scored :
    ∃ b least : ℚ, (b ∈ scores [scored] ∨ ∀ score ∈ scores [scored], b < score) ∧
      (∀ point (h : (objectiveOver [scored]).Simulates point),
        point.get ⟨(objectiveOver [scored]).ngThresholdIdx.toNat, h.2⟩ = b →
          (objectiveOver [scored]).evaluate point 0 = .ok least) ∧
      ∀ point, (objectiveOver [scored]).Simulates point →
        ∃ value, (objectiveOver [scored]).evaluate point 0 = .ok value ∧ least ≤ value := by
  have hnodes : (objectiveOver [scored]).groundTruthNodes = .ok [scored] := rfl
  exact evaluate_attains_minimum hnodes 0

end KnowledgeGraphObjective

end SurfaceAi.Tuning
