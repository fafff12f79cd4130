import SurfaceAi.Library.Returns
import SurfaceAi.Retrieval.ScoreFusion
import Mathlib.Algebra.Field.Rat
import Mathlib.Algebra.Order.Ring.Rat
import Mathlib.Algebra.Order.BigOperators.Group.List
import Mathlib.Data.List.MinMax
import Mathlib.Tactic.Linarith
import Mathlib.Tactic.Positivity

/-! What a fusion says of a node. The hits and the metadata results may name a node more than once;
the weighted fusion keeps the last hit, the reciprocal ranks add up in the fused score only. -/

namespace SurfaceAi.Retrieval

open Rules

variable {F : Type} [Field F] [LinearOrder F]

/-! ### Results of a fusion -/

section Results

variable {breakdowns : AList fun _ : ℤ => ScoreBreakdown F} {node : ℤ} {bd : ScoreBreakdown F}

omit [Field F] [LinearOrder F] in
theorem mem_entries : (node, bd) ∈ entries breakdowns ↔ breakdowns.lookup node = some bd := by
  rw [← Option.mem_def, AList.mem_lookup_iff, entries, List.mem_map]
  constructor
  · rintro ⟨⟨node', bd'⟩, he, heq⟩
    obtain ⟨rfl, rfl⟩ := Prod.mk.inj heq
    exact he
  · exact fun he => ⟨⟨node, bd⟩, he, rfl⟩

omit [Field F] [LinearOrder F] in
theorem nodes_entries : (entries breakdowns).map Prod.fst = breakdowns.keys := by
  rw [entries, List.map_map]
  rfl

/-- Every node of either list is returned once, the higher fused score first; the vector score is
that of the node's best hit, and the fused score combines the two scores. -/
structure Consistent (vecNodeIds : List ℤ) (metaResults : List (MetadataResult F))
    (best : ℤ → F → Prop) (combine : F → F → F) (results : List (ℤ × ScoreBreakdown F)) : Prop where
  nodup : (results.map Prod.fst).Nodup
  nodes : ∀ node, node ∈ results.map Prod.fst ↔
    node ∈ vecNodeIds ∨ ∃ m ∈ metaResults, m.nodeId = node
  ordered : results.Pairwise FusedFirst
  best : ∀ entry ∈ results, best entry.1 entry.2.vectorScore
  fused : ∀ entry ∈ results,
    entry.2.fusedScore = combine entry.2.vectorScore entry.2.metadataScore

omit [Field F] in
/-- Sorting leaves only the scores of the nodes to look at. -/
theorem consistent_sort_iff {sort : StdSort (FusedFirst (F := F))} {vecNodeIds : List ℤ}
    {metaResults : List (MetadataResult F)} {best : ℤ → F → Prop} {combine : F → F → F}
    (hnodes : ∀ node, node ∈ breakdowns ↔
      node ∈ vecNodeIds ∨ ∃ m ∈ metaResults, m.nodeId = node) :
    Consistent vecNodeIds metaResults best combine (sort.sort (entries breakdowns)) ↔
      ∀ node bd, breakdowns.lookup node = some bd →
        best node bd.vectorScore ∧ bd.fusedScore = combine bd.vectorScore bd.metadataScore := by
  have hperm := sort.perm (entries breakdowns)
  constructor
  · intro h node bd hlookup
    have hmem := hperm.mem_iff.mpr (mem_entries.mpr hlookup)
    exact ⟨h.best _ hmem, h.fused _ hmem⟩
  · intro h
    have hscores : ∀ entry ∈ sort.sort (entries breakdowns), best entry.1 entry.2.vectorScore ∧
        entry.2.fusedScore = combine entry.2.vectorScore entry.2.metadataScore :=
      fun entry hentry => h entry.1 entry.2 (mem_entries.mp (hperm.mem_iff.mp hentry))
    refine ⟨?_, fun node => ?_, sort.ordered _, fun e he => (hscores e he).1,
      fun e he => (hscores e he).2⟩
    · rw [(hperm.map Prod.fst).nodup_iff, nodes_entries]
      exact breakdowns.keys_nodup
    · rw [(hperm.map Prod.fst).mem_iff, nodes_entries, ← AList.mem_keys, hnodes]

end Results

/-! ### Weighted fusion -/

namespace WeightedFusion

variable {fusion : WeightedFusion F} {vecResults : List (VectorResult F)} {vecNodeIds : List ℤ}
  {metaResults : List (MetadataResult F)} {hits : List (VectorResult F × ℤ)}

omit [Field F] [LinearOrder F] in
/-- The node ids are read when there are enough of them. -/
theorem mapM_node (l : List (VectorResult F)) (vecNodeIds : List ℤ) (start : ℕ) :
    ((l.zipIdx start).mapM fun v => vecNodeIds[v.2]?.map fun nodeId => (v.1, nodeId)) =
      if l.length ≤ (vecNodeIds.drop start).length then some (l.zip (vecNodeIds.drop start))
      else none := by
  induction l generalizing start with
  | nil => rfl
  | cons v l ih =>
    rw [List.zipIdx_cons, List.mapM_cons, ih]
    cases hdrop : vecNodeIds.drop start with
    | nil =>
      have hnone : vecNodeIds[start]? = none := by
        rw [List.getElem?_eq_none_iff]
        exact List.drop_eq_nil_iff.mp hdrop
      simp [hnone]
    | cons node rest =>
      have hsome : vecNodeIds[start]? = some node := by
        rw [← List.head?_drop, hdrop]
        rfl
      have hrest : vecNodeIds.drop (start + 1) = rest := by
        rw [← List.tail_drop, hdrop]
        rfl
      rw [hrest, hsome]
      by_cases hle : l.length ≤ rest.length
      · simp [hle]
      · simp [hle]

omit [LinearOrder F] in
theorem lookup_breakdowns (fusion : WeightedFusion F) (hits : List (VectorResult F × ℤ))
    (metaResults : List (MetadataResult F)) (maxDist : F) (node : ℤ) :
    (fusion.breakdowns hits maxDist metaResults).lookup node =
      (((hits.filter fun h => h.2 = node).getLast?).map (fusion.ofHit maxDist metaResults)).or
        (((metaResults.filter fun m => m.nodeId = node).head?).map fusion.ofMetadata) := by
  rw [breakdowns, KeyedFold.lookup_fold, KeyedFold.value_keep, KeyedFold.lookup_fold,
    KeyedFold.value_replace]
  simp

omit [Field F] [LinearOrder F] in
theorem mem_filter_node {node : ℤ} {hit : VectorResult F × ℤ} :
    hit ∈ hits.filter (fun h => h.2 = node) ↔ hit ∈ hits ∧ hit.2 = node := by
  simp

omit [LinearOrder F] in
theorem mem_breakdowns (fusion : WeightedFusion F) (hits : List (VectorResult F × ℤ))
    (metaResults : List (MetadataResult F)) (maxDist : F) (node : ℤ) :
    node ∈ fusion.breakdowns hits maxDist metaResults ↔
      node ∈ hits.map Prod.snd ∨ ∃ m ∈ metaResults, m.nodeId = node := by
  rw [breakdowns, KeyedFold.mem_fold, KeyedFold.mem_fold, List.mem_map]
  simp

/-- The last hit of a node is one of its nearest. -/
def LastNearest (hits : List (VectorResult F × ℤ)) : Prop :=
  ∀ node last, (hits.filter fun h => h.2 = node).getLast? = some last →
    ∀ hit ∈ hits, hit.2 = node → last.1.distance ≤ hit.1.distance

/-- The vector score is that of a hit of the node with the smallest distance. -/
def BestScore (hits : List (VectorResult F × ℤ)) (maxDist : F) (node : ℤ) (score : F) : Prop :=
  ∀ hit ∈ hits, hit.2 = node → (∀ hit' ∈ hits, hit'.2 = node → hit.1.distance ≤ hit'.1.distance) →
    score = vectorScore maxDist hit.1.distance

theorem one_le_maxDist (vecResults : List (VectorResult F)) : 1 ≤ maxDist vecResults := by
  have hloop : ∀ (l : List (VectorResult F)) (m : F), 1 ≤ m →
      1 ≤ l.foldl (fun maxDist v => if maxDist < v.distance then v.distance else maxDist) m := by
    intro l
    induction l with
    | nil => exact fun m hm => hm
    | cons v l ih =>
      intro m hm
      refine ih _ ?_
      show 1 ≤ if m < v.distance then v.distance else m
      split_ifs with hlt
      · exact hm.trans hlt.le
      · exact hm
  exact hloop vecResults 1 le_rfl

theorem vectorScore_inj [IsStrictOrderedRing F] {maxDist d d' : F} (h : 1 ≤ maxDist)
    (heq : vectorScore maxDist d = vectorScore maxDist d') : d = d' := by
  have hpos : 0 < maxDist + 1 / 10 ^ 6 := by
    have : (0 : F) < 1 / 10 ^ 6 := by positivity
    linarith
  have hdiv : d / (maxDist + 1 / 10 ^ 6) = d' / (maxDist + 1 / 10 ^ 6) := by
    simpa [vectorScore] using heq
  exact (div_left_inj' hpos.ne').mp hdiv

omit [LinearOrder F] in
theorem fused_of_lookup {maxDist : F} {node : ℤ} {bd : ScoreBreakdown F}
    (h : (fusion.breakdowns hits maxDist metaResults).lookup node = some bd) :
    bd.fusedScore = fusion.alpha * bd.vectorScore + (1 - fusion.alpha) * bd.metadataScore := by
  rw [lookup_breakdowns] at h
  rcases Option.or_eq_some_iff.mp h with hhit | ⟨-, hmeta⟩
  · obtain ⟨hit, -, rfl⟩ := Option.map_eq_some_iff.mp hhit
    rfl
  · obtain ⟨m, -, rfl⟩ := Option.map_eq_some_iff.mp hmeta
    simp [ofMetadata]

/-- The best hits count exactly where the last hit of each node is one of them. -/
theorem best_iff [IsStrictOrderedRing F] (fusion : WeightedFusion F)
    (metaResults : List (MetadataResult F)) {maxDist : F} (hmax : 1 ≤ maxDist) :
    (∀ node bd, (fusion.breakdowns hits maxDist metaResults).lookup node = some bd →
      BestScore hits maxDist node bd.vectorScore) ↔ LastNearest hits := by
  constructor
  · intro hbest node last hlast hit hhit hnode
    have hlookup := lookup_breakdowns fusion hits metaResults maxDist node
    rw [hlast, Option.map_some, Option.some_or] at hlookup
    have hscore := hbest node _ hlookup
    -- one of the nearest hits of the node has the score that the last one left
    obtain ⟨nearest, hnearest⟩ := Option.ne_none_iff_exists'.mp
      (mt List.argmin_eq_none.mp (List.ne_nil_of_mem (mem_filter_node.mpr ⟨hhit, hnode⟩)) :
        List.argmin (fun h => h.1.distance) (hits.filter fun h => h.2 = node) ≠ none)
    have hmem := mem_filter_node.mp (List.argmin_mem hnearest)
    have hmin : ∀ hit' ∈ hits, hit'.2 = node → nearest.1.distance ≤ hit'.1.distance :=
      fun hit' h hn => List.le_of_mem_argmin (f := fun h : VectorResult F × ℤ => h.1.distance)
        (mem_filter_node.mpr ⟨h, hn⟩) hnearest
    have hsame := vectorScore_inj hmax (hscore nearest hmem.1 hmem.2 hmin)
    rw [hsame]
    exact hmin hit hhit hnode
  · intro hnearest node bd hlookup hit hhit hnode hmin
    rw [lookup_breakdowns] at hlookup
    rcases Option.or_eq_some_iff.mp hlookup with hfound | ⟨hnone, -⟩
    · obtain ⟨last, hlast, rfl⟩ := Option.map_eq_some_iff.mp hfound
      have hmem := mem_filter_node.mp (List.mem_of_getLast? hlast)
      have hsame : last.1.distance = hit.1.distance :=
        le_antisymm (hnearest node last hlast hit hhit hnode) (hmin last hmem.1 hmem.2)
      exact congrArg (vectorScore maxDist) hsame
    · rw [Option.map_eq_none_iff, List.getLast?_eq_none_iff] at hnone
      exact absurd hnone (List.ne_nil_of_mem (mem_filter_node.mpr ⟨hhit, hnode⟩))

theorem consistent_fuse_iff [IsStrictOrderedRing F] (fusion : WeightedFusion F)
    (sort : StdSort (FusedFirst (F := F))) (metaResults : List (MetadataResult F))
    (hlength : vecNodeIds.length = vecResults.length) :
    (∃ results, fusion.fuse sort vecResults vecNodeIds metaResults = some results ∧
        Consistent vecNodeIds metaResults
          (BestScore (vecResults.zip vecNodeIds) (maxDist vecResults))
          (fun v m => fusion.alpha * v + (1 - fusion.alpha) * m) results) ↔
      LastNearest (vecResults.zip vecNodeIds) := by
  have hread := mapM_node vecResults vecNodeIds 0
  rw [List.drop_zero, if_pos hlength.ge] at hread
  have hids : (vecResults.zip vecNodeIds).map Prod.snd = vecNodeIds :=
    List.map_snd_zip hlength.le
  have hnodes := mem_breakdowns fusion (vecResults.zip vecNodeIds) metaResults (maxDist vecResults)
  rw [hids] at hnodes
  rw [fuse, hread, Option.map_some]
  simp only [Option.some.injEq, exists_eq_left']
  rw [consistent_sort_iff hnodes, ← best_iff fusion metaResults (one_le_maxDist vecResults)]
  exact ⟨fun h node bd hlookup => (h node bd hlookup).1,
    fun h node bd hlookup => ⟨h node bd hlookup, fused_of_lookup hlookup⟩⟩

end WeightedFusion

/-! ### Reciprocal ranks -/

/-- A sum of positive terms is at least its last term, and no more for one term at most. -/
theorem last_le_sum [IsStrictOrderedRing F] {α : Type} {f : α → F} (hf : ∀ a, 0 < f a) (l : List α) :
    ((l.getLast?).map f).getD 0 ≤ (l.map f).sum ∧
      ((l.map f).sum = ((l.getLast?).map f).getD 0 ↔ l.length ≤ 1) := by
  induction l using List.reverseRecOn with
  | nil => simp
  | append_singleton l a _ =>
    have hnonneg : ∀ x ∈ l.map f, 0 ≤ x := by
      intro x hx
      obtain ⟨b, -, rfl⟩ := List.mem_map.mp hx
      exact (hf b).le
    have hsum : 0 ≤ (l.map f).sum := List.sum_nonneg hnonneg
    have htotal : ((l ++ [a]).map f).sum = (l.map f).sum + f a := by simp
    rw [List.getLast?_concat, htotal, Option.map_some, Option.getD_some, List.length_append,
      List.length_singleton]
    refine ⟨le_add_of_nonneg_left hsum, ?_⟩
    cases l with
    | nil => simp
    | cons b l =>
      have hpos : 0 < ((b :: l).map f).sum := by
        rw [List.map_cons, List.sum_cons]
        refine add_pos_of_pos_of_nonneg (hf b) (List.sum_nonneg fun x hx => ?_)
        exact hnonneg x (List.mem_cons_of_mem _ hx)
      refine iff_of_false (fun heq => ?_) (by simp)
      linarith

theorem exists_mem_zipIdx {α : Type} (p : α → Prop) (l : List α) :
    (∃ ranked ∈ l.zipIdx, p ranked.1) ↔ ∃ a ∈ l, p a := by
  have hmap := List.zipIdx_map_fst 0 l
  constructor
  · rintro ⟨ranked, hranked, hp⟩
    exact ⟨ranked.1, hmap ▸ List.mem_map_of_mem hranked, hp⟩
  · rintro ⟨a, ha, hp⟩
    rw [← hmap] at ha
    obtain ⟨ranked, hranked, rfl⟩ := List.mem_map.mp ha
    exact ⟨ranked, hranked, hp⟩

/-- The ranks of a key are as many as its occurrences. -/
theorem length_filter_zipIdx {α : Type} (key : α → ℤ) (l : List α) (node : ℤ) :
    (l.zipIdx.filter fun ranked => key ranked.1 = node).length = (l.map key).count node := by
  have hfilter : l.zipIdx.filter (fun ranked => key ranked.1 = node) =
      l.zipIdx.filter ((fun a => decide (key a = node)) ∘ Prod.fst) := rfl
  rw [hfilter, ← List.length_map Prod.fst, ← List.filter_map, List.zipIdx_map_fst, List.count,
    List.countP_map, List.countP_eq_length_filter]
  rfl

namespace RRFFusion

variable {fusion : RRFFusion F} {vecResults : List (VectorResult F)} {vecNodeIds nodes : List ℤ}
  {metaResults : List (MetadataResult F)}

theorem rrf_pos [IsStrictOrderedRing F] (fusion : RRFFusion F) (rank : ℕ) : 0 < fusion.rrf rank := by
  have hk := fusion.k_pos
  unfold rrf
  positivity

/-- The scores of a node from its ranks. -/
theorem fields_of_lookup (fusion : RRFFusion F) {node : ℤ} {bd : ScoreBreakdown F}
    (h : (fusion.breakdowns nodes metaResults).lookup node = some bd) :
    bd.vectorScore =
        (((nodes.zipIdx.filter fun r => r.1 = node).getLast?).map fun r => fusion.rrf r.2).getD 0 ∧
      bd.metadataScore = (((metaResults.zipIdx.filter fun r => r.1.nodeId = node).getLast?).map
        fun r => fusion.rrf r.2).getD 0 ∧
      bd.fusedScore = ((nodes.zipIdx.filter fun r => r.1 = node).map fun r => fusion.rrf r.2).sum +
        ((metaResults.zipIdx.filter fun r => r.1.nodeId = node).map fun r => fusion.rrf r.2).sum := by
  rw [breakdowns, KeyedFold.lookup_fold, KeyedFold.lookup_fold, AList.lookup_empty] at h
  rw [← Option.getD_some (a := bd) (b := zero), ← h]
  refine ⟨?_, ?_, ?_⟩
  · rw [KeyedFold.field_value_keep fusion.addMetadataRank ScoreBreakdown.vectorScore fun _ _ => rfl,
      KeyedFold.field_value_replace fusion.addVectorRank ScoreBreakdown.vectorScore fun _ _ => rfl]
    rfl
  · rw [KeyedFold.field_value_replace fusion.addMetadataRank ScoreBreakdown.metadataScore
        fun _ _ => rfl,
      KeyedFold.field_value_keep fusion.addVectorRank ScoreBreakdown.metadataScore fun _ _ => rfl]
    rfl
  · rw [KeyedFold.field_value_add fusion.addMetadataRank ScoreBreakdown.fusedScore fun _ _ => rfl,
      KeyedFold.field_value_add fusion.addVectorRank ScoreBreakdown.fusedScore fun _ _ => rfl,
      Option.getD_none, zero, zero_add]

theorem mem_breakdowns (fusion : RRFFusion F) (nodes : List ℤ)
    (metaResults : List (MetadataResult F)) (node : ℤ) :
    node ∈ fusion.breakdowns nodes metaResults ↔
      node ∈ nodes ∨ ∃ m ∈ metaResults, m.nodeId = node := by
  have hnodes := exists_mem_zipIdx (fun n => n = node) nodes
  have hmetas := exists_mem_zipIdx (fun m => m.nodeId = node) metaResults
  rw [breakdowns, KeyedFold.mem_fold, KeyedFold.mem_fold, hnodes, hmetas]
  simp

/-- The fused score is the sum of the two scores where no node has two ranks in one list. -/
theorem fused_iff [IsStrictOrderedRing F] (fusion : RRFFusion F) (nodes : List ℤ)
    (metaResults : List (MetadataResult F)) :
    (∀ node bd, (fusion.breakdowns nodes metaResults).lookup node = some bd →
        bd.fusedScore = bd.vectorScore + bd.metadataScore) ↔
      nodes.Nodup ∧ (metaResults.map MetadataResult.nodeId).Nodup := by
  have hvector := fun node => last_le_sum (fun r : ℤ × ℕ => fusion.rrf_pos r.2)
    (nodes.zipIdx.filter fun r => r.1 = node)
  have hmetadata := fun node => last_le_sum (fun r : MetadataResult F × ℕ => fusion.rrf_pos r.2)
    (metaResults.zipIdx.filter fun r => r.1.nodeId = node)
  have hvectors : ∀ node, (nodes.zipIdx.filter fun r => r.1 = node).length = nodes.count node :=
    fun node => by simpa using length_filter_zipIdx id nodes node
  have hmetas := length_filter_zipIdx MetadataResult.nodeId metaResults
  rw [List.nodup_iff_count_le_one, List.nodup_iff_count_le_one]
  constructor
  · intro hfused
    -- a node that is there has one term in each sum, any other has none
    have hterms : ∀ node, nodes.count node ≤ 1 ∧
        (metaResults.map MetadataResult.nodeId).count node ≤ 1 := by
      intro node
      rw [← hvectors, ← hmetas, ← (hvector node).2, ← (hmetadata node).2]
      cases hlookup : (fusion.breakdowns nodes metaResults).lookup node with
      | some bd =>
        obtain ⟨hv, hm, hf⟩ := fields_of_lookup fusion hlookup
        have hsum := hfused node bd hlookup
        rw [hf, hv, hm] at hsum
        have hle := (hvector node).1
        have hle' := (hmetadata node).1
        constructor <;> linarith
      | none =>
        have hnotin : node ∉ fusion.breakdowns nodes metaResults := by
          rw [← AList.lookup_eq_none, hlookup]
        rw [mem_breakdowns, not_or] at hnotin
        have hempty : (nodes.zipIdx.filter fun r => r.1 = node) = [] := by
          rw [List.eq_nil_iff_length_eq_zero, hvectors, List.count_eq_zero]
          exact hnotin.1
        have hempty' : (metaResults.zipIdx.filter fun r => r.1.nodeId = node) = [] := by
          rw [List.eq_nil_iff_length_eq_zero, hmetas, List.count_eq_zero, List.mem_map]
          exact hnotin.2
        rw [hempty, hempty']
        exact ⟨rfl, rfl⟩
    exact ⟨fun node => (hterms node).1, fun node => (hterms node).2⟩
  · rintro ⟨hnodes, hmetas'⟩ node bd hlookup
    obtain ⟨hv, hm, hf⟩ := fields_of_lookup fusion hlookup
    rw [hf, hv, hm, (hvector node).2.mpr (hvectors node ▸ hnodes node),
      (hmetadata node).2.mpr (hmetas node ▸ hmetas' node)]

/-- The vector score is the reciprocal of the rank of a hit of the node with the smallest distance. -/
def BestScore (fusion : RRFFusion F) (ranked : List (ℕ × F)) (vecNodeIds : List ℤ) (node : ℤ)
    (score : F) : Prop :=
  node ∈ vecNodeIds → ∃ rank hit, ranked[rank]? = some hit ∧ vecNodeIds[hit.1]? = some node ∧
    (∀ hit' ∈ ranked, vecNodeIds[hit'.1]? = some node → hit.2 ≤ hit'.2) ∧ score = fusion.rrf rank

/-- The positions of the hits with their distances. -/
abbrev positions (vecResults : List (VectorResult F)) : List (ℕ × F) :=
  vecResults.zipIdx.map fun v => (v.2, v.1.distance)

omit [Field F] [LinearOrder F] in
theorem mem_positions {i : ℕ} {d : F} :
    (i, d) ∈ positions vecResults ↔ ∃ v, vecResults[i]? = some v ∧ v.distance = d := by
  rw [List.mem_map]
  constructor
  · rintro ⟨⟨v, j⟩, hv, heq⟩
    obtain ⟨rfl, rfl⟩ := Prod.mk.inj heq
    exact ⟨v, List.mem_zipIdx_iff_getElem?.mp hv, rfl⟩
  · rintro ⟨v, hv, rfl⟩
    exact ⟨(v, i), List.mem_zipIdx_iff_getElem?.mpr hv, rfl⟩

omit [Field F] in
/-- With a node id for every hit the ranks go to the nodes of the hits. -/
theorem rankedNodes_eq (rank : StdSort (NearestFirst (F := F)))
    (hlength : vecNodeIds.length = vecResults.length) :
    ∃ nodes, rankedNodes rank vecResults vecNodeIds = some nodes ∧ nodes.Perm vecNodeIds ∧
      ∀ i : ℕ, nodes[i]? = (rank.sort (positions vecResults))[i]?.bind fun hit =>
        vecNodeIds[hit.1]? := by
  have hread : ∀ hit ∈ rank.sort (positions vecResults),
      vecNodeIds[hit.1]? = some (vecNodeIds.getD hit.1 0) := by
    rintro ⟨i, d⟩ hhit
    obtain ⟨v, hv, -⟩ := mem_positions.mp ((rank.perm _).mem_iff.mp hhit)
    have hi : i < vecNodeIds.length := hlength ▸ (List.getElem?_eq_some_iff.mp hv).1
    rw [List.getD_eq_getElem?_getD, List.getElem?_eq_getElem hi, Option.getD_some]
  refine ⟨_, Returns.mapM_eq_map hread, ?_, fun i => ?_⟩
  · refine ((rank.perm (positions vecResults)).map _).trans (List.Perm.of_eq ?_)
    have hrange : (positions vecResults).map (fun hit => vecNodeIds.getD hit.1 0) =
        (List.range vecNodeIds.length).map fun i => vecNodeIds.getD i 0 := by
      rw [List.map_map, hlength, List.range_eq_range', ← List.zipIdx_map_snd 0 vecResults,
        List.map_map]
      rfl
    rw [hrange]
    refine List.ext_getElem (by simp) fun i hi hi' => ?_
    simp [List.getD_eq_getElem?_getD, List.getElem?_eq_getElem hi']
  · rw [List.getElem?_map]
    cases hhit : (rank.sort (positions vecResults))[i]? with
    | none => rfl
    | some hit => exact (hread hit (List.mem_of_getElem? hhit)).symm

/-- A node that occurs once has the rank of its only hit. -/
theorem best_of_nodup (fusion : RRFFusion F) {ranked : List (ℕ × F)}
    (hperm : ranked.Perm (positions vecResults))
    (hranks : ∀ i : ℕ, nodes[i]? = ranked[i]?.bind fun hit => vecNodeIds[hit.1]?)
    (hids : nodes.Perm vecNodeIds) (hnodup : nodes.Nodup) {node : ℤ} {bd : ScoreBreakdown F}
    (h : (fusion.breakdowns nodes metaResults).lookup node = some bd) :
    BestScore fusion ranked vecNodeIds node bd.vectorScore := by
  intro hnode
  obtain ⟨rank, hrank⟩ := List.mem_iff_getElem?.mp (hids.mem_iff.mpr hnode)
  obtain ⟨hit, hhit, hread⟩ := Option.bind_eq_some_iff.mp ((hranks rank).symm.trans hrank)
  refine ⟨rank, hit, hhit, hread, fun hit' hhit' hread' => ?_, ?_⟩
  · -- another hit of the node has the same position, so it is the same hit
    have hsame : hit.1 = hit'.1 := by
      have hlt := (List.getElem?_eq_some_iff.mp hread).1
      exact (List.getElem?_inj hlt (hids.nodup_iff.mp hnodup)).mp (hread.trans hread'.symm)
    obtain ⟨v, hv, hd⟩ := mem_positions.mp (hperm.mem_iff.mp (List.mem_of_getElem? hhit))
    obtain ⟨v', hv', hd'⟩ := mem_positions.mp (hperm.mem_iff.mp hhit')
    rw [hsame, hv'] at hv
    obtain rfl := Option.some.inj hv
    exact (hd.symm.trans hd').le
  · have hmem : (node, rank) ∈ nodes.zipIdx.filter fun r => r.1 = node := by
      rw [List.mem_filter]
      exact ⟨List.mem_zipIdx_iff_getElem?.mpr hrank, by simp⟩
    have hlength : (nodes.zipIdx.filter fun r => r.1 = node).length ≤ 1 := by
      have hcount := length_filter_zipIdx id nodes node
      rw [List.map_id] at hcount
      exact hcount.trans_le (List.nodup_iff_count_le_one.mp hnodup node)
    rw [(fields_of_lookup fusion h).1]
    cases hfilter : nodes.zipIdx.filter fun r => r.1 = node with
    | nil =>
      rw [hfilter] at hmem
      cases hmem
    | cons r rest =>
      rw [hfilter] at hmem hlength
      obtain rfl : rest = [] := by simpa using hlength
      obtain rfl := List.mem_singleton.mp hmem
      rfl

theorem consistent_fuse_iff [IsStrictOrderedRing F] (fusion : RRFFusion F)
    (rank : StdSort (NearestFirst (F := F))) (sort : StdSort (FusedFirst (F := F)))
    (metaResults : List (MetadataResult F)) (hlength : vecNodeIds.length = vecResults.length) :
    (∃ results, fusion.fuse rank sort vecResults vecNodeIds metaResults = some results ∧
        Consistent vecNodeIds metaResults
          (BestScore fusion (rank.sort (positions vecResults)) vecNodeIds) (· + ·) results) ↔
      vecNodeIds.Nodup ∧ (metaResults.map MetadataResult.nodeId).Nodup := by
  obtain ⟨nodes, hread, hperm, hranks⟩ := rankedNodes_eq rank hlength
  have hnodes : ∀ node, node ∈ fusion.breakdowns nodes metaResults ↔
      node ∈ vecNodeIds ∨ ∃ m ∈ metaResults, m.nodeId = node := by
    intro node
    rw [mem_breakdowns, hperm.mem_iff]
  rw [fuse, hread, Option.map_some]
  simp only [Option.some.injEq, exists_eq_left']
  rw [consistent_sort_iff hnodes, ← hperm.nodup_iff, ← fused_iff fusion]
  constructor
  · exact fun h node bd hlookup => (h node bd hlookup).2
  · intro hfused node bd hlookup
    have hnodup := ((fused_iff fusion nodes metaResults).mp hfused).1
    exact ⟨best_of_nodup fusion (rank.perm _) hranks hperm hnodup hlookup,
      hfused node bd hlookup⟩

end RRFFusion

/-! ### Both fusions -/

/-- The weighted fusion is consistent exactly when the last hit of every node is one of its nearest,
the fusion by reciprocal ranks exactly when neither list names a node twice. -/
theorem fusions_consistent_iff [IsStrictOrderedRing F] (weighted : WeightedFusion F)
    (rrf : RRFFusion F) (rank : StdSort (NearestFirst (F := F)))
    (sort : StdSort (FusedFirst (F := F))) (metaResults : List (MetadataResult F))
    {vecResults : List (VectorResult F)} {vecNodeIds : List ℤ}
    (hlength : vecNodeIds.length = vecResults.length) :
    ((∃ results, weighted.fuse sort vecResults vecNodeIds metaResults = some results ∧
        Consistent vecNodeIds metaResults (WeightedFusion.BestScore (vecResults.zip vecNodeIds)
            (WeightedFusion.maxDist vecResults))
          (fun v m => weighted.alpha * v + (1 - weighted.alpha) * m) results) ↔
      WeightedFusion.LastNearest (vecResults.zip vecNodeIds)) ∧
    ((∃ results, rrf.fuse rank sort vecResults vecNodeIds metaResults = some results ∧
        Consistent vecNodeIds metaResults
          (RRFFusion.BestScore rrf (rank.sort (RRFFusion.positions vecResults)) vecNodeIds) (· + ·)
          results) ↔
      vecNodeIds.Nodup ∧ (metaResults.map MetadataResult.nodeId).Nodup) :=
  ⟨weighted.consistent_fuse_iff sort metaResults hlength,
    rrf.consistent_fuse_iff rank sort metaResults hlength⟩

/-- Sorting by insertion. -/
def insertionSorting {α : Type} (le : α → α → Prop) [DecidableRel le]
    (htotal : ∀ a b, le a b ∨ le b a) (htrans : ∀ a b c, le a b → le b c → le a c) :
    StdSort le where
  sort l := l.insertionSort le
  perm l := List.perm_insertionSort le l
  ordered l := by
    have : Std.Total le := ⟨htotal⟩
    have : IsTrans α le := ⟨htrans⟩
    exact List.pairwise_insertionSort le l

instance : DecidableRel (FusedFirst (F := ℚ)) := fun a b =>
  inferInstanceAs (Decidable (b.2.fusedScore ≤ a.2.fusedScore))

instance : DecidableRel (NearestFirst (F := ℚ)) := fun a b => inferInstanceAs (Decidable (a.2 ≤ b.2))

def sortFused : StdSort (FusedFirst (F := ℚ)) :=
  insertionSorting _ (fun a b => le_total b.2.fusedScore a.2.fusedScore)
    fun _ _ _ hab hbc => le_trans (α := ℚ) hbc hab

def sortNearest : StdSort (NearestFirst (F := ℚ)) :=
  insertionSorting _ (fun a b => le_total a.2 b.2) fun _ _ _ hab hbc => le_trans (α := ℚ) hab hbc

/-- The fusions as they are by default. -/
def halves : WeightedFusion ℚ := ⟨1 / 2⟩

def sixty : RRFFusion ℚ := ⟨60, by norm_num⟩

theorem one_hit_consistent :
    (∃ results, halves.fuse sortFused [⟨0, 3⟩] [7] [⟨8, 1⟩] = some results ∧
      Consistent [7] [⟨8, 1⟩]
        (WeightedFusion.BestScore [(⟨0, 3⟩, 7)] (WeightedFusion.maxDist [⟨0, 3⟩]))
        (fun v m => halves.alpha * v + (1 - halves.alpha) * m) results) ∧
    ∃ results, sixty.fuse sortNearest sortFused [⟨0, 3⟩] [7] [⟨8, 1⟩] = some results ∧
      Consistent [7] [⟨8, 1⟩]
        (RRFFusion.BestScore sixty (sortNearest.sort (RRFFusion.positions [⟨0, 3⟩])) [7]) (· + ·)
        results := by
  have hlength : [(7 : ℤ)].length = [(⟨0, 3⟩ : VectorResult ℚ)].length := rfl
  have hboth := fusions_consistent_iff halves sixty sortNearest sortFused [⟨8, 1⟩] hlength
  refine ⟨hboth.1.mpr ?_, hboth.2.mpr (by simp)⟩
  intro node last hlast hit hhit hnode
  obtain rfl := List.mem_singleton.mp hhit
  obtain rfl : (7 : ℤ) = node := hnode
  obtain rfl : ((⟨0, 3⟩, 7) : VectorResult ℚ × ℤ) = last := by simpa using hlast
  exact le_rfl

/-- Two hits of one node, the second one farther: the weighted fusion reports the score of the
second, and the fused score of the reciprocal ranks counts both. -/
theorem two_hits_inconsistent :
    (¬∃ results, halves.fuse sortFused [⟨0, 0⟩, ⟨1, 1⟩] [7, 7] [] = some results ∧
      Consistent [7, 7] []
        (WeightedFusion.BestScore [(⟨0, 0⟩, 7), (⟨1, 1⟩, 7)]
          (WeightedFusion.maxDist [⟨0, 0⟩, ⟨1, 1⟩]))
        (fun v m => halves.alpha * v + (1 - halves.alpha) * m) results) ∧
    ¬∃ results, sixty.fuse sortNearest sortFused [⟨0, 0⟩, ⟨1, 1⟩] [7, 7] [] = some results ∧
      Consistent [7, 7] []
        (RRFFusion.BestScore sixty (sortNearest.sort (RRFFusion.positions [⟨0, 0⟩, ⟨1, 1⟩])) [7, 7])
        (· + ·) results := by
  have hlength : [(7 : ℤ), 7].length = [(⟨0, 0⟩ : VectorResult ℚ), ⟨1, 1⟩].length := rfl
  constructor
  · refine (halves.consistent_fuse_iff sortFused [] hlength).not.mpr fun hnearest => ?_
    have hfar := hnearest 7 (⟨1, 1⟩, 7) rfl (⟨0, 0⟩, 7) List.mem_cons_self rfl
    exact absurd hfar (by norm_num)
  · refine (sixty.consistent_fuse_iff sortNearest sortFused [] hlength).not.mpr ?_
    simp

end SurfaceAi.Retrieval
