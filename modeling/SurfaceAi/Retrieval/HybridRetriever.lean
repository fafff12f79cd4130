import SurfaceAi.Retrieval.FusionConsistency

/-! The hybrid retriever. The metadata search comes first; where its filters are set, its nodes become
the ids that a top-k search is restricted to. The hits and their nodes then go to the fusion as two
lists. -/

namespace SurfaceAi.Retrieval

open Rules

structure RetrievalItem (F : Type) where
  nodeId : ℤ
  scores : ScoreBreakdown F
  nodeType : String

structure RetrieverConfig (F : Type) where
  vector : VectorConfig F
  metadata : MetadataConfig F

/-- `has_filters`. -/
def RetrieverConfig.hasFilters {F : Type} (cfg : RetrieverConfig F) : Prop :=
  cfg.metadata.filters ≠ [] ∨ cfg.metadata.nodeTypes ≠ []

/-- The metadata search restricts the vector search. -/
def RetrieverConfig.restricts {F : Type} (cfg : RetrieverConfig F) : Prop :=
  cfg.hasFilters ∧ cfg.vector.mode = .topK

instance {F : Type} (cfg : RetrieverConfig F) : Decidable cfg.restricts :=
  inferInstanceAs (Decidable ((cfg.metadata.filters ≠ [] ∨ cfg.metadata.nodeTypes ≠ []) ∧ _))

/-- The implementations of `IScoreFusion`. -/
inductive ScoreFusion (F : Type) [Zero F] [LT F] where
  | weighted (fusion : WeightedFusion F)
  | rrf (fusion : RRFFusion F)

section Retrieve

variable {F : Type}

/-- The reverse map of the table, where a later index replaces an earlier one. -/
def nodeToVec (vecToNodeIds : List ℤ) (nodeId : ℤ) : Option ℕ :=
  (vecToNodeIds.zipIdx.reverse.find? fun e => e.1 = nodeId).map Prod.snd

/-- The indices of the matched nodes. -/
def idSubset (vecToNodeIds : List ℤ) (metaResults : List (MetadataResult F)) : List ℕ :=
  metaResults.filterMap fun mr => nodeToVec vecToNodeIds mr.nodeId

/-- The configuration of the vector search. -/
def vecCfg (cfg : RetrieverConfig F) (vecToNodeIds : List ℤ) (metaResults : List (MetadataResult F)) :
    VectorConfig F :=
  if cfg.restricts ∧ idSubset vecToNodeIds metaResults ≠ [] then
    { cfg.vector with mode := .hybrid, idSubset := idSubset vecToNodeIds metaResults }
  else cfg.vector

/-- The nodes of the hits; an index without a node is skipped. -/
def vecNodeIds (vecToNodeIds : List ℤ) (vec : List (VectorResult F)) : List ℤ :=
  vec.filterMap fun vr => vecToNodeIds[vr.index]?

variable [Field F] [LinearOrder F]

/-- `Fuse`. -/
def ScoreFusion.fuse (rank : StdSort (NearestFirst (F := F))) (sort : StdSort (FusedFirst (F := F)))
    (vecResults : List (VectorResult F)) (vecNodeIds : List ℤ) (metaResults : List (MetadataResult F)) :
    ScoreFusion F → Option (List (ℤ × ScoreBreakdown F))
  | .weighted fusion => fusion.fuse sort vecResults vecNodeIds metaResults
  | .rrf fusion => fusion.fuse rank sort vecResults vecNodeIds metaResults

structure HybridRetriever (F : Type) [Zero F] [LT F] where
  vecPath : VectorPath F
  metaPath : MetadataPath F
  fusion : ScoreFusion F

namespace HybridRetriever

variable (retriever : HybridRetriever F) (query : List F) (cfg : RetrieverConfig F)
  (vecToNodeIds : List ℤ)

/-- What reaches the fusion: the hits, their nodes and the metadata results. Nothing does when the
filters match nothing. -/
def fused : Result (Option (List (VectorResult F) × List ℤ × List (MetadataResult F))) := do
  let metaResults ← retriever.metaPath.search cfg.metadata
  if cfg.restricts ∧ metaResults.isEmpty then return none
  else
    let vec ← retriever.vecPath.search query retriever.vecPath.dim
      (vecCfg cfg vecToNodeIds metaResults)
    return some (vec, vecNodeIds vecToNodeIds vec, metaResults)

/-- `Retrieve`; the type of a node is left to the caller. Nothing when the fusion reads past the
nodes of the hits. -/
def retrieve (rank : StdSort (NearestFirst (F := F))) (sort : StdSort (FusedFirst (F := F))) :
    Outcome (List (RetrievalItem F)) :=
  match retriever.fused query cfg vecToNodeIds with
  | .error e => some (.error e)
  | .ok none => some (.ok [])
  | .ok (some (vec, nodes, metaResults)) =>
    (retriever.fusion.fuse rank sort vec nodes metaResults).map fun results =>
      .ok (results.map fun r => ⟨r.1, r.2, ""⟩)

end HybridRetriever

end Retrieve

/-! ### Hits and their nodes -/

section Hits

variable {F : Type} {vecToNodeIds nodes : List ℤ} {vec : List (VectorResult F)}
  {metaResults : List (MetadataResult F)}

/-- The node at a position is the one of the hit there. -/
def CreditsOwnNode (vecToNodeIds : List ℤ) (vec : List (VectorResult F)) (nodes : List ℤ) : Prop :=
  nodes.length = vec.length ∧ ∀ (i : ℕ) (hit : VectorResult F), vec[i]? = some hit →
    ∃ node, vecToNodeIds[hit.index]? = some node ∧ nodes[i]? = some node

theorem creditsOwnNode_iff : CreditsOwnNode vecToNodeIds vec (vecNodeIds vecToNodeIds vec) ↔
    ∀ hit ∈ vec, hit.index < vecToNodeIds.length := by
  constructor
  · rintro ⟨-, hnodes⟩ hit hhit
    obtain ⟨i, hi⟩ := List.mem_iff_getElem?.mp hhit
    obtain ⟨node, hnode, -⟩ := hnodes i hit hi
    exact (List.getElem?_eq_some_iff.mp hnode).1
  · intro hmapped
    have hsome : ∀ hit ∈ vec, vecToNodeIds[hit.index]? = some (vecToNodeIds.getD hit.index 0) := by
      intro hit hhit
      rw [List.getD_eq_getElem?_getD, List.getElem?_eq_getElem (hmapped hit hhit), Option.getD_some]
    have hmap : vecNodeIds vecToNodeIds vec = vec.map fun hit => vecToNodeIds.getD hit.index 0 := by
      rw [vecNodeIds, List.filterMap_congr hsome]
      exact congrFun List.filterMap_eq_map' vec
    rw [hmap]
    refine ⟨List.length_map _, fun i hit hi => ⟨_, hsome hit (List.mem_of_getElem? hi), ?_⟩⟩
    rw [List.getElem?_map, hi, Option.map_some]

variable [Field F] [LinearOrder F] {rank : StdSort (NearestFirst (F := F))}
  {sort : StdSort (FusedFirst (F := F))}

/-- With a node for every hit a fusion returns exactly the nodes of its two lists. -/
theorem ScoreFusion.nodes_fuse (fusion : ScoreFusion F) (rank : StdSort (NearestFirst (F := F)))
    (sort : StdSort (FusedFirst (F := F))) (metaResults : List (MetadataResult F))
    (hlength : nodes.length = vec.length) :
    ∃ results, fusion.fuse rank sort vec nodes metaResults = some results ∧
      ∀ node, node ∈ results.map Prod.fst ↔ node ∈ nodes ∨ ∃ m ∈ metaResults, m.nodeId = node := by
  cases fusion with
  | weighted fusion =>
    have hread := WeightedFusion.mapM_node vec nodes 0
    rw [List.drop_zero, if_pos hlength.ge] at hread
    refine ⟨_, by rw [fuse, WeightedFusion.fuse, hread]; rfl, fun node => ?_⟩
    rw [((sort.perm _).map Prod.fst).mem_iff, nodes_entries, ← AList.mem_keys,
      WeightedFusion.mem_breakdowns, List.map_snd_zip hlength.le]
  | rrf fusion =>
    obtain ⟨ranked, hread, hperm, -⟩ := RRFFusion.rankedNodes_eq rank hlength
    refine ⟨_, by rw [fuse, RRFFusion.fuse, hread]; rfl, fun node => ?_⟩
    rw [((sort.perm _).map Prod.fst).mem_iff, nodes_entries, ← AList.mem_keys,
      RRFFusion.mem_breakdowns, hperm.mem_iff]

variable {retriever : HybridRetriever F} {query : List F} {cfg : RetrieverConfig F}

theorem HybridRetriever.fused_eq_some
    (h : retriever.fused query cfg vecToNodeIds = .ok (some (vec, nodes, metaResults))) :
    retriever.metaPath.search cfg.metadata = .ok metaResults ∧
      retriever.vecPath.search query retriever.vecPath.dim (vecCfg cfg vecToNodeIds metaResults) =
        .ok vec ∧
      nodes = vecNodeIds vecToNodeIds vec := by
  obtain ⟨metaResults', hmeta, hrest⟩ := bind_eq_ok.mp h
  split_ifs at hrest with hnone
  · cases hrest
  · obtain ⟨vec', hvec, hpacked⟩ := bind_eq_ok.mp hrest
    cases hpacked
    exact ⟨hmeta, hvec, rfl⟩

/-- Each hit is credited to its own node, without an access out of range, exactly when the table has
a node for every hit. -/
theorem creditsOwnNode_fused_iff
    (h : retriever.fused query cfg vecToNodeIds = .ok (some (vec, nodes, metaResults)))
    (rank : StdSort (NearestFirst (F := F))) (sort : StdSort (FusedFirst (F := F))) :
    (CreditsOwnNode vecToNodeIds vec nodes ∧
        ∀ fusion : ScoreFusion F, (fusion.fuse rank sort vec nodes metaResults).isSome) ↔
      ∀ hit ∈ vec, hit.index < vecToNodeIds.length := by
  obtain ⟨-, -, rfl⟩ := HybridRetriever.fused_eq_some h
  rw [← creditsOwnNode_iff]
  refine ⟨And.left, fun hown => ⟨hown, fun fusion => ?_⟩⟩
  obtain ⟨results, hresults, -⟩ := fusion.nodes_fuse rank sort metaResults hown.1
  rw [hresults]
  rfl

end Hits

/-! ### Restriction to the matched nodes -/

section Restriction

variable {F : Type} {vecToNodeIds : List ℤ} {metaResults : List (MetadataResult F)}
  {cfg : RetrieverConfig F}

theorem nodeToVec_eq_some {node : ℤ} {i : ℕ} (h : nodeToVec vecToNodeIds node = some i) :
    vecToNodeIds[i]? = some node := by
  obtain ⟨⟨node', j⟩, hfind, rfl⟩ := Option.map_eq_some_iff.mp h
  have hmem := List.mem_reverse.mp (List.mem_of_find?_eq_some hfind)
  obtain rfl : node' = node := by simpa using List.find?_some hfind
  exact List.mem_zipIdx_iff_getElem?.mp hmem

theorem exists_nodeToVec {node : ℤ} (h : node ∈ vecToNodeIds) :
    ∃ i, nodeToVec vecToNodeIds node = some i := by
  obtain ⟨i, hi⟩ := List.mem_iff_getElem?.mp h
  refine Option.isSome_iff_exists.mp ?_
  rw [nodeToVec, Option.isSome_map, List.find?_isSome]
  exact ⟨(node, i), List.mem_reverse.mpr (List.mem_zipIdx_iff_getElem?.mpr hi), by simp⟩

/-- The ids are indices of matched nodes. -/
theorem getElem?_of_mem_idSubset {id : ℕ} (h : id ∈ idSubset vecToNodeIds metaResults) :
    ∃ m ∈ metaResults, vecToNodeIds[id]? = some m.nodeId := by
  obtain ⟨m, hm, hid⟩ := List.mem_filterMap.mp h
  exact ⟨m, hm, nodeToVec_eq_some hid⟩

/-- A matched node with a vector has an index among the ids. -/
theorem exists_mem_idSubset {m : MetadataResult F} (hm : m ∈ metaResults)
    (hnode : m.nodeId ∈ vecToNodeIds) :
    ∃ id ∈ idSubset vecToNodeIds metaResults, vecToNodeIds[id]? = some m.nodeId := by
  obtain ⟨id, hid⟩ := exists_nodeToVec hnode
  exact ⟨id, List.mem_filterMap.mpr ⟨m, hm, hid⟩, nodeToVec_eq_some hid⟩

/-- What the metadata search makes of the configuration: a restriction to ids of matched nodes when
one of these has a vector, and no change otherwise. -/
theorem vecCfg_spec (vecToNodeIds : List ℤ) (metaResults : List (MetadataResult F))
    (hrestricts : cfg.restricts) :
    (∃ m ∈ metaResults, m.nodeId ∈ vecToNodeIds) ∧ vecCfg cfg vecToNodeIds metaResults =
        { cfg.vector with mode := .hybrid, idSubset := idSubset vecToNodeIds metaResults } ∧
        idSubset vecToNodeIds metaResults ≠ [] ∨
      (∀ m ∈ metaResults, m.nodeId ∉ vecToNodeIds) ∧
        vecCfg cfg vecToNodeIds metaResults = cfg.vector := by
  by_cases hvectors : ∃ m ∈ metaResults, m.nodeId ∈ vecToNodeIds
  · obtain ⟨m, hm, hnode⟩ := hvectors
    obtain ⟨id, hid, -⟩ := exists_mem_idSubset hm hnode
    have hne := List.ne_nil_of_mem hid
    exact .inl ⟨⟨m, hm, hnode⟩, by rw [vecCfg, if_pos ⟨hrestricts, hne⟩], hne⟩
  · have hnone : idSubset vecToNodeIds metaResults = [] := by
      rw [List.eq_nil_iff_forall_not_mem]
      intro id hid
      obtain ⟨m, hm, hnode⟩ := getElem?_of_mem_idSubset hid
      exact hvectors ⟨m, hm, List.mem_of_getElem? hnode⟩
    refine .inr ⟨fun m hm hnode => hvectors ⟨m, hm, hnode⟩, ?_⟩
    rw [vecCfg, if_neg fun h => h.2 hnone]

variable [Field F] [LinearOrder F] {retriever : HybridRetriever F} {query : List F}

/-- The items of a search restricted to matched nodes are these nodes. -/
theorem HybridRetriever.retrieve_restricted (rank : StdSort (NearestFirst (F := F)))
    (sort : StdSort (FusedFirst (F := F))) (hrestricts : cfg.restricts)
    (hfaiss : retriever.vecPath.faiss.Restricts)
    (hmeta : retriever.metaPath.search cfg.metadata = .ok metaResults)
    (hvectors : ∃ m ∈ metaResults, m.nodeId ∈ vecToNodeIds) :
    ∃ outcome, retriever.retrieve query cfg vecToNodeIds rank sort = some outcome ∧
      ∀ items, outcome = .ok items → ∀ node,
        node ∈ items.map RetrievalItem.nodeId ↔ ∃ m ∈ metaResults, m.nodeId = node := by
  obtain ⟨m, hm, hnode⟩ := hvectors
  have hsome : ¬(cfg.restricts ∧ metaResults.isEmpty = true) := fun h =>
    List.ne_nil_of_mem hm (List.isEmpty_iff.mp h.2)
  have hfused : retriever.fused query cfg vecToNodeIds =
      (retriever.vecPath.search query retriever.vecPath.dim
        (vecCfg cfg vecToNodeIds metaResults)).map fun vec =>
          some (vec, vecNodeIds vecToNodeIds vec, metaResults) := by
    rw [fused, hmeta]
    simp only [bind, Except.bind, if_neg hsome]
    cases retriever.vecPath.search query retriever.vecPath.dim (vecCfg cfg vecToNodeIds metaResults)
      <;> rfl
  cases hsearch : retriever.vecPath.search query retriever.vecPath.dim
      (vecCfg cfg vecToNodeIds metaResults) with
  | error e =>
    rw [hsearch] at hfused
    exact ⟨.error e, by rw [retrieve, hfused]; rfl, fun items h => by cases h⟩
  | ok vec =>
    rw [hsearch] at hfused
    -- every hit is one of the ids, whose nodes are all matched
    have hhits : ∀ hit ∈ vec, ∃ m ∈ metaResults, vecToNodeIds[hit.index]? = some m.nodeId := by
      intro hit hhit
      obtain ⟨index, -, rfl⟩ := VectorPath.search_eq_ok hsearch
      rcases vecCfg_spec vecToNodeIds metaResults hrestricts with ⟨-, hcfg, hne⟩ | ⟨hnone, -⟩
      · rw [hcfg] at hhit
        exact getElem?_of_mem_idSubset (VectorPath.mem_searchIndex_hybrid hfaiss rfl hne hhit)
      · exact absurd hnode (hnone m hm)
    have hmapped : ∀ hit ∈ vec, hit.index < vecToNodeIds.length := by
      intro hit hhit
      obtain ⟨m, -, hm⟩ := hhits hit hhit
      exact (List.getElem?_eq_some_iff.mp hm).1
    obtain ⟨results, hresults, hnodes⟩ := retriever.fusion.nodes_fuse rank sort metaResults
      (creditsOwnNode_iff.mpr hmapped).1
    refine ⟨_, by rw [retrieve, hfused]; exact congrArg (Option.map _) hresults, ?_⟩
    rintro items hitems node
    obtain rfl := Except.ok.inj hitems
    rw [List.map_map]
    refine (hnodes node).trans (or_iff_right_of_imp fun hmem => ?_)
    obtain ⟨hit, hhit, hread⟩ := List.mem_filterMap.mp hmem
    obtain ⟨m, hm, hm'⟩ := hhits hit hhit
    exact ⟨m, hm, Option.some.inj (hm'.symm.trans hread)⟩

/-- Filters that match nothing leave nothing. Where a matched node has a vector the items are the
matched nodes, and the search is restricted to indices of matched nodes, with at least one of each
that has a vector. Where none has one the search is that of the caller. -/
theorem HybridRetriever.filters_constrain (rank : StdSort (NearestFirst (F := F)))
    (sort : StdSort (FusedFirst (F := F))) (hrestricts : cfg.restricts)
    (hfaiss : retriever.vecPath.faiss.Restricts)
    (hmeta : retriever.metaPath.search cfg.metadata = .ok metaResults) :
    (metaResults = [] → retriever.retrieve query cfg vecToNodeIds rank sort = some (.ok [])) ∧
    ((∃ m ∈ metaResults, m.nodeId ∈ vecToNodeIds) →
      (vecCfg cfg vecToNodeIds metaResults).mode = .hybrid ∧
      (∀ id ∈ (vecCfg cfg vecToNodeIds metaResults).idSubset,
        ∃ m ∈ metaResults, vecToNodeIds[id]? = some m.nodeId) ∧
      (∀ m ∈ metaResults, m.nodeId ∈ vecToNodeIds →
        ∃ id ∈ (vecCfg cfg vecToNodeIds metaResults).idSubset, vecToNodeIds[id]? = some m.nodeId) ∧
      ∃ outcome, retriever.retrieve query cfg vecToNodeIds rank sort = some outcome ∧
        ∀ items, outcome = .ok items → ∀ node,
          node ∈ items.map RetrievalItem.nodeId ↔ ∃ m ∈ metaResults, m.nodeId = node) ∧
    ((∀ m ∈ metaResults, m.nodeId ∉ vecToNodeIds) →
      vecCfg cfg vecToNodeIds metaResults = cfg.vector) := by
  refine ⟨?_, fun hvectors => ?_, fun hnone => ?_⟩
  · rintro rfl
    have hfused : retriever.fused query cfg vecToNodeIds = .ok none := by
      rw [fused, hmeta]
      exact if_pos ⟨hrestricts, rfl⟩
    rw [retrieve, hfused]
  · rcases vecCfg_spec vecToNodeIds metaResults hrestricts with ⟨-, hcfg, -⟩ | ⟨hnone, -⟩
    · rw [hcfg]
      exact ⟨rfl, fun id hid => getElem?_of_mem_idSubset hid,
        fun m hm hnode => exists_mem_idSubset hm hnode,
        retrieve_restricted rank sort hrestricts hfaiss hmeta hvectors⟩
    · obtain ⟨m, hm, hnode⟩ := hvectors
      exact absurd hnode (hnone m hm)
  · rcases vecCfg_spec vecToNodeIds metaResults hrestricts with ⟨⟨m, hm, hnode⟩, -⟩ | ⟨-, hcfg⟩
    · exact absurd hnode (hnone m hm)
    · exact hcfg

end Restriction

/-! ### Two nodes and a short table -/

/-- A retriever over the vectors 0 and 3 whose metadata search finds some nodes. -/
def twoVectorRetriever (found : List ℤ) : HybridRetriever ℚ where
  vecPath := twoVectors
  metaPath := ⟨fun _ _ => .ok found⟩
  fusion := .weighted halves

/-- A top-k search, perhaps for the nodes of a type. -/
def topKOf (nodeTypes : List String) : RetrieverConfig ℚ :=
  ⟨⟨.topK, 10, 1, []⟩, ⟨[], nodeTypes, 100⟩⟩

/-- The hit at index 1 has no node; its distance goes to the node of the other hit. -/
theorem unmapped_hit_shifts_nodes :
    (twoVectorRetriever []).fused [3] (topKOf []) [7] =
        .ok (some ([⟨1, 0⟩, ⟨0, 9⟩], [7], [])) ∧
      ¬CreditsOwnNode [7] [(⟨1, 0⟩ : VectorResult ℚ), ⟨0, 9⟩] [7] := by
  refine ⟨by with_unfolding_all rfl, fun hown => ?_⟩
  cases hown.1

theorem all_hits_mapped :
    CreditsOwnNode [7, 8] [(⟨1, 0⟩ : VectorResult ℚ), ⟨0, 9⟩] [8, 7] ∧
      ∀ fusion : ScoreFusion ℚ,
        (fusion.fuse sortNearest sortFused [⟨1, 0⟩, ⟨0, 9⟩] [8, 7] []).isSome := by
  have hfused : (twoVectorRetriever []).fused [3] (topKOf []) [7, 8] =
      .ok (some ([⟨1, 0⟩, ⟨0, 9⟩], [8, 7], [])) := by
    with_unfolding_all rfl
  exact (creditsOwnNode_fused_iff hfused sortNearest sortFused).mpr (by simp)

theorem part_search_restricted :
    ∃ outcome, (twoVectorRetriever [7]).retrieve [3] (topKOf ["part"]) [7, 8] sortNearest sortFused =
        some outcome ∧
      ∀ items, outcome = .ok items → ∀ node, node ∈ items.map RetrievalItem.nodeId ↔
        ∃ m ∈ [(⟨7, 1⟩ : MetadataResult ℚ)], m.nodeId = node :=
  ((HybridRetriever.filters_constrain sortNearest sortFused ⟨.inr (by simp [topKOf]), rfl⟩
    flatNeighbours_restricts rfl).2.1 ⟨_, List.mem_singleton_self _, by simp⟩).2.2.2

/-- The only matched node has no vector; the search is not restricted and finds node 8. -/
theorem fallback_finds_unmatched_node :
    (topKOf ["part"]).restricts ∧
      (twoVectorRetriever [9]).metaPath.search (topKOf ["part"]).metadata = .ok [⟨9, 1⟩] ∧
      ∃ items, (twoVectorRetriever [9]).retrieve [3] (topKOf ["part"]) [7, 8] sortNearest sortFused =
          some (.ok items) ∧
        8 ∈ items.map RetrievalItem.nodeId ∧ ¬∃ m ∈ [(⟨9, 1⟩ : MetadataResult ℚ)], m.nodeId = 8 := by
  refine ⟨⟨.inr (by simp [topKOf]), rfl⟩, rfl, ?_⟩
  have hfused : (twoVectorRetriever [9]).fused [3] (topKOf ["part"]) [7, 8] =
      .ok (some ([⟨1, 0⟩, ⟨0, 9⟩], [8, 7], [⟨9, 1⟩])) := by
    with_unfolding_all rfl
  have hlength : [(8 : ℤ), 7].length = [(⟨1, 0⟩ : VectorResult ℚ), ⟨0, 9⟩].length := rfl
  obtain ⟨results, hresults, hnodes⟩ := (twoVectorRetriever [9]).fusion.nodes_fuse sortNearest
    sortFused [⟨9, 1⟩] hlength
  refine ⟨_, by rw [HybridRetriever.retrieve, hfused]; exact congrArg (Option.map _) hresults, ?_,
    by simp⟩
  rw [List.map_map]
  exact (hnodes 8).mpr (.inl List.mem_cons_self)

end SurfaceAi.Retrieval
