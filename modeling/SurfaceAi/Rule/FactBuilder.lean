import SurfaceAi.Rule.FactBase
import SurfaceAi.Knowledge.Graph
import SurfaceAi.Detection.Result

/-! The fact builder: detection facts, graph facts along `->` paths, and the results
of a vector search written back as facts. The search itself is a parameter, and so
are the conversions between the two floating-point widths. -/

namespace SurfaceAi.Rules

open Detection Knowledge

/-- The casts between `float`, `double` and `std::size_t`. -/
class FloatCasts (F D : Type) where
  toDouble : F → D
  toFloat : D → F
  toSize (F) : D → ℕ

instance exactCasts : FloatCasts ℚ ℚ where
  toDouble := id
  toFloat := id
  toSize q := q.floor.toNat

section Graph

variable {D : Type} [Doubles D]

/-- Binary data has no rule value. -/
def fieldValueToRuleValue : FieldValue D → Value D
  | .int v => .ofInt64 v
  | .double d => .ofDouble d
  | .string s => .ofString s
  | .bytes _ => .null

end Graph

/-! ### Path strings -/

/-- Empty tokens are skipped. -/
def pushToken (token : List Char) (tokens : List String) : List String :=
  if token = [] then tokens else String.ofList token :: tokens

/-- The scan of `SplitString` for `->`, given the characters of the current token. -/
def splitArrows : List Char → List Char → List String
  | token, '-' :: '>' :: rest => pushToken token (splitArrows [] rest)
  | token, c :: rest => splitArrows (token ++ [c]) rest
  | token, [] => pushToken token []

/-- `SplitString(path, "->")`. -/
def splitString (path : String) : List String := splitArrows [] path.toList

/-- Split at the last dot, as `rfind` finds it. -/
def splitLastDot (s : String) : Option (String × String) :=
  match s.toList.reverse.span (· ≠ '.') with
  | (_, []) => none
  | (suffix, _ :: rest) => some (String.ofList rest.reverse, String.ofList suffix.reverse)

/-- The final relationship (maybe empty) and the property key of the last segment. -/
def finalSegment (last : String) : String × String := (splitLastDot last).getD ("", last)

def graphPathFlatKey (segments : List String) (property : String) : String :=
  segments.foldl (fun key seg => key ++ "." ++ seg) "graph" ++ "." ++ property

/-- A path without the character `>` is one segment. -/
theorem splitArrows_of_not_mem {token : List Char} {cs : List Char} (h : '>' ∉ cs) :
    splitArrows token cs = pushToken (token ++ cs) [] := by
  induction cs generalizing token with
  | nil => simp [splitArrows]
  | cons c cs ih =>
    have hcs : '>' ∉ cs := fun hmem => h (List.mem_cons_of_mem c hmem)
    have hstep : splitArrows token (c :: cs) = splitArrows (token ++ [c]) cs := by
      rw [splitArrows]
      rintro rest - rfl
      exact hcs (by simp)
    rw [hstep, ih hcs, List.append_assoc, List.singleton_append]

theorem length_splitString_le_one {path : String} (h : '>' ∉ path.toList) :
    (splitString path).length ≤ 1 := by
  rw [splitString, splitArrows_of_not_mem h, pushToken]
  split <;> simp

/-! ### The builder -/

structure VectorResult (F : Type) where
  index : ℕ
  distance : F

/-- The fields of `VectorPath::Config` the builder sets; the mode is always top-k. -/
structure SearchConfig where
  k : ℕ
  idSubset : List ℕ
  deriving DecidableEq, Repr

abbrev VectorPath (F : Type) := List F → SearchConfig → Result (List (VectorResult F))

structure RetrievalCache (F : Type) where
  query : List F
  results : List (VectorResult F)

structure FactBuilder (F D : Type) where
  kg : Option (KnowledgeGraph D)
  vp : Option (VectorPath F)
  retrievalCache : Option (RetrievalCache F)
  cacheEpsilon : D

variable {F D : Type} [Doubles D]

def FactBase.setDirect (fb : FactBase D) (key : String) (v : Value D) (description : String) :
    FactBase D :=
  fb.set key v ⟨.direct, description⟩

/-- A `size_t` or a count as a double value. -/
def Value.ofNat (n : ℕ) : Value D := .ofDouble (Doubles.ofInt n)

variable [FloatCasts F D]

/-- A `float` as a double value. -/
def Value.ofFloat (x : F) : Value D := .ofDouble (FloatCasts.toDouble x)

/-- The facts of the first region, if there is one. -/
def mapFirstRegion (fb : FactBase D) : List (RegionProposal F) → FactBase D
  | [] => fb
  | r :: _ =>
    fb.setDirect "detection.region.0.max_score" (.ofFloat r.maxAnomalyScore)
        "regions[0].max_anomaly_score"
      |>.setDirect "detection.region.0.mean_score" (.ofFloat r.meanAnomalyScore)
        "regions[0].mean_anomaly_score"
      |>.setDirect "detection.region.0.area_pixels" (.ofNat r.areaPixels) "regions[0].area_pixels"
      |>.setDirect "detection.region.0.x" (.ofNat r.boundingBox.x) "regions[0].bounding_box.x"
      |>.setDirect "detection.region.0.y" (.ofNat r.boundingBox.y) "regions[0].bounding_box.y"
      |>.setDirect "detection.region.0.width" (.ofNat r.boundingBox.width)
        "regions[0].bounding_box.width"
      |>.setDirect "detection.region.0.height" (.ofNat r.boundingBox.height)
        "regions[0].bounding_box.height"

def mapDetection [Zero F] [LT F] [DecidableLT F] (fb : FactBase D) (dr : DetectionResult F) :
    FactBase D :=
  let fb := fb.setDirect "detection.image_level_score" (.ofFloat dr.imageLevelScore)
        "DetectionResult::image_level_score"
      |>.setDirect "detection.latency_ns" (.ofNat dr.inferenceLatency)
        "DetectionResult::inference_latency"
      |>.setDirect "detection.anomaly_map.max_score" (.ofFloat dr.anomalyMap.maxScore)
        "DetectionResult::anomaly_map.MaxScore()"
      |>.setDirect "detection.grid_h" (.ofNat dr.anomalyMap.gridH)
        "DetectionResult::anomaly_map.grid_h"
      |>.setDirect "detection.grid_w" (.ofNat dr.anomalyMap.gridW)
        "DetectionResult::anomaly_map.grid_w"
      |>.setDirect "detection.region_count" (.ofNat dr.regions.length)
        "DetectionResult::regions.size()"
  mapFirstRegion fb dr.regions

/-- The two scores of a result, under the keys the rules know. -/
def HasDetectionFacts [Zero F] [LT F] [DecidableLT F] (fb : FactBase D) (dr : DetectionResult F) :
    Prop :=
  fb.get "detection.image_level_score" = some (.ofFloat dr.imageLevelScore) ∧
    fb.get "detection.anomaly_map.max_score" = some (.ofFloat dr.anomalyMap.maxScore)

theorem hasDetectionFacts_mapDetection [Zero F] [LT F] [DecidableLT F] (fb : FactBase D)
    (dr : DetectionResult F) : HasDetectionFacts (mapDetection fb dr) dr := by
  cases hr : dr.regions with
  | nil =>
    constructor <;> simp [mapDetection, mapFirstRegion, hr, FactBase.setDirect, FactBase.get_set]
  | cons r rs =>
    constructor <;> simp [mapDetection, mapFirstRegion, hr, FactBase.setDirect, FactBase.get_set]

/-! ### Graph paths -/

section Walk

variable (kg : KnowledgeGraph D)

/-- One hop: the targets of all current nodes, sorted and without repetition. A node whose
traversal fails contributes nothing. -/
def followRelationship (rel : String) (ids : List ℤ) : List ℤ :=
  let next := ids.flatMap fun id =>
    match kg.traverse id rel 1 with
    | .ok paths => paths.flatMap fun gp => gp.targets.map KnowledgeNode.id
    | .error _ => []
  (next.mergeSort (· ≤ ·)).eraseReps

def walk : List String → List ℤ → List ℤ
  | [], ids => ids
  | rel :: rels, ids =>
    match followRelationship kg rel ids with
    | [] => []
    | next => walk rels next

/-- Set the property of one final node, unless it is missing or has no rule value. -/
def setProperty (path flatKey propertyKey : String) (fb : FactBase D) (id : ℤ) : FactBase D :=
  match kg.getNode id with
  | .error _ => fb
  | .ok node =>
    match node.properties.fields.lookup propertyKey with
    | none => fb
    | some field =>
      let v := fieldValueToRuleValue field
      if v.isNull then fb else fb.set flatKey v ⟨.graphPath, path⟩

/-- The loop body of `ResolveGraphPaths`. -/
def resolveGraphPath (fb : FactBase D) (path : String) : Result (FactBase D) :=
  if path = "" then .ok fb
  else
    match splitString path with
    | nodeType :: segment :: segments =>
      let (finalRel, propertyKey) := finalSegment ((segment :: segments).getLast (by simp))
      let relationships :=
        (segment :: segments).dropLast ++ if finalRel = "" then [] else [finalRel]
      if propertyKey = "" then fail .ruleInvalidPath ("Empty property key in path: " ++ path)
      else
        match kg.findNodesByType nodeType with
        | .error _ => .ok fb
        | .ok nodes =>
          .ok ((walk kg relationships (nodes.map KnowledgeNode.id)).foldl
            (setProperty kg path (graphPathFlatKey (nodeType :: relationships) propertyKey)
              propertyKey) fb)
    | _ => fail .ruleInvalidPath ("Path must have at least 'NodeType->PropertyKey': " ++ path)

/-- A non-empty path without an arrow names no property. -/
theorem resolveGraphPath_of_not_mem (fb : FactBase D) {path : String} (hne : path ≠ "")
    (h : '>' ∉ path.toList) :
    resolveGraphPath kg fb path =
      fail .ruleInvalidPath ("Path must have at least 'NodeType->PropertyKey': " ++ path) := by
  have hlen := length_splitString_le_one h
  rw [resolveGraphPath, if_neg hne]
  split
  · next heq => simp [heq] at hlen
  · rfl

end Walk

namespace FactBuilder

variable (builder : FactBuilder F D)

/-- `ResolveGraphPaths`. On an error the facts set by earlier paths are dropped by the
only caller, so they are not returned. -/
def resolveGraphPaths (fb : FactBase D) (paths : List String) : Result (FactBase D) :=
  if paths = [] then .ok fb
  else
    match builder.kg with
    | none => fail .ruleInvalidPath "ResolveGraphPaths: KnowledgeGraph is null"
    | some kg => paths.foldlM (resolveGraphPath kg) fb

def build [Zero F] [LT F] [DecidableLT F] (surfaceId : String) (detection : DetectionResult F)
    (graphPathsToResolve : List String) : Result (FactBase D) :=
  let fb := FactBase.empty.setDirect "surface.id" (.ofString surfaceId) "Build input surface_id"
  builder.resolveGraphPaths (mapDetection fb detection) graphPathsToResolve

theorem build_nil [Zero F] [LT F] [DecidableLT F] (surfaceId : String)
    (detection : DetectionResult F) :
    ∃ fb, builder.build surfaceId detection [] = .ok fb ∧ HasDetectionFacts fb detection :=
  ⟨_, rfl, hasDetectionFacts_mapDetection _ _⟩

/-- A build with such a path fails, whether or not the builder has a graph. -/
theorem build_of_not_mem [Zero F] [LT F] [DecidableLT F] (surfaceId : String)
    (detection : DetectionResult F) {path : String} (hne : path ≠ "") (h : '>' ∉ path.toList) :
    ∃ e, builder.build surfaceId detection [path] = .error e := by
  rw [build, resolveGraphPaths, if_neg (by simp)]
  cases builder.kg with
  | none => exact ⟨_, rfl⟩
  | some kg =>
    simp only [List.foldlM_cons, resolveGraphPath_of_not_mem kg _ hne h]
    exact ⟨_, rfl⟩

/-! ### Vector retrieval -/

/-- The query vector stored under a key, as floats. -/
def queryVector (fb : FactBase D) (embeddingKey : String) : Result (List F) :=
  match fb.get embeddingKey with
  | none => fail .ruleTypeMismatch
      ("RunVectorRetrieval: embedding_key '" ++ embeddingKey ++ "' not found in FactBase")
  | some v =>
    match v.asList with
    | some (x :: xs) => (x :: xs).mapM fun elem =>
      match elem.asDouble with
      | some d => .ok (FloatCasts.toFloat d)
      | none => fail .ruleTypeMismatch "RunVectorRetrieval: query vector element must be numeric"
    | _ => fail .ruleTypeMismatch
      ("RunVectorRetrieval: embedding_key '" ++ embeddingKey ++ "' must be a non-empty Value list")

/-- Top ten without a restriction, unless the facts say otherwise. -/
def searchConfig (F : Type) [FloatCasts F D] (fb : FactBase D) : SearchConfig where
  k := (((fb.get "retrieval.config.k").bind Value.asDouble).map
    (FloatCasts.toSize F)).getD 10
  idSubset := ((((fb.get "retrieval.config.id_subset").bind Value.asList).getD []).filterMap
    Value.asDouble).map (FloatCasts.toSize F)

/-- The squared distance of two queries, summed in double precision. -/
def queryDistance (xs ys : List F) : D :=
  (xs.zip ys).foldl (fun acc p =>
    let d := Doubles.sub (FloatCasts.toDouble p.1) (FloatCasts.toDouble p.2)
    Doubles.add acc (Doubles.mul d d)) (Doubles.ofInt 0)

/-- The cached results, if the query is close enough to the last one searched. -/
def cachedResults (query : List F) : Option (List (VectorResult F)) :=
  match builder.retrievalCache with
  | none => none
  | some cache =>
    if Doubles.lt (Doubles.ofInt 0) builder.cacheEpsilon ∧ cache.query.length = query.length ∧
        Doubles.lt (queryDistance query cache.query)
          (Doubles.mul builder.cacheEpsilon builder.cacheEpsilon) then
      some cache.results
    else none

/-- The two facts of the result at `rank`, counted from one. -/
def writeResult (fb : FactBase D) (r : VectorResult F) (rank : ℕ) : FactBase D :=
  let top := "retrieval.top" ++ toString rank
  (fb.set (top ++ ".index") (.ofNat r.index) ⟨.vectorSearch, top ++ ".index"⟩).set
    (top ++ ".distance") (.ofFloat r.distance) ⟨.vectorSearch, top ++ ".distance"⟩

def writeRetrievalResults (fb : FactBase D) (results : List (VectorResult F)) (k : ℕ) :
    FactBase D :=
  (results.zipIdx 1).foldl (fun fb r => writeResult fb r.1 r.2)
    (fb.set "retrieval.count" (.ofNat results.length)
      ⟨.vectorSearch, "VectorPath TopK k=" ++ toString k⟩)

/-- `RunVectorRetrieval`: its result, the facts and the builder with its cache. -/
def runVectorRetrieval (fb : FactBase D) (embeddingKey : String) :
    Result Unit × FactBase D × FactBuilder F D :=
  match builder.vp with
  | none => (fail .ruleInvalidPath "RunVectorRetrieval: VectorPath is null", fb, builder)
  | some search =>
    match queryVector fb embeddingKey with
    | .error e => (.error e, fb, builder)
    | .ok query =>
      let cfg := searchConfig F fb
      match builder.cachedResults query with
      | some results => (.ok (), writeRetrievalResults fb results cfg.k, builder)
      | none =>
        match search query cfg with
        | .error e => (.error e, fb, builder)
        | .ok results =>
          (.ok (), writeRetrievalResults fb results cfg.k,
            { builder with retrievalCache := some ⟨query, results⟩ })

theorem get_writeResult (fb : FactBase D) (r : VectorResult F) (rank : ℕ) {key : String}
    (h : ¬"retrieval.".toList <+: key.toList) : (writeResult fb r rank).get key = fb.get key := by
  have hne : ∀ field : String, key ≠ "retrieval.top" ++ toString rank ++ field := by
    rintro field rfl
    refine h ⟨"top".toList ++ (toString rank).toList ++ field.toList, ?_⟩
    simp only [String.toList_append, ← List.append_assoc]
    rfl
  rw [writeResult, FactBase.get_set_ne _ (hne _), FactBase.get_set_ne _ (hne _)]

/-- Retrieval writes keys below `retrieval.` only. -/
theorem get_writeRetrievalResults (fb : FactBase D) (results : List (VectorResult F)) (k : ℕ)
    {key : String} (h : ¬"retrieval.".toList <+: key.toList) :
    (writeRetrievalResults fb results k).get key = fb.get key := by
  have hcount : key ≠ "retrieval.count" := by
    rintro rfl
    exact h (by decide)
  rw [writeRetrievalResults, ← FactBase.get_set_ne fb hcount (.ofNat results.length)
    ⟨.vectorSearch, "VectorPath TopK k=" ++ toString k⟩]
  generalize fb.set "retrieval.count" _ _ = fb'
  induction results.zipIdx 1 generalizing fb' with
  | nil => rfl
  | cons r rs ih => rw [List.foldl_cons, ih, get_writeResult _ _ _ h]

theorem get_runVectorRetrieval (fb : FactBase D) (embeddingKey : String) {key : String}
    (h : ¬"retrieval.".toList <+: key.toList) :
    (builder.runVectorRetrieval fb embeddingKey).2.1.get key = fb.get key := by
  unfold runVectorRetrieval
  split
  · rfl
  · split
    · rfl
    · dsimp only
      split
      · exact get_writeRetrievalResults _ _ _ h
      · split
        · rfl
        · exact get_writeRetrievalResults _ _ _ h

end FactBuilder

end SurfaceAi.Rules
