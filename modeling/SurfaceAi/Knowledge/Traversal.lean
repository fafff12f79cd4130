import SurfaceAi.Knowledge.Graph
import SurfaceAi.Library.BoundedSearch

/-! What the traversals return. Both are one depth-first search that shares its visited
set among the branches, along the edges or against them. A node that is first met at the
end of a long path is not searched again when it is met on a shorter one, so nodes within
the depth can be missed; they are not as long as the search is never cut short. -/

namespace SurfaceAi.Knowledge

open BoundedSearch

namespace KnowledgeGraph

variable {D : Type} (kg : KnowledgeGraph D)

/-- The rows of the join of the edges into `target` with their source nodes. -/
def sourceRows (target : ℤ) (relationship : String) : List (KnowledgeNode D) :=
  kg.edges.flatMap fun e =>
    if e.targetId = target ∧ e.relationship = relationship then
      kg.nodes.filter fun n => n.id = e.sourceId
    else []

/-- Depth first along the rows of a query, sharing one visited set. -/
def walkImpl (rows : ℤ → List (KnowledgeNode D)) (unprepared : Option ErrorInfo)
    (relationship : String) : ℕ → ℤ → List ℤ → Result (List (GraphPath D) × List ℤ)
  | 0, _, visited => .ok ([], visited)
  | depth + 1, source, visited =>
    match unprepared with
    | some e => .error e
    | none => do
      let targets := rows source
      let paths := if targets.isEmpty then [] else [⟨source, relationship, targets⟩]
      if depth = 0 then return (paths, source :: visited)
      let (deeper, visited) ← traverseNeighbours (walkImpl rows unprepared relationship depth)
        (targets.map KnowledgeNode.id) (source :: visited)
      return (paths ++ deeper, visited)

/-- `TraverseImpl` as that search along the edges. -/
def traverseUnprepared : Option ErrorInfo :=
  (kg.prepareError ("SELECT e.id, n.id, n.type, n.properties_json " ++
    "FROM edges e JOIN nodes n ON e.target_id = n.id " ++
    "WHERE e.source_id = ? AND e.relationship = ?")).map fun msg =>
      ⟨.knowledgeDbOpenFailed, "prepare traverse: " ++ msg⟩

theorem traverseImpl_eq_walkImpl (relationship : String) (depth : ℕ) :
    kg.traverseImpl relationship depth =
      walkImpl (fun source => kg.targetRows source relationship) kg.traverseUnprepared
        relationship depth := by
  induction depth with
  | zero => rfl
  | succ depth ih =>
    funext source visited
    cases hp : kg.prepareError ("SELECT e.id, n.id, n.type, n.properties_json " ++
      "FROM edges e JOIN nodes n ON e.target_id = n.id " ++
      "WHERE e.source_id = ? AND e.relationship = ?") with
    | some msg =>
      have hu : kg.traverseUnprepared =
          some ⟨.knowledgeDbOpenFailed, "prepare traverse: " ++ msg⟩ := by
        rw [traverseUnprepared, hp, Option.map_some]
      simp only [traverseImpl, walkImpl, hp, hu, fail]
    | none =>
      have hu : kg.traverseUnprepared = none := by
        rw [traverseUnprepared, hp, Option.map_none]
      rw [hu] at ih
      simp only [traverseImpl, walkImpl, hp, hu, ih]

/-- `ReverseTraverseImpl`: the same search against the edges. -/
def reverseTraverseImpl (relationship : String) :
    ℕ → ℤ → List ℤ → Result (List (GraphPath D) × List ℤ) :=
  walkImpl (fun target => kg.sourceRows target relationship)
    ((kg.prepareError ("SELECT e.id, n.id, n.type, n.properties_json " ++
      "FROM edges e JOIN nodes n ON e.source_id = n.id " ++
      "WHERE e.target_id = ? AND e.relationship = ?")).map fun msg =>
        ⟨.knowledgeDbOpenFailed, "prepare reverse_traverse: " ++ msg⟩)
    relationship

def reverseTraverse (target : ℤ) (relationship : String) (maxDepth : ℕ) :
    Result (List (GraphPath D)) :=
  (kg.reverseTraverseImpl relationship maxDepth target []).map Prod.fst

/-- The ids of the nodes in the paths. -/
def targetIds (paths : List (GraphPath D)) : List ℤ :=
  paths.flatMap fun path => path.targets.map KnowledgeNode.id

/-- An edge of that label leads from `a` to the node `b`. -/
def Linked (relationship : String) (a b : ℤ) : Prop :=
  (∃ e ∈ kg.edges, e.sourceId = a ∧ e.targetId = b ∧ e.relationship = relationship) ∧
    ∃ n ∈ kg.nodes, n.id = b

instance (relationship : String) (a b : ℤ) : Decidable (kg.Linked relationship a b) :=
  inferInstanceAs (Decidable ((∃ e ∈ kg.edges, e.sourceId = a ∧ e.targetId = b ∧
    e.relationship = relationship) ∧ ∃ n ∈ kg.nodes, n.id = b))

/-- An edge of that label leads from the node `b` to `a`. -/
def LinkedBack (relationship : String) (a b : ℤ) : Prop :=
  (∃ e ∈ kg.edges, e.targetId = a ∧ e.sourceId = b ∧ e.relationship = relationship) ∧
    ∃ n ∈ kg.nodes, n.id = b

theorem mem_join_ids {edges : List KnowledgeEdge} {nodes : List (KnowledgeNode D)}
    {p : KnowledgeEdge → Prop} [DecidablePred p] {far : KnowledgeEdge → ℤ} (b : ℤ) :
    b ∈ (edges.flatMap fun e =>
        if p e then nodes.filter fun n => n.id = far e else []).map KnowledgeNode.id ↔
      (∃ e ∈ edges, p e ∧ far e = b) ∧ ∃ n ∈ nodes, n.id = b := by
  simp only [List.mem_map, List.mem_flatMap]
  constructor
  · rintro ⟨n, ⟨e, he, hn⟩, rfl⟩
    split_ifs at hn with hp
    · obtain ⟨hnode, hid⟩ := List.mem_filter.mp hn
      exact ⟨⟨e, he, hp, (of_decide_eq_true hid).symm⟩, n, hnode, rfl⟩
    · cases hn
  · rintro ⟨⟨e, he, hp, rfl⟩, n, hn, hid⟩
    refine ⟨n, ⟨e, he, ?_⟩, hid⟩
    rw [if_pos hp]
    exact List.mem_filter.mpr ⟨hn, decide_eq_true hid⟩

theorem mem_targetRows_ids (relationship : String) (a b : ℤ) :
    b ∈ (kg.targetRows a relationship).map KnowledgeNode.id ↔ kg.Linked relationship a b := by
  rw [targetRows, mem_join_ids, Linked]
  simp only [and_assoc, and_comm, and_left_comm]

theorem mem_sourceRows_ids (relationship : String) (a b : ℤ) :
    b ∈ (kg.sourceRows a relationship).map KnowledgeNode.id ↔
      kg.LinkedBack relationship a b := by
  rw [sourceRows, mem_join_ids, LinkedBack]
  simp only [and_assoc, and_comm, and_left_comm]

section Walk

variable {rows : ℤ → List (KnowledgeNode D)} {relationship : String}

/-- The neighbours in the rows of a node. -/
def neighbours (rows : ℤ → List (KnowledgeNode D)) (v : ℤ) : List ℤ :=
  (rows v).map KnowledgeNode.id

def Found (rows : ℤ → List (KnowledgeNode D)) (seen : Seen ℤ) (b : ℤ) : Prop :=
  ∃ p ∈ seen, b ∈ neighbours rows p.1

/-- The search has visited `seen'` after `seen` and returned what that adds. -/
def Adds (rows : ℤ → List (KnowledgeNode D)) (seen seen' : Seen ℤ)
    (r : Result (List (GraphPath D) × List ℤ)) : Prop :=
  ∃ paths, r = .ok (paths, seen'.map Prod.fst) ∧
    ∀ b, Found rows seen' b ↔ b ∈ targetIds paths ∨ Found rows seen b

theorem targetIds_append (ps qs : List (GraphPath D)) :
    targetIds (ps ++ qs) = targetIds ps ++ targetIds qs := List.flatMap_append ..

theorem traverseNeighbours_adds {visit : ℤ → Seen ℤ → Seen ℤ}
    {recurse : ℤ → List ℤ → Result (List (GraphPath D) × List ℤ)}
    (hvisit : ∀ v seen, Adds rows seen (visit v seen) (recurse v (seen.map Prod.fst)))
    (vs : List ℤ) (seen : Seen ℤ) :
    Adds rows seen (visitEach visit vs seen)
      (traverseNeighbours recurse vs (seen.map Prod.fst)) := by
  induction vs generalizing seen with
  | nil => exact ⟨[], rfl, by simp [visitEach, targetIds]⟩
  | cons v vs ih =>
    unfold visitEach traverseNeighbours
    split_ifs with hv
    · exact ih seen
    · obtain ⟨deeper, hdeeper, hfound⟩ := hvisit v seen
      obtain ⟨rest, hrest, hfound'⟩ := ih (visit v seen)
      refine ⟨deeper ++ rest, ?_, fun b => ?_⟩
      · simp only [hdeeper, hrest, bind, Except.bind, pure, Except.pure]
      · rw [hfound', hfound, targetIds_append, List.mem_append]
        tauto

/-- The code's search visits what the search of the graph visits, and its paths hold the
successors of the nodes it visits. -/
theorem walkImpl_adds (depth : ℕ) (v : ℤ) (seen : Seen ℤ) :
    Adds rows seen (search (neighbours rows) depth v seen)
      (walkImpl rows none relationship depth v (seen.map Prod.fst)) := by
  induction depth generalizing v seen with
  | zero => exact ⟨[], rfl, by simp [search, targetIds]⟩
  | succ depth ih =>
    have hpaths : ∀ b, b ∈ targetIds (if (rows v).isEmpty then []
        else [(⟨v, relationship, rows v⟩ : GraphPath D)]) ↔ b ∈ neighbours rows v := by
      intro b
      cases hrows : rows v with
      | nil => simp [targetIds, neighbours, hrows]
      | cons n ns => simp [targetIds, neighbours, hrows]
    have hcons : ∀ b, Found rows ((v, depth + 1) :: seen) b ↔
        b ∈ neighbours rows v ∨ Found rows seen b := by
      intro b
      simp [Found]
    unfold search walkImpl
    cases depth with
    | zero =>
      rw [visitEach_search_zero]
      refine ⟨_, rfl, fun b => ?_⟩
      rw [hcons, hpaths]
    | succ depth =>
      obtain ⟨deeper, hdeeper, hfound⟩ :=
        traverseNeighbours_adds ih (neighbours rows v) ((v, depth + 2) :: seen)
      refine ⟨(if (rows v).isEmpty then [] else [⟨v, relationship, rows v⟩]) ++ deeper, ?_,
        fun b => ?_⟩
      · have hdeeper' : traverseNeighbours (walkImpl rows none relationship (depth + 1))
            ((rows v).map KnowledgeNode.id) (v :: seen.map Prod.fst) = _ := hdeeper
        simp only [hdeeper', Nat.succ_ne_zero, if_false, bind, Except.bind, pure, Except.pure]
      · rw [hfound, hcons, targetIds_append, List.mem_append, hpaths]
        tauto

theorem walkImpl_eq_ok {unprepared : Option ErrorInfo} {depth : ℕ} {v : ℤ}
    {paths : List (GraphPath D)}
    (h : (walkImpl rows unprepared relationship depth v []).map Prod.fst = .ok paths) (b : ℤ) :
    b ∈ targetIds paths ↔ Found rows (search (neighbours rows) depth v []) b := by
  cases depth with
  | zero =>
    obtain rfl := Except.ok.inj h
    simp [targetIds, Found, search]
  | succ depth =>
    cases unprepared with
    | some e => cases h
    | none =>
      have hadds : Adds rows [] _ (walkImpl rows none relationship (depth + 1) v []) :=
        walkImpl_adds (depth + 1) v []
      obtain ⟨paths', hok, hfound⟩ := hadds
      have hpaths : paths' = paths := by
        have hok' : walkImpl rows none relationship (depth + 1) v [] = _ := hok
        rw [hok'] at h
        exact Except.ok.inj h
      rw [← hpaths, hfound]
      simp [Found]

end Walk

/-- The search along the edges never skips a node it met before with less depth left. -/
def NeverCutShort (kg : KnowledgeGraph D) (relationship : String) (maxDepth : ℕ)
    (source : ℤ) : Prop :=
  neverCutShort (neighbours fun a => kg.targetRows a relationship) maxDepth source [] = true

/-- The same of the search against the edges. -/
def NeverCutShortBack (kg : KnowledgeGraph D) (relationship : String) (maxDepth : ℕ)
    (target : ℤ) : Prop :=
  neverCutShort (neighbours fun a => kg.sourceRows a relationship) maxDepth target [] = true

/-- Whatever a traversal returns is within its depth. -/
theorem traverse_within {source : ℤ} {relationship : String} {maxDepth : ℕ}
    {paths : List (GraphPath D)} (h : kg.traverse source relationship maxDepth = .ok paths)
    {b : ℤ} (hb : b ∈ targetIds paths) : Within (kg.Linked relationship) maxDepth source b := by
  rw [traverse, traverseImpl_eq_walkImpl] at h
  exact within_of_found (kg.mem_targetRows_ids relationship) ((walkImpl_eq_ok h b).mp hb)

/-- A traversal that is never cut short returns exactly the nodes within its depth, along
the edges or against them. -/
theorem traverse_iff_within (start : ℤ) (relationship : String) (maxDepth : ℕ)
    (paths : List (GraphPath D)) :
    (kg.NeverCutShort relationship maxDepth start →
      kg.traverse start relationship maxDepth = .ok paths →
        ∀ b, b ∈ targetIds paths ↔ Within (kg.Linked relationship) maxDepth start b) ∧
    (kg.NeverCutShortBack relationship maxDepth start →
      kg.reverseTraverse start relationship maxDepth = .ok paths →
        ∀ b, b ∈ targetIds paths ↔ Within (kg.LinkedBack relationship) maxDepth start b) := by
  constructor
  · intro hdepth h b
    rw [traverse, traverseImpl_eq_walkImpl] at h
    exact (walkImpl_eq_ok h b).trans
      (found_iff_within (kg.mem_targetRows_ids relationship) hdepth b)
  · intro hdepth h b
    exact (walkImpl_eq_ok h b).trans
      (found_iff_within (kg.mem_sourceRows_ids relationship) hdepth b)

/-- With a depth of at most 2 no traversal is cut short. -/
theorem neverCutShort_of_le_two {maxDepth : ℕ} (h : maxDepth ≤ 2) (relationship : String)
    (start : ℤ) : kg.NeverCutShort relationship maxDepth start ∧
      kg.NeverCutShortBack relationship maxDepth start :=
  ⟨BoundedSearch.neverCutShort_of_le_two h start (by simp),
    BoundedSearch.neverCutShort_of_le_two h start (by simp)⟩

/-- The edges 1 → 2 → 3 → 4 → 5 and the short cut 1 → 3. -/
def shortCut : KnowledgeGraph ℤ where
  nodes := [1, 2, 3, 4, 5].map fun id => ⟨id, "Part", ⟨∅⟩⟩
  edges := [⟨1, 1, 2, "NEXT"⟩, ⟨2, 2, 3, "NEXT"⟩, ⟨3, 1, 3, "NEXT"⟩, ⟨4, 3, 4, "NEXT"⟩,
    ⟨5, 4, 5, "NEXT"⟩]
  prepareError _ := none

theorem traverse_iff_within_shortCut :
    (∀ b, b ∈ targetIds ((shortCut.traverse 2 "NEXT" 3).toOption.getD []) ↔
      Within (shortCut.Linked "NEXT") 3 2 b) ∧
    ∀ b, b ∈ targetIds ((shortCut.reverseTraverse 5 "NEXT" 3).toOption.getD []) ↔
      Within (shortCut.LinkedBack "NEXT") 3 5 b :=
  ⟨(shortCut.traverse_iff_within 2 "NEXT" 3 _).1 rfl rfl,
    (shortCut.traverse_iff_within 5 "NEXT" 3 _).2 rfl rfl⟩

/-- 3 is first met at the end of the long way round and is skipped on the short cut, so 5,
three edges from 1, is missed. -/
theorem traverse_misses : ∃ paths, shortCut.traverse 1 "NEXT" 3 = .ok paths ∧
    ¬∀ b, b ∈ targetIds paths ↔ Within (shortCut.Linked "NEXT") 3 1 b := by
  refine ⟨(shortCut.traverse 1 "NEXT" 3).toOption.getD [], rfl, fun h => ?_⟩
  have hmissed : (5 : ℤ) ∉ targetIds ((shortCut.traverse 1 "NEXT" 3).toOption.getD []) := by
    decide
  have h3 : shortCut.Linked "NEXT" 1 3 := by decide
  have h4 : shortCut.Linked "NEXT" 3 4 := by decide
  have h5 : shortCut.Linked "NEXT" 4 5 := by decide
  exact hmissed ((h 5).mpr ⟨3, by omega, by omega, 4, ⟨3, ⟨1, rfl, h3⟩, h4⟩, h5⟩)

end KnowledgeGraph

end SurfaceAi.Knowledge
