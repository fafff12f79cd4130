import SurfaceAi.Runtime.TaskOrder
import SurfaceAi.Library.Kahn

/-! Task graphs with cycles. The walk remembers only what is finished, so a node that is reached
again while it is in progress is walked again. That goes on for ever if nothing fails on the way
round; a dependency that cannot succeed stops the walk before it enters what stands behind it. -/

namespace SurfaceAi.Runtime

open Relation Descent

namespace TaskGraph

variable (graph : TaskGraph)

/-- The node is in the graph, and so is all that it depends on, down to nodes that depend on
nothing. -/
inductive Completes : TaskId → Prop where
  | node (node : TaskNode) : node ∈ graph.nodes → (∀ d ∈ node.dependencies, Completes d) →
      Completes node.id

/-- Where the walk can go from a node: to a dependency all those before which can succeed. -/
def Enters (a b : TaskId) : Prop :=
  ∃ node ∈ graph.nodes, node.id = a ∧
    ∃ front back, node.dependencies = front ++ b :: back ∧ ∀ d ∈ front, graph.Completes d

variable {graph} {a b id : TaskId}

theorem Enters.dependsOn (h : graph.Enters a b) : graph.DependsOn a b := by
  obtain ⟨node, hnode, hid, front, back, hdeps, -⟩ := h
  exact ⟨node, hnode, hid, by simp [hdeps]⟩

theorem transGen_dependsOn (h : TransGen graph.Enters a b) : TransGen graph.DependsOn a b :=
  TransGen.mono (fun _ _ => Enters.dependsOn) a b h

theorem acyclic_enters (h : graph.Acyclic) : Cycles.Acyclic graph.Enters :=
  fun id hid => h id (transGen_dependsOn hid)

theorem node_unique {node node' : TaskNode} (h : node ∈ graph.nodes) (h' : node' ∈ graph.nodes)
    (hid : node.id = node'.id) : node = node' :=
  List.inj_on_of_nodup_map graph.nodup h h' hid

theorem nodeAt_eq_of_mem {node : TaskNode} (h : node ∈ graph.nodes) :
    graph.nodeAt node.id = .ok node := by
  unfold nodeAt
  cases hfind : graph.nodes.find? fun n => n.id = node.id with
  | some node' =>
    have hid : node'.id = node.id := by simpa using List.find?_some hfind
    rw [node_unique (List.mem_of_find?_eq_some hfind) h hid]
  | none =>
    have := List.find?_eq_none.mp hfind node h
    simp at this

/-- What can be completed is on no cycle. -/
theorem Completes.not_cycle (h : graph.Completes a) : ¬TransGen graph.DependsOn a a := by
  induction h with
  | node node hnode hdeps ih =>
    intro hcycle
    obtain ⟨d, ⟨node', hnode', hid, hd⟩, hcycle'⟩ := Cycles.exists_succ_on_cycle hcycle
    obtain rfl := node_unique hnode' hnode hid
    exact ih d hd hcycle'

theorem not_completes_of_cycle (h : TransGen graph.Enters a a) : ¬graph.Completes a :=
  fun hcompletes => hcompletes.not_cycle (transGen_dependsOn h)

/-- If every node of the graph can be completed, the graph has no cycle. -/
theorem acyclic_of_completes (h : ∀ id ∈ graph.ids, graph.Completes id) : graph.Acyclic := by
  intro id hcycle
  obtain ⟨_, ⟨node, hnode, rfl, -⟩, -⟩ := TransGen.head'_iff.mp hcycle
  exact (h node.id (List.mem_map_of_mem hnode)).not_cycle hcycle

end TaskGraph

open TaskGraph

variable {graph : TaskGraph} {env : Environment} {s s' : Run} {id : TaskId} {result : Result Unit}

/-- What is remembered was remembered before, or is what has just been completed. -/
theorem lookup_complete {x : TaskId} {r : Result Unit}
    (hx : (s.complete id result).completed.lookup x = some r) :
    s.completed.lookup x = some r ∨ x = id ∧ r = result := by
  rw [Run.complete, List.lookup_append] at hx
  cases hold : s.completed.lookup x with
  | some r' =>
    rw [hold] at hx
    exact .inl hx
  | none =>
    rw [hold, Option.none_or, List.lookup_cons] at hx
    by_cases heq : x = id
    · subst heq
      exact .inr ⟨rfl, by simpa [eq_comm] using hx⟩
    · simp [beq_false_of_ne heq] at hx

/-- What is remembered as succeeded can be completed. -/
def Truthful (graph : TaskGraph) (s : Run) : Prop :=
  ∀ id, s.completed.lookup id = some (.ok ()) → graph.Completes id

theorem Truthful.complete (h : Truthful graph s) (hid : result = .ok () → graph.Completes id) :
    Truthful graph (s.complete id result) := by
  intro x hx
  rcases lookup_complete hx with hold | ⟨rfl, hresult⟩
  · exact h x hold
  · exact hid hresult.symm

theorem dispatch_completed (env : Environment) (node : TaskNode) (s : Run) :
    (dispatch env node s).2.completed = s.completed := by
  unfold dispatch
  split_ifs
  · rfl
  · split <;> rfl

theorem ensureEach_truthful {ensure : TaskId → Run → Option (Result Unit × Run)}
    (hensure : ∀ id s result s', Truthful graph s → ensure id s = some (result, s') →
      Truthful graph s' ∧ (result = .ok () → graph.Completes id))
    {ids : List TaskId} (h : Truthful graph s) (hr : ensureEach ensure ids s = some (result, s')) :
    Truthful graph s' ∧ (result = .ok () → ∀ id ∈ ids, graph.Completes id) := by
  induction ids generalizing s with
  | nil =>
    obtain ⟨rfl, rfl⟩ := Prod.mk.inj (Option.some.inj hr)
    exact ⟨h, by simp⟩
  | cons id ids ih =>
    unfold ensureEach at hr
    split at hr
    · cases hr
    next e s₁ hhead =>
      obtain ⟨rfl, rfl⟩ := Prod.mk.inj (Option.some.inj hr)
      exact ⟨(hensure _ _ _ _ h hhead).1, by simp⟩
    next s₁ hhead =>
      obtain ⟨h₁, hid⟩ := hensure _ _ _ _ h hhead
      obtain ⟨h', hids⟩ := ih h₁ hr
      exact ⟨h', fun hok => List.forall_mem_cons.mpr ⟨hid rfl, hids hok⟩⟩

/-- A node that succeeds is in the graph with all that it depends on. -/
theorem ensureCompleted_truthful (depth : ℕ) (id : TaskId) (s : Run) (result : Result Unit)
    (s' : Run) (h : Truthful graph s)
    (hr : ensureCompleted graph env depth id s = some (result, s')) :
    Truthful graph s' ∧ (result = .ok () → graph.Completes id) := by
  induction depth generalizing id s result s' with
  | zero => cases hr
  | succ depth ih =>
    unfold ensureCompleted at hr
    split at hr
    next r hlookup =>
      obtain ⟨rfl, rfl⟩ := Prod.mk.inj (Option.some.inj hr)
      exact ⟨h, fun hok => h id (hok ▸ hlookup)⟩
    next hlookup =>
      split_ifs at hr
      · obtain ⟨rfl, rfl⟩ := Prod.mk.inj (Option.some.inj hr)
        exact ⟨h, by simp⟩
      · split at hr
        next e hmissing =>
          obtain ⟨rfl, rfl⟩ := Prod.mk.inj (Option.some.inj hr)
          have hnot : (Except.error e : Result Unit) = .ok () → graph.Completes id := by
            intro hok
            cases hok
          exact ⟨Truthful.complete (s := s.ask) h hnot, hnot⟩
        next node hnode =>
          obtain ⟨hmem, rfl⟩ := nodeAt_eq_ok hnode
          split at hr
          · cases hr
          next e s₁ hdeps =>
            obtain ⟨rfl, rfl⟩ := Prod.mk.inj (Option.some.inj hr)
            have h₁ := (ensureEach_truthful ih (s := s.ask) h hdeps).1
            have hnot : (Except.error e : Result Unit) = .ok () → graph.Completes node.id := by
              intro hok
              cases hok
            exact ⟨h₁.complete hnot, hnot⟩
          next s₁ hdeps =>
            obtain ⟨rfl, rfl⟩ := Prod.mk.inj (Option.some.inj hr)
            obtain ⟨h₁, hall⟩ := ensureEach_truthful ih (s := s.ask) h hdeps
            have hcompletes : graph.Completes node.id := .node node hmem (hall rfl)
            have h₂ : Truthful graph (dispatch env node s₁).2 := by
              intro x hx
              rw [dispatch_completed] at hx
              exact h₁ x hx
            exact ⟨h₂.complete fun _ => hcompletes, fun _ => hcompletes⟩

/-! ### Walks that end -/

/-- Completing each of a list of nodes ends if completing one of them does whenever those before
it succeeded. -/
theorem ensureEach_isSome_of_truthful {ensure : TaskId → Run → Option (Result Unit × Run)}
    (htruthful : ∀ id s result s', Truthful graph s → ensure id s = some (result, s') →
      Truthful graph s' ∧ (result = .ok () → graph.Completes id))
    {all front ids : List TaskId} (hsplit : all = front ++ ids)
    (hfront : ∀ d ∈ front, graph.Completes d)
    (hensure : ∀ front d back, all = front ++ d :: back → (∀ x ∈ front, graph.Completes x) →
      ∀ s, Truthful graph s → (ensure d s).isSome = true)
    (h : Truthful graph s) : (ensureEach ensure ids s).isSome = true := by
  induction ids generalizing front s with
  | nil => rfl
  | cons id ids ih =>
    obtain ⟨⟨result, s'⟩, hr⟩ := Option.isSome_iff_exists.mp (hensure front id ids hsplit hfront s h)
    obtain ⟨h', hid⟩ := htruthful id s result s' h hr
    unfold ensureEach
    rw [hr]
    cases result with
    | error e => rfl
    | ok u =>
      have hsplit' : all = (front ++ [id]) ++ ids := by simp [hsplit]
      refine ih hsplit' ?_ h'
      intro d hd
      rcases List.mem_append.mp hd with hd | hd
      · exact hfront d hd
      · exact List.mem_singleton.mp hd ▸ hid rfl

/-- The nodes in progress lead to the one the walk enters, so they are none of them unless the
walk can go round: it goes no deeper than there are nodes. -/
theorem ensureCompleted_isSome_of_enters (env : Environment)
    (hacyclic : Cycles.Acyclic graph.Enters) (depth : ℕ) (id : TaskId) (above : List TaskId)
    (habove : ∀ a ∈ above, TransGen graph.Enters a id)
    (hdepth : remaining graph.ids above < depth) (s : Run) (h : Truthful graph s) :
    (ensureCompleted graph env depth id s).isSome = true := by
  induction depth generalizing id above s with
  | zero => cases hdepth
  | succ depth ih =>
    unfold ensureCompleted
    split
    · rfl
    · split_ifs
      · rfl
      · split
        · rfl
        next node hnode =>
          obtain ⟨hmem, rfl⟩ := nodeAt_eq_ok hnode
          have hnot : node.id ∉ above := fun hid => hacyclic _ (habove _ hid)
          have hlt : remaining graph.ids (node.id :: above) < remaining graph.ids above :=
            remaining_cons_lt (List.mem_map_of_mem hmem) hnot
          have hdeps : ∀ front d back, node.dependencies = front ++ d :: back →
              (∀ x ∈ front, graph.Completes x) → ∀ s, Truthful graph s →
                (ensureCompleted graph env depth d s).isSome = true := by
            intro front d back hsplit hfront s hs
            have henters : graph.Enters node.id d :=
              ⟨node, hmem, rfl, front, back, hsplit, hfront⟩
            refine ih d (node.id :: above) ?_ (by omega) s hs
            intro a ha
            rcases List.mem_cons.mp ha with rfl | ha
            · exact .single henters
            · exact (habove a ha).tail henters
          have hsome : (ensureEach (ensureCompleted graph env depth) node.dependencies
              s.ask).isSome = true :=
            ensureEach_isSome_of_truthful (ensureCompleted_truthful depth)
              (List.nil_append _).symm (by simp) hdeps (s := s.ask) h
          obtain ⟨⟨result, s'⟩, hr⟩ := Option.isSome_iff_exists.mp hsome
          rw [hr]
          cases result <;> rfl

/-! ### Walks that do not end -/

/-- No stop is requested and nothing fails. -/
def untroubled : Environment := ⟨fun _ => false, fun _ _ => .ok (), fun _ _ => .ok ()⟩

/-- Everything that is remembered has succeeded, and could be completed. -/
def Smooth (graph : TaskGraph) (s : Run) : Prop :=
  ∀ id result, s.completed.lookup id = some result → result = .ok () ∧ graph.Completes id

theorem Smooth.complete (h : Smooth graph s) (hid : graph.Completes id) :
    Smooth graph (s.complete id (.ok ())) := by
  intro x r hx
  rcases lookup_complete hx with hold | ⟨rfl, rfl⟩
  · exact h x r hold
  · exact ⟨rfl, hid⟩

theorem ensureEach_smooth {ensure : TaskId → Run → Option (Result Unit × Run)}
    (hensure : ∀ id s result s', graph.Completes id → Smooth graph s →
      ensure id s = some (result, s') → result = .ok () ∧ Smooth graph s')
    {ids : List TaskId} (hids : ∀ id ∈ ids, graph.Completes id) (h : Smooth graph s)
    (hr : ensureEach ensure ids s = some (result, s')) : result = .ok () ∧ Smooth graph s' := by
  induction ids generalizing s with
  | nil =>
    obtain ⟨rfl, rfl⟩ := Prod.mk.inj (Option.some.inj hr)
    exact ⟨rfl, h⟩
  | cons id ids ih =>
    obtain ⟨hid, hrest⟩ := List.forall_mem_cons.mp hids
    unfold ensureEach at hr
    split at hr
    · cases hr
    next e s₁ hhead => cases (hensure _ _ _ _ hid h hhead).1
    next s₁ hhead => exact ih hrest (hensure _ _ _ _ hid h hhead).2 hr

theorem ensureCompleted_smooth (depth : ℕ) (id : TaskId) (s : Run) (result : Result Unit) (s' : Run)
    (hid : graph.Completes id) (h : Smooth graph s)
    (hr : ensureCompleted graph untroubled depth id s = some (result, s')) :
    result = .ok () ∧ Smooth graph s' := by
  induction depth generalizing id s result s' with
  | zero => cases hr
  | succ depth ih =>
    obtain ⟨node, hnode, hdeps⟩ := hid
    unfold ensureCompleted at hr
    split at hr
    next r hlookup =>
      obtain ⟨rfl, rfl⟩ := Prod.mk.inj (Option.some.inj hr)
      exact ⟨(h _ _ hlookup).1, h⟩
    next hlookup =>
      rw [if_neg (by simp [untroubled]), nodeAt_eq_of_mem hnode] at hr
      dsimp only at hr
      split at hr
      · cases hr
      next e s₁ hfailed => cases (ensureEach_smooth ih hdeps (s := s.ask) h hfailed).1
      next s₁ hdone =>
        obtain ⟨rfl, rfl⟩ := Prod.mk.inj (Option.some.inj hr)
        have h₁ := (ensureEach_smooth ih hdeps (s := s.ask) h hdone).2
        exact ⟨rfl, Smooth.complete (s := (dispatch untroubled node s₁).2) h₁
          (.node node hnode hdeps)⟩

/-- A walk that comes to a node it never gets done with does not end. -/
theorem ensureEach_eq_none {ensure : TaskId → Run → Option (Result Unit × Run)}
    (hensure : ∀ id s result s', graph.Completes id → Smooth graph s →
      ensure id s = some (result, s') → result = .ok () ∧ Smooth graph s')
    {front : List TaskId} (hfront : ∀ d ∈ front, graph.Completes d)
    (hid : ∀ s, Smooth graph s → ensure id s = none) (back : List TaskId) (h : Smooth graph s) :
    ensureEach ensure (front ++ id :: back) s = none := by
  induction front generalizing s with
  | nil => rw [List.nil_append, ensureEach, hid s h]
  | cons d front ih =>
    obtain ⟨hd, hrest⟩ := List.forall_mem_cons.mp hfront
    rw [List.cons_append, ensureEach]
    split
    · rfl
    next e s₁ hhead => cases (hensure _ _ _ _ hd h hhead).1
    next s₁ hhead => exact ih hrest (hensure _ _ _ _ hd h hhead).2

/-- When nothing fails, a walk that can go round goes round for ever. -/
theorem ensureCompleted_eq_none (depth : ℕ) (id : TaskId) (s : Run)
    (hcycle : TransGen graph.Enters id id) (h : Smooth graph s) :
    ensureCompleted graph untroubled depth id s = none := by
  induction depth generalizing id s with
  | zero => rfl
  | succ depth ih =>
    obtain ⟨next, ⟨node, hnode, rfl, front, back, hsplit, hfront⟩, hnext⟩ :=
      Cycles.exists_succ_on_cycle hcycle
    have hlookup : s.completed.lookup node.id = none := by
      rw [Option.eq_none_iff_forall_ne_some]
      exact fun r hr => not_completes_of_cycle hcycle (h _ r hr).2
    have hdeps : ensureEach (ensureCompleted graph untroubled depth) node.dependencies s.ask =
        none := by
      rw [hsplit]
      exact ensureEach_eq_none (ensureCompleted_smooth depth) hfront
        (fun s hs => ih next s hnext hs) back (s := s.ask) h
    unfold ensureCompleted
    simp only [hlookup, nodeAt_eq_of_mem hnode, hdeps]
    rfl

/-! ### Runs -/

/-- The walk over all nodes in this order ends. -/
def Terminates (graph : TaskGraph) (env : Environment) (order : List TaskId) : Prop :=
  ∃ depth, (ensureEach (ensureCompleted graph env depth) order ⟨[], [], 0⟩).isSome = true

theorem truthful_start : Truthful graph ⟨[], [], 0⟩ := fun _ h => by cases h

theorem smooth_start : Smooth graph ⟨[], [], 0⟩ := fun _ _ h => by cases h

theorem terminates_of_enters (hacyclic : Cycles.Acyclic graph.Enters) (env : Environment)
    (order : List TaskId) : Terminates graph env order := by
  refine ⟨graph.nodes.length + 1, ?_⟩
  have hdepth : remaining graph.ids [] < graph.nodes.length + 1 := by
    have hle := remaining_le graph.ids []
    rw [TaskGraph.ids, List.length_map] at hle
    exact Nat.lt_succ_of_le hle
  refine ensureEach_isSome_of_truthful (ensureCompleted_truthful _) (List.nil_append _).symm
    (by simp) ?_ truthful_start
  exact fun _ d _ _ _ s hs =>
    ensureCompleted_isSome_of_enters env hacyclic _ d [] (by simp) hdepth s hs

/-- With a node first that leads to itself, the walk does not end unless something fails. -/
theorem not_terminates_of_cycle (hcycle : TransGen graph.Enters id id) (rest : List TaskId) :
    ¬Terminates graph untroubled (id :: rest) := by
  rintro ⟨depth, hsome⟩
  rw [ensureEach, ensureCompleted_eq_none depth id _ hcycle smooth_start] at hsome
  cases hsome

/-- The runs of a graph all end exactly if no node leads to itself by dependencies that the walk
can enter, as none does in an acyclic graph; and a run of a graph with a cycle that ends returns
an error. -/
theorem runs_terminate_iff (graph : TaskGraph) :
    ((∀ env order, order.Perm graph.ids → Terminates graph env order) ↔
        Cycles.Acyclic graph.Enters) ∧
      (graph.Acyclic → Cycles.Acyclic graph.Enters) ∧
      ∀ env order depth result s, order.Perm graph.ids →
        ensureEach (ensureCompleted graph env depth) order ⟨[], [], 0⟩ = some (result, s) →
          ¬graph.Acyclic → ∃ e, result = .error e := by
  refine ⟨⟨fun h id hcycle => ?_, fun h env order _ => terminates_of_enters h env order⟩,
    acyclic_enters, ?_⟩
  · obtain ⟨_, ⟨node, hnode, rfl, -⟩, -⟩ := TransGen.head'_iff.mp hcycle
    have hperm := List.perm_cons_erase (List.mem_map_of_mem (f := TaskNode.id) hnode)
    exact not_terminates_of_cycle hcycle _ (h untroubled _ hperm.symm)
  · intro env order depth result s horder hr hcyclic
    cases result with
    | error e => exact ⟨e, rfl⟩
    | ok u =>
      have hall := (ensureEach_truthful (ensureCompleted_truthful depth) truthful_start hr).2 rfl
      refine absurd (acyclic_of_completes fun id hid => ?_) hcyclic
      exact hall id (horder.mem_iff.mpr hid)

/-- One node that depends on itself. -/
def selfDependent : TaskGraph := ⟨[⟨1, 0, [1]⟩], by decide⟩

/-- The walk of a node that depends on itself does not end. -/
theorem selfDependent_runs_on :
    ¬∀ graph env order, order.Perm graph.ids → Terminates graph env order := by
  intro h
  have hself : selfDependent.Enters 1 1 :=
    ⟨⟨1, 0, [1]⟩, List.mem_singleton_self _, rfl, [], [], rfl, by simp⟩
  exact not_terminates_of_cycle (.single hself) [] (h selfDependent untroubled [1] (.refl _))

/-- A node that names a missing node before itself: the walk ends with an error. -/
example : ∃ s, ensureEach (ensureCompleted ⟨[⟨1, 0, [2, 1]⟩], by decide⟩ untroubled 2) [1]
    ⟨[], [], 0⟩ = some (fail .runtimeNodeNotFound "task node id not found in graph", s) :=
  ⟨_, rfl⟩

end SurfaceAi.Runtime
