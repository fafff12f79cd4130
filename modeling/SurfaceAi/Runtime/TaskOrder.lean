import SurfaceAi.Runtime.TaskGraph
import SurfaceAi.Library.DepthFirst
import Mathlib.Logic.Relation

/-! The order in which a task graph is run. Until something fails, what is completed is what
was dispatched, each node once and after everything it depends on, and all of it succeeded;
the first failure is the last thing that happens. -/

namespace SurfaceAi.Runtime

open Relation Descent

def errorOf : Result Unit → Option ErrorInfo
  | .ok () => none
  | .error e => some e

def Event.error : Event → Option ErrorInfo
  | .cancelled e => some e
  | .missing _ e => some e
  | .refused _ e => some e
  | .dispatched _ result => errorOf result

/-- The node the event is a dispatch of. -/
def Event.dispatchOf : Event → Option TaskId
  | .refused id _ => some id
  | .dispatched id _ => some id
  | _ => none

/-- The node was dispatched and succeeded. -/
def succeeded (id : TaskId) : Event := .dispatched id (.ok ())

namespace TaskGraph

variable (graph : TaskGraph)

def DependsOn (a b : TaskId) : Prop :=
  ∃ node ∈ graph.nodes, node.id = a ∧ b ∈ node.dependencies

def Acyclic : Prop := ∀ id, ¬TransGen graph.DependsOn id id

variable {graph}

theorem nodeAt_eq_ok {id : TaskId} {node : TaskNode} (h : graph.nodeAt id = .ok node) :
    node ∈ graph.nodes ∧ node.id = id := by
  unfold nodeAt at h
  split at h
  next node' hfind =>
    obtain rfl := Except.ok.inj h
    exact ⟨List.mem_of_find?_eq_some hfind, by simpa using List.find?_some hfind⟩
  next => cases h

theorem acyclic_of_rank (rank : TaskId → ℕ)
    (h : ∀ node ∈ graph.nodes, ∀ d ∈ node.dependencies, rank d < rank node.id) :
    graph.Acyclic := by
  have hlt : ∀ a b, TransGen graph.DependsOn a b → rank b < rank a := by
    intro a b hab
    induction hab with
    | single hab =>
      obtain ⟨node, hnode, rfl, hd⟩ := hab
      exact h node hnode _ hd
    | tail _ hbc ih =>
      obtain ⟨node, hnode, rfl, hd⟩ := hbc
      exact Nat.lt_trans (h node hnode _ hd) ih
  exact fun id hid => Nat.lt_irrefl _ (hlt id id hid)

end TaskGraph

/-- A node of the graph all of whose dependencies are done. -/
def Ready (graph : TaskGraph) (done : List TaskId) (id : TaskId) : Prop :=
  ∃ node ∈ graph.nodes, node.id = id ∧ ∀ d ∈ node.dependencies, d ∈ done

theorem Ready.dependencies {graph : TaskGraph} {done : List TaskId} {node : TaskNode}
    (hnode : node ∈ graph.nodes) (h : Ready graph done node.id) :
    ∀ d ∈ node.dependencies, d ∈ done := by
  obtain ⟨node', hnode', hid, hdeps⟩ := h
  obtain rfl := List.inj_on_of_nodup_map graph.nodup hnode' hnode hid
  exact hdeps

/-- Each of the nodes is there once, after everything it depends on. -/
structure Ordered (graph : TaskGraph) (done : List TaskId) : Prop where
  nodup : done.Nodup
  after : ∀ front id back, done = front ++ id :: back → Ready graph front id

/-- Nothing has failed, and what is completed are the nodes `done`. -/
structure Sound (graph : TaskGraph) (done : List TaskId) (s : Run) : Prop where
  ordered : Ordered graph done
  trace : s.trace = done.map succeeded
  completed : ∀ id result, s.completed.lookup id = some result ↔ result = .ok () ∧ id ∈ done

/-- How a part of a walk from `done` that is to complete `goal` ends: `more` was completed
on the way, all of it needed for the goal, and then either the goal is, or something
failed that leaves a part of the goal open. -/
inductive Walked (graph : TaskGraph) (done goal : List TaskId) : Result Unit × Run → Prop where
  | reached {more : List TaskId} {s : Run} : Sound graph (done ++ more) s →
      (∀ id ∈ goal, id ∈ done ++ more) →
      (∀ x ∈ more, ∃ g ∈ goal, ReflTransGen graph.DependsOn g x) →
        Walked graph done goal (.ok (), s)
  | failed {more : List TaskId} {s : Run} {event : Event} {e : ErrorInfo} :
      Ordered graph (done ++ more) → s.trace = (done ++ more).map succeeded ++ [event] →
      event.error = some e →
      (∀ id, event.dispatchOf = some id → id ∉ done ++ more ∧ Ready graph (done ++ more) id) →
      (∃ g ∈ goal, g ∉ done ++ more) →
        Walked graph done goal (.error e, s)

section Walk

variable {graph : TaskGraph} {env : Environment} {done : List TaskId} {s : Run}

theorem Ordered.concat (h : Ordered graph done) {id : TaskId} (hnew : id ∉ done)
    (hready : Ready graph done id) : Ordered graph (done ++ [id]) where
  nodup := by
    refine List.nodup_append.mpr ⟨h.nodup, List.nodup_singleton _, ?_⟩
    rintro x hx _ hx' rfl
    exact hnew (List.mem_singleton.mp hx' ▸ hx)
  after front x back hsplit := by
    rcases List.eq_nil_or_concat back with rfl | ⟨back, last, rfl⟩
    · obtain ⟨rfl, hlast⟩ := List.append_inj' hsplit rfl
      obtain rfl : id = x := (List.cons.inj hlast).1
      exact hready
    · have hsplit' : done ++ [id] = (front ++ x :: back) ++ [last] := by
        rw [hsplit]
        simp
      obtain ⟨rfl, -⟩ := List.append_inj' hsplit' rfl
      exact h.after front x back rfl

theorem Ordered.dependencies (h : Ordered graph done) {node : TaskNode}
    (hnode : node ∈ graph.nodes) (hid : node.id ∈ done) : ∀ d ∈ node.dependencies, d ∈ done := by
  obtain ⟨front, back, hsplit⟩ := List.append_of_mem hid
  intro d hd
  rw [hsplit]
  exact List.mem_append_left _ ((h.after _ _ _ hsplit).dependencies hnode d hd)

theorem Sound.not_mem (h : Sound graph done s) {id : TaskId}
    (hlookup : s.completed.lookup id = none) : id ∉ done := by
  intro hid
  rw [(h.completed id (.ok ())).mpr ⟨rfl, hid⟩] at hlookup
  cases hlookup

theorem Sound.ask (h : Sound graph done s) : Sound graph done s.ask :=
  ⟨h.ordered, h.trace, h.completed⟩

theorem Sound.complete (h : Sound graph done s) {id : TaskId} (hnew : id ∉ done)
    (hready : Ready graph done id) {s' : Run} (htrace : s'.trace = s.trace ++ [succeeded id])
    (hcompleted : s'.completed = s.completed ++ [(id, .ok ())]) :
    Sound graph (done ++ [id]) s' where
  ordered := h.ordered.concat hnew hready
  trace := by rw [htrace, h.trace, List.map_append, List.map_singleton]
  completed x result := by
    rw [hcompleted, List.lookup_append, List.mem_append, List.mem_singleton]
    cases hlookup : s.completed.lookup x with
    | some r =>
      obtain ⟨rfl, hx⟩ := (h.completed x r).mp hlookup
      simp [hx, eq_comm]
    | none =>
      have hx := h.not_mem hlookup
      by_cases heq : x = id
      · simp [heq, eq_comm]
      · simp [heq, hx, List.lookup_cons, beq_false_of_ne heq]

/-- Everything that was to be completed is. -/
theorem Sound.walked (h : Sound graph done s) {goal : List TaskId}
    (hgoal : ∀ id ∈ goal, id ∈ done) : Walked graph done goal (.ok (), s) := by
  refine @Walked.reached graph done goal [] s ?_ ?_ (by simp)
  · rwa [List.append_nil]
  · rwa [List.append_nil]

/-- A failure before anything was completed. -/
theorem Sound.walked_failed (h : Sound graph done s) {goal : List TaskId} {s' : Run}
    {event : Event} {e : ErrorInfo} (htrace : s'.trace = s.trace ++ [event])
    (herror : event.error = some e)
    (hevent : ∀ id, event.dispatchOf = some id → id ∉ done ∧ Ready graph done id)
    (hopen : ∃ g ∈ goal, g ∉ done) : Walked graph done goal (.error e, s') := by
  refine @Walked.failed graph done goal [] s' event e ?_ ?_ herror ?_ ?_
  · rw [List.append_nil]
    exact h.ordered
  · rw [List.append_nil, htrace, h.trace]
  · rwa [List.append_nil]
  · rwa [List.append_nil]

/-- A walk goes on where an earlier one has ended. -/
theorem Walked.append {more goal goal' : List TaskId} {r : Result Unit × Run}
    (hmore : ∀ x ∈ more, ∃ g ∈ goal', ReflTransGen graph.DependsOn g x)
    (hgoal : ∀ x ∈ goal', x ∈ done ++ more ∨ x ∈ goal) (hsub : ∀ x ∈ goal, x ∈ goal')
    (h : Walked graph (done ++ more) goal r) : Walked graph done goal' r := by
  cases h with
  | reached hsound hreached hreach =>
    rw [List.append_assoc] at hsound hreached
    refine .reached hsound ?_ ?_
    · intro x hx
      rcases hgoal x hx with hx | hx
      · rw [← List.append_assoc]
        exact List.mem_append_left _ hx
      · exact hreached x hx
    · intro x hx
      rcases List.mem_append.mp hx with hx | hx
      · exact hmore x hx
      · obtain ⟨g, hg, hgx⟩ := hreach x hx
        exact ⟨g, hsub g hg, hgx⟩
  | failed hordered htrace herror hevent hopen =>
    rw [List.append_assoc] at hordered htrace hevent hopen
    obtain ⟨g, hg, hnot⟩ := hopen
    exact .failed hordered htrace herror hevent ⟨g, hsub g hg, hnot⟩

theorem Walked.of_failed {goal goal' : List TaskId} {e : ErrorInfo}
    (h : Walked graph done goal (.error e, s)) {s' : Run} (htrace : s'.trace = s.trace)
    (hopen : ∀ all, Ordered graph all → (∃ g ∈ goal, g ∉ all) → ∃ g ∈ goal', g ∉ all) :
    Walked graph done goal' (.error e, s') := by
  cases h with
  | failed hordered htrace' herror hevent hgoal =>
    exact .failed hordered (htrace.trans htrace') herror hevent (hopen _ hordered hgoal)

/-- Completing each of a list of nodes, given how completing one of them ends. -/
theorem ensureEach_walked {ensure : TaskId → Run → Option (Result Unit × Run)}
    (hensure : ∀ id done s r, Sound graph done s → ensure id s = some r →
      Walked graph done [id] r)
    {ids : List TaskId} {r : Result Unit × Run} (h : Sound graph done s)
    (hr : ensureEach ensure ids s = some r) : Walked graph done ids r := by
  induction ids generalizing done s with
  | nil =>
    obtain rfl := Option.some.inj hr
    exact h.walked (by simp)
  | cons id ids ih =>
    unfold ensureEach at hr
    split at hr
    · cases hr
    next e s' hhead =>
      obtain rfl := Option.some.inj hr
      refine (hensure _ _ _ _ h hhead).of_failed rfl fun all hall hopen => ?_
      obtain ⟨g, hg, hnot⟩ := hopen
      exact ⟨g, List.mem_singleton.mp hg ▸ List.mem_cons_self .., hnot⟩
    next s' hhead =>
      cases hensure _ _ _ _ h hhead with
      | reached hsound hgoal hreach =>
        refine Walked.append ?_ ?_ (fun x hx => List.mem_cons_of_mem _ hx) (ih hsound hr)
        · intro x hx
          obtain ⟨g, hg, hgx⟩ := hreach x hx
          obtain rfl := List.mem_singleton.mp hg
          exact ⟨g, List.mem_cons_self .., hgx⟩
        · intro x hx
          rcases List.mem_cons.mp hx with rfl | hx
          · exact .inl (hgoal x (List.mem_singleton.mpr rfl))
          · exact .inr hx

/-- Dispatching a node whose dependencies have all succeeded. -/
theorem dispatch_walked (h : Sound graph done s) {node : TaskNode} (hnew : node.id ∉ done)
    (hready : Ready graph done node.id) :
    Walked graph done [node.id] ((dispatch env node s).1,
      (dispatch env node s).2.complete node.id (dispatch env node s).1) := by
  have hof : ∀ id, some node.id = some id → id ∉ done ∧ Ready graph done id := by
    intro id hid
    obtain rfl := Option.some.inj hid
    exact ⟨hnew, hready⟩
  have hopen : ∃ g ∈ [node.id], g ∉ done := ⟨_, List.mem_singleton.mpr rfl, hnew⟩
  unfold dispatch
  split_ifs with hstop
  · exact h.walked_failed rfl rfl hof hopen
  · split
    · exact h.walked_failed rfl rfl hof hopen
    · dsimp only
      cases hwork : env.work s.ask.ask.asked node.id with
      | error e => exact h.walked_failed rfl rfl hof hopen
      | ok u =>
        refine .reached (h.complete hnew hready rfl rfl) ?_ ?_
        · exact fun id hid => List.mem_append_right _ hid
        · exact fun x hx => ⟨x, hx, .refl⟩

/-- Completing one node: in an acyclic graph, what its dependencies need is not the node
itself. -/
theorem ensureCompleted_walked (hacyclic : graph.Acyclic) (depth : ℕ) (id : TaskId)
    (done : List TaskId) (s : Run) (r : Result Unit × Run) (h : Sound graph done s)
    (hr : ensureCompleted graph env depth id s = some r) : Walked graph done [id] r := by
  induction depth generalizing id done s r with
  | zero => cases hr
  | succ depth ih =>
    unfold ensureCompleted at hr
    split at hr
    next result hlookup =>
      obtain rfl := Option.some.inj hr
      obtain ⟨rfl, hid⟩ := (h.completed id result).mp hlookup
      exact h.walked fun x hx => List.mem_singleton.mp hx ▸ hid
    next hlookup =>
      have hopen : ∃ g ∈ [id], g ∉ done := ⟨id, List.mem_singleton.mpr rfl, h.not_mem hlookup⟩
      split_ifs at hr with hstop
      · obtain rfl := Option.some.inj hr
        exact h.walked_failed rfl rfl (by simp [Event.dispatchOf]) hopen
      · split at hr
        next e hmissing =>
          obtain rfl := Option.some.inj hr
          exact h.walked_failed rfl rfl (by simp [Event.dispatchOf]) hopen
        next node hnode =>
          obtain ⟨hmem, rfl⟩ := TaskGraph.nodeAt_eq_ok hnode
          split at hr
          · cases hr
          next e s' hdeps =>
            obtain rfl := Option.some.inj hr
            refine (ensureEach_walked ih h.ask hdeps).of_failed rfl fun all hall hunmet => ?_
            obtain ⟨d, hd, hnot⟩ := hunmet
            refine ⟨node.id, List.mem_singleton.mpr rfl, fun hid => hnot ?_⟩
            exact hall.dependencies hmem hid d hd
          next s' hdeps =>
            obtain rfl := Option.some.inj hr
            cases ensureEach_walked ih h.ask hdeps with
            | @reached more _ hsound hgoal hreach =>
              have hneeded : ∀ x ∈ more, TransGen graph.DependsOn node.id x := by
                intro x hx
                obtain ⟨d, hd, hdx⟩ := hreach x hx
                exact TransGen.head' ⟨node, hmem, rfl, hd⟩ hdx
              have hnew : node.id ∉ done ++ more := by
                intro hid
                rcases List.mem_append.mp hid with hid | hid
                · exact h.not_mem hlookup hid
                · exact hacyclic _ (hneeded _ hid)
              refine Walked.append ?_ (fun x hx => .inr hx) (fun x hx => hx)
                (dispatch_walked hsound hnew ⟨node, hmem, rfl, hgoal⟩)
              exact fun x hx => ⟨node.id, List.mem_singleton.mpr rfl, (hneeded x hx).to_reflTransGen⟩

end Walk

section Depth

variable {graph : TaskGraph}

theorem ensureEach_isSome {ensure : TaskId → Run → Option (Result Unit × Run)}
    {ids : List TaskId} (hensure : ∀ id ∈ ids, ∀ s, (ensure id s).isSome = true) (s : Run) :
    (ensureEach ensure ids s).isSome = true := by
  induction ids generalizing s with
  | nil => rfl
  | cons id ids ih =>
    obtain ⟨r, hr⟩ := Option.isSome_iff_exists.mp (hensure id (List.mem_cons_self ..) s)
    obtain ⟨result, s'⟩ := r
    unfold ensureEach
    rw [hr]
    cases result with
    | error e => rfl
    | ok u => exact ih (fun x hx => hensure x (List.mem_cons_of_mem _ hx)) s'

/-- The nodes above the one being completed all depend on it, so in an acyclic graph it is
none of them: the walk goes no deeper than there are nodes. -/
theorem ensureCompleted_isSome (env : Environment) (hacyclic : graph.Acyclic) (depth : ℕ)
    (id : TaskId) (above : List TaskId) (habove : ∀ a ∈ above, TransGen graph.DependsOn a id)
    (hdepth : remaining graph.ids above < depth) (s : Run) :
    (ensureCompleted graph env depth id s).isSome = true := by
  induction depth generalizing id above s with
  | zero => cases hdepth
  | succ depth ih =>
    unfold ensureCompleted
    split
    · rfl
    · split_ifs
      · rfl
      · split
        · rfl
        next node hnode =>
          obtain ⟨hmem, rfl⟩ := TaskGraph.nodeAt_eq_ok hnode
          have hnot : node.id ∉ above := fun hid => hacyclic _ (habove _ hid)
          have hlt : remaining graph.ids (node.id :: above) < remaining graph.ids above :=
            remaining_cons_lt (List.mem_map_of_mem hmem) hnot
          have hdeps : ∀ d ∈ node.dependencies, ∀ s,
              (ensureCompleted graph env depth d s).isSome = true := by
            intro d hd s
            have hdepends : graph.DependsOn node.id d := ⟨node, hmem, rfl, hd⟩
            refine ih d (node.id :: above) ?_ (by omega) s
            intro a ha
            rcases List.mem_cons.mp ha with rfl | ha
            · exact .single hdepends
            · exact (habove a ha).tail hdepends
          obtain ⟨r, hr⟩ := Option.isSome_iff_exists.mp (ensureEach_isSome hdeps s.ask)
          obtain ⟨result, s'⟩ := r
          rw [hr]
          cases result <;> rfl

end Depth

/-- How a run of a graph is to go: a node is dispatched at most once, and after everything
it depends on was dispatched and succeeded; after a failure nothing happens; the run
succeeds when every node was dispatched and succeeded, and returns the first error
otherwise. -/
structure RunsInOrder (graph : TaskGraph) (result : Result Unit) (trace : List Event) : Prop where
  once : (trace.filterMap Event.dispatchOf).Nodup
  afterDependencies : ∀ front event back id, trace = front ++ event :: back →
    event.dispatchOf = some id →
      ∃ node ∈ graph.nodes, node.id = id ∧ ∀ d ∈ node.dependencies, succeeded d ∈ front
  failureLast : ∀ front event back, trace = front ++ event :: back →
    event.error ≠ none → back = []
  success : result = .ok () ↔ ∀ node ∈ graph.nodes, succeeded node.id ∈ trace
  firstError : errorOf result = trace.findSome? Event.error

section Traces

variable {graph : TaskGraph} {done : List TaskId}

@[simp] theorem filterMap_dispatchOf_succeeded (done : List TaskId) :
    (done.map succeeded).filterMap Event.dispatchOf = done := by
  rw [List.filterMap_map]
  exact List.filterMap_some

@[simp] theorem findSome?_error_succeeded (done : List TaskId) :
    (done.map succeeded).findSome? Event.error = none := by
  rw [List.findSome?_eq_none_iff]
  intro event hevent
  obtain ⟨id, -, rfl⟩ := List.mem_map.mp hevent
  rfl

@[simp] theorem succeeded_mem {id : TaskId} : succeeded id ∈ done.map succeeded ↔ id ∈ done := by
  refine List.mem_map_of_injective ?_
  intro a b hab
  exact (Event.dispatched.inj hab).1

/-- What stands in a trace of nodes that succeeded. -/
theorem split_succeeded {front back : List Event} {event : Event}
    (h : done.map succeeded = front ++ event :: back) :
    ∃ done₁ id done₂, done = done₁ ++ id :: done₂ ∧ done₁.map succeeded = front ∧
      succeeded id = event := by
  obtain ⟨done₁, rest, rfl, hfront, hrest⟩ := List.map_eq_append_iff.mp h
  obtain ⟨id, done₂, rfl, hid, -⟩ := List.map_eq_cons_iff.mp hrest
  exact ⟨done₁, id, done₂, rfl, hfront, hid⟩

theorem Ordered.afterDependencies (h : Ordered graph done) {front back : List Event}
    {event : Event} {id : TaskId} (hsplit : done.map succeeded = front ++ event :: back)
    (hid : event.dispatchOf = some id) :
    ∃ node ∈ graph.nodes, node.id = id ∧ ∀ d ∈ node.dependencies, succeeded d ∈ front := by
  obtain ⟨done₁, x, done₂, hdone, rfl, rfl⟩ := split_succeeded hsplit
  obtain rfl : x = id := Option.some.inj hid
  obtain ⟨node, hnode, hnodeId, hdeps⟩ := h.after _ _ _ hdone
  exact ⟨node, hnode, hnodeId, fun d hd => succeeded_mem.mpr (hdeps d hd)⟩

theorem Ordered.runsInOrder_ok (h : Ordered graph done)
    (hall : ∀ node ∈ graph.nodes, node.id ∈ done) :
    RunsInOrder graph (.ok ()) (done.map succeeded) where
  once := by
    rw [filterMap_dispatchOf_succeeded]
    exact h.nodup
  afterDependencies front event back id hsplit hid := h.afterDependencies hsplit hid
  failureLast front event back hsplit herror := by
    obtain ⟨done₁, x, done₂, -, -, rfl⟩ := split_succeeded hsplit
    exact absurd rfl herror
  success := by simpa using hall
  firstError := by rw [findSome?_error_succeeded, errorOf]

theorem Ordered.runsInOrder_error (h : Ordered graph done) {event : Event} {e : ErrorInfo}
    (herror : event.error = some e)
    (hevent : ∀ id, event.dispatchOf = some id → id ∉ done ∧ Ready graph done id)
    (hopen : ∃ node ∈ graph.nodes, node.id ∉ done) :
    RunsInOrder graph (.error e) (done.map succeeded ++ [event]) where
  once := by
    rw [List.filterMap_append, filterMap_dispatchOf_succeeded]
    cases hof : event.dispatchOf with
    | none => simpa [hof] using h.nodup
    | some id =>
      obtain ⟨hnew, hready⟩ := hevent id hof
      simpa [hof] using (h.concat hnew hready).nodup
  afterDependencies front x back id hsplit hid := by
    rcases List.eq_nil_or_concat back with rfl | ⟨back, last, rfl⟩
    · obtain ⟨rfl, hx⟩ := List.append_inj' hsplit rfl
      obtain rfl : event = x := (List.cons.inj hx).1
      obtain ⟨-, node, hnode, hnodeId, hdeps⟩ := hevent id hid
      exact ⟨node, hnode, hnodeId, fun d hd => succeeded_mem.mpr (hdeps d hd)⟩
    · have hsplit' : done.map succeeded ++ [event] = (front ++ x :: back) ++ [last] := by
        rw [hsplit]
        simp
      exact h.afterDependencies (List.append_inj' hsplit' rfl).1 hid
  failureLast front x back hsplit hx := by
    rcases List.eq_nil_or_concat back with rfl | ⟨back, last, rfl⟩
    · rfl
    · have hsplit' : done.map succeeded ++ [event] = (front ++ x :: back) ++ [last] := by
        rw [hsplit]
        simp
      obtain ⟨done₁, id, done₂, -, -, rfl⟩ :=
        split_succeeded (List.append_inj' hsplit' rfl).1
      exact absurd rfl hx
  success := by
    obtain ⟨node, hnode, hnot⟩ := hopen
    refine ⟨fun h => (by cases h), fun hall => ?_⟩
    rcases List.mem_append.mp (hall node hnode) with hmem | hmem
    · exact absurd (succeeded_mem.mp hmem) hnot
    · rw [← List.mem_singleton.mp hmem] at herror
      cases herror
  firstError := by
    rw [List.findSome?_append, findSome?_error_succeeded]
    simp [herror, errorOf]

end Traces

/-- Every acyclic graph, in whatever order its nodes are visited and whatever the pools and
the work answer, runs to an end, and in order. -/
theorem runToCompletion_inOrder (graph : TaskGraph) (hacyclic : graph.Acyclic)
    (env : Environment) (order : List TaskId) (horder : order.Perm graph.ids) :
    ∃ result s, runToCompletion graph env order = some (result, s) ∧
      RunsInOrder graph result s.trace := by
  have hdepth : remaining graph.ids [] < graph.nodes.length + 1 := by
    have hle := remaining_le graph.ids []
    rw [TaskGraph.ids, List.length_map] at hle
    exact Nat.lt_succ_of_le hle
  have hsome : (runToCompletion graph env order).isSome = true := by
    refine ensureEach_isSome (fun id _ s => ?_) _
    exact ensureCompleted_isSome env hacyclic _ id [] (by simp) hdepth s
  obtain ⟨⟨result, s⟩, hrun⟩ := Option.isSome_iff_exists.mp hsome
  refine ⟨result, s, hrun, ?_⟩
  have hstart : Sound graph [] ⟨[], [], 0⟩ :=
    ⟨⟨List.nodup_nil, fun front id back h => by simp at h⟩, rfl, by simp⟩
  have hwalked : Walked graph [] order (result, s) :=
    ensureEach_walked (ensureCompleted_walked hacyclic _) hstart hrun
  have hids : ∀ {node}, node ∈ graph.nodes → node.id ∈ order := fun hnode =>
    horder.mem_iff.mpr (List.mem_map_of_mem hnode)
  cases hwalked with
  | reached hsound hgoal hreach =>
    rw [hsound.trace]
    exact hsound.ordered.runsInOrder_ok fun node hnode => hgoal _ (hids hnode)
  | failed hordered htrace herror hevent hopen =>
    obtain ⟨g, hg, hnot⟩ := hopen
    obtain ⟨node, hnode, rfl⟩ := List.mem_map.mp (horder.mem_iff.mp hg)
    rw [htrace]
    exact hordered.runsInOrder_error herror hevent ⟨node, hnode, hnot⟩

/-- Two nodes that share a dependency, one of them naming it twice, and a node after both. -/
def diamond : TaskGraph :=
  ⟨[⟨4, 0, [2, 3]⟩, ⟨3, 0, [1, 1]⟩, ⟨2, 0, [1]⟩, ⟨1, 0, []⟩], by decide⟩

/-- No stop, and all goes well but the work of one node. -/
def steadyBut (bad : TaskId) : Environment where
  stopRequested _ := false
  submit _ _ := .ok ()
  work _ id := if id = bad then fail .runtimeCancelled "stage failed" else .ok ()

theorem runToCompletion_inOrder_diamond :
    ∃ result s, runToCompletion diamond (steadyBut 3) [4, 2, 1, 3] = some (result, s) ∧
      RunsInOrder diamond result s.trace := by
  have hrank : ∀ node ∈ diamond.nodes, ∀ d ∈ node.dependencies, d.toNat < node.id.toNat := by
    simp [diamond]
  exact runToCompletion_inOrder diamond (TaskGraph.acyclic_of_rank UInt64.toNat hrank)
    (steadyBut 3) [4, 2, 1, 3] (by decide)

example : (runToCompletion diamond (steadyBut 0) [4, 2, 1, 3]).map
    (fun r => r.2.trace.filterMap Event.dispatchOf) = some [1, 2, 3, 4] := by decide

end SurfaceAi.Runtime
