import Mathlib.Algebra.Order.Ring.Int
import Mathlib.Data.List.Nodup
import Mathlib.Data.List.Perm.Subperm
import Mathlib.Data.Set.Basic
import Mathlib.Logic.Function.Basic
import Mathlib.Data.Fintype.Card
import Mathlib.Data.Set.Finite.Basic
import Mathlib.Logic.Relation
import Mathlib.Order.WellFounded

/-! Cycles of a relation. A finite set that cannot be left for good, because each member has
a successor in it, has a cycle in it; and the members of cycles are such a set. -/

namespace Cycles

open Relation

variable {V : Type*} {r : V → V → Prop}

/-- No vertex reaches itself. -/
def Acyclic (r : V → V → Prop) : Prop := ∀ v, ¬TransGen r v v

theorem exists_succ_on_cycle {v : V} (h : TransGen r v v) : ∃ w, r v w ∧ TransGen r w w := by
  obtain ⟨w, hvw, hwv⟩ := TransGen.head'_iff.mp h
  exact ⟨w, hvw, TransGen.tail' hwv hvw⟩

theorem Acyclic.swap (h : Acyclic r) : Acyclic (Function.swap r) :=
  fun v hv => h v (transGen_swap.mp hv)

/-- Without cycles, a finite set has a member that has no successor in it. -/
theorem Acyclic.exists_last (h : Acyclic r) {S : Set V} (hfinite : S.Finite) (hne : S.Nonempty) :
    ∃ x ∈ S, ∀ y ∈ S, ¬r x y := by
  have : Finite S := hfinite
  let above : S → S → Prop := fun a b => TransGen r b a
  have htrans : IsTrans S above := ⟨fun _ _ _ hab hbc => hbc.trans hab⟩
  have hirrefl : Std.Irrefl above := ⟨fun a => h a⟩
  have hwf : WellFounded above := Finite.wellFounded_of_trans_of_irrefl above
  obtain ⟨x, -, hx⟩ := hwf.has_min Set.univ ⟨⟨_, hne.some_mem⟩, trivial⟩
  exact ⟨x, x.2, fun y hy hxy => hx ⟨y, hy⟩ trivial (.single hxy)⟩

/-- Without cycles, a finite set has a member that no member leads to. -/
theorem Acyclic.exists_first (h : Acyclic r) {S : Set V} (hfinite : S.Finite) (hne : S.Nonempty) :
    ∃ x ∈ S, ∀ y ∈ S, ¬r y x := h.swap.exists_last hfinite hne

end Cycles

/-! Kahn's algorithm on a finite graph. A node is queued when its last dependency has been
visited. If all nodes are visited, no set of nodes depends on itself throughout; and all of them
are exactly if the dependencies have no cycle. -/

namespace Kahn

variable {V : Type*} [DecidableEq V]

structure State (V : Type*) where
  queue : List V
  degree : V → ℤ
  visited : List V

/-- One dependency of `next` is done. -/
def relax (s : State V) (next : V) : State V where
  queue := if s.degree next - 1 = 0 then s.queue ++ [next] else s.queue
  degree := Function.update s.degree next (s.degree next - 1)
  visited := s.visited

/-- Take nodes from the queue, at most `fuel` of them. -/
def loop (adj : V → List V) : ℕ → State V → State V
  | 0, s => s
  | fuel + 1, s =>
    match s.queue with
    | [] => s
    | id :: queue => loop adj fuel ((adj id).foldl relax ⟨queue, s.degree, s.visited ++ [id]⟩)

/-- What relaxing a list of nodes does: degrees go down, and the nodes whose degree reaches
zero on the way are queued. -/
theorem foldl_relax (l : List V) (s : State V) : ∃ pushed : List V,
    (l.foldl relax s).queue = s.queue ++ pushed ∧
      (l.foldl relax s).visited = s.visited ∧
      (∀ x, (l.foldl relax s).degree x = s.degree x - l.count x) ∧
      pushed.Nodup ∧ ∀ x, x ∈ pushed ↔ 1 ≤ s.degree x ∧ s.degree x ≤ l.count x := by
  induction l generalizing s with
  | nil =>
    refine ⟨[], by simp, rfl, by simp, List.nodup_nil, fun x => ?_⟩
    simp
    omega
  | cons next l ih =>
    obtain ⟨pushed, hqueue, hvisited, hdegree, hnodup, hmem⟩ := ih (relax s next)
    have hrelax : ∀ x, (relax s next).degree x = s.degree x - if next = x then 1 else 0 := by
      intro x
      rcases eq_or_ne next x with rfl | hne
      · simp [relax]
      · simp [relax, Function.update_of_ne hne.symm, hne]
    have hcount : ∀ x, ((next :: l).count x : ℤ) = l.count x + if next = x then 1 else 0 := by
      intro x
      rw [List.count_cons]
      by_cases hx : next = x <;> simp [hx]
    rw [List.foldl_cons]
    by_cases hzero : s.degree next - 1 = 0
    · refine ⟨next :: pushed, ?_, hvisited, ?_, ?_, ?_⟩
      · rw [hqueue, relax, if_pos hzero, List.append_assoc]
        rfl
      · intro x
        rw [hdegree, hrelax, hcount]
        omega
      · refine List.nodup_cons.mpr ⟨?_, hnodup⟩
        rw [hmem, hrelax, if_pos rfl]
        omega
      · intro x
        rw [List.mem_cons, hmem, hrelax, hcount]
        rcases eq_or_ne next x with rfl | hne
        · simp
          omega
        · simp [hne, hne.symm]
    · refine ⟨pushed, ?_, hvisited, ?_, hnodup, ?_⟩
      · rw [hqueue, relax, if_neg hzero]
      · intro x
        rw [hdegree, hrelax, hcount]
        omega
      · intro x
        rw [hmem, hrelax, hcount]
        rcases eq_or_ne next x with rfl | hne
        · simp
          omega
        · simp [hne]

/-- Degrees count the dependencies not visited; what is queued or visited has none. -/
structure Inv (nodes : List V) (deps : V → List V) (s : State V) : Prop where
  degree : ∀ x ∈ nodes, s.degree x = (deps x).countP fun d => decide (d ∉ s.visited)
  nodup : (s.visited ++ s.queue).Nodup
  mem : ∀ x ∈ s.visited ++ s.queue, x ∈ nodes
  ready : ∀ x ∈ s.visited ++ s.queue, s.degree x = 0

variable {nodes : List V} {deps adj : V → List V} {s : State V}

/-- Visiting the first node of the queue. -/
theorem Inv.visit (h : Inv nodes deps s)
    (hadj : ∀ v, ∀ x ∈ nodes, (adj v).count x = (deps x).count v)
    (hmem : ∀ v, ∀ x ∈ adj v, x ∈ nodes) {id : V} {queue : List V} (hqueue : s.queue = id :: queue) :
    Inv nodes deps ((adj id).foldl relax ⟨queue, s.degree, s.visited ++ [id]⟩) := by
  obtain ⟨pushed, hpushed, hvisited, hdegree, hnodup, hin⟩ :=
    foldl_relax (adj id) ⟨queue, s.degree, s.visited ++ [id]⟩
  have hold : s.visited ++ s.queue = s.visited ++ [id] ++ queue := by simp [hqueue]
  have hn := h.nodup
  rw [hold] at hn
  have hid : id ∉ s.visited := by
    have := (List.nodup_append.mp (List.nodup_append.mp hn).1).2.2
    exact fun hmem => this id hmem id (List.mem_singleton_self id) rfl
  -- the dependencies on `id` are the ones newly visited
  have hcount : ∀ l : List V, (l.countP fun d => decide (d ∉ s.visited)) =
      (l.countP fun d => decide (d ∉ s.visited ++ [id])) + l.count id := by
    intro l
    induction l with
    | nil => rfl
    | cons d l ih =>
      rw [List.countP_cons, List.countP_cons, List.count_cons, ih]
      rcases eq_or_ne d id with rfl | hne
      · simp [hid]
        omega
      · simp [hne]
        omega
  have hdeg : ∀ x ∈ nodes, ((adj id).foldl relax ⟨queue, s.degree, s.visited ++ [id]⟩).degree x =
      (deps x).countP fun d => decide (d ∉ s.visited ++ [id]) := by
    intro x hx
    rw [hdegree x, hadj id x hx]
    show s.degree x - _ = _
    rw [h.degree x hx, hcount (deps x)]
    push_cast
    omega
  have hpushed_mem : ∀ x ∈ pushed, x ∈ nodes := by
    intro x hx
    have hpos := (hin x).mp hx
    apply hmem id x
    apply List.count_pos_iff.mp
    omega
  have hpushed_zero : ∀ x ∈ pushed,
      ((adj id).foldl relax ⟨queue, s.degree, s.visited ++ [id]⟩).degree x = 0 := by
    intro x hx
    have hpos := (hin x).mp hx
    have hnode := hdeg x (hpushed_mem x hx)
    rw [hdegree x] at hnode ⊢
    omega
  have hready : ∀ x ∈ s.visited ++ [id] ++ queue, s.degree x = 0 := by
    rw [← hold]
    exact h.ready
  refine ⟨?_, ?_, ?_, ?_⟩
  · rw [hvisited]
    exact hdeg
  · rw [hvisited, hpushed, ← List.append_assoc, List.nodup_append]
    refine ⟨hn, hnodup, ?_⟩
    rintro x hx y hy rfl
    have hpos := (hin x).mp hy
    rw [hready x hx] at hpos
    omega
  · intro x hx
    rw [hvisited, hpushed, ← List.append_assoc, List.mem_append] at hx
    rcases hx with hx | hx
    · exact h.mem x (hold ▸ hx)
    · exact hpushed_mem x hx
  · intro x hx
    rw [hvisited, hpushed, ← List.append_assoc, List.mem_append] at hx
    rcases hx with hx | hx
    · have hzero := hready x hx
      have hnode : x ∈ nodes := h.mem x (hold ▸ hx)
      have hdown := hdeg x hnode
      rw [hdegree x] at hdown ⊢
      show s.degree x - _ = 0
      have hshow : s.degree x - ((adj id).count x : ℤ) =
          ((deps x).countP fun d => decide (d ∉ s.visited ++ [id]) : ℕ) := hdown
      omega
    · exact hpushed_zero x hx

theorem Inv.loop (h : Inv nodes deps s)
    (hadj : ∀ v, ∀ x ∈ nodes, (adj v).count x = (deps x).count v)
    (hmem : ∀ v, ∀ x ∈ adj v, x ∈ nodes) (fuel : ℕ) : Inv nodes deps (loop adj fuel s) := by
  induction fuel generalizing s with
  | zero => exact h
  | succ fuel ih =>
    unfold Kahn.loop
    split
    · exact h
    · next id queue hqueue => exact ih (h.visit hadj hmem hqueue)

/-- As many steps as there are nodes empty the queue. -/
theorem queue_eq_nil (h : Inv nodes deps s)
    (hadj : ∀ v, ∀ x ∈ nodes, (adj v).count x = (deps x).count v)
    (hmem : ∀ v, ∀ x ∈ adj v, x ∈ nodes) {fuel : ℕ} (hfuel : nodes.length ≤ s.visited.length + fuel) :
    (loop adj fuel s).queue = [] := by
  induction fuel generalizing s with
  | zero =>
    have hle := (List.subperm_of_subset h.nodup h.mem).length_le
    rw [List.length_append] at hle
    have hzero : s.queue.length = 0 := by omega
    exact List.length_eq_zero_iff.mp hzero
  | succ fuel ih =>
    unfold loop
    split
    · next hqueue => exact hqueue
    · next id queue hqueue =>
      obtain ⟨pushed, -, hvisited, -⟩ := foldl_relax (adj id) ⟨queue, s.degree, s.visited ++ [id]⟩
      refine ih (h.visit hadj hmem hqueue) ?_
      rw [hvisited]
      simp
      omega

/-- A node whose degree is zero is queued or visited. -/
def Caught (nodes : List V) (s : State V) : Prop :=
  ∀ x ∈ nodes, s.degree x = 0 → x ∈ s.visited ++ s.queue

/-- Relaxing queues each node whose degree it brings to zero. -/
theorem Caught.visit (hcaught : Caught nodes s) (h : Inv nodes deps s) {id : V} {queue : List V}
    (hqueue : s.queue = id :: queue) :
    Caught nodes ((adj id).foldl relax ⟨queue, s.degree, s.visited ++ [id]⟩) := by
  obtain ⟨pushed, hpushed, hvisited, hdegree, -, hin⟩ :=
    foldl_relax (adj id) ⟨queue, s.degree, s.visited ++ [id]⟩
  intro x hx hzero
  have hdown := hdegree x
  rw [hzero] at hdown
  have hpos : 0 ≤ s.degree x := by
    rw [h.degree x hx]
    exact Int.natCast_nonneg _
  rw [hpushed, hvisited]
  by_cases hready : s.degree x = 0
  · have hold := hcaught x hx hready
    rw [hqueue] at hold
    simp at hold ⊢
    tauto
  · have hnew : x ∈ pushed := by
      apply (hin x).mpr
      change 1 ≤ s.degree x ∧ s.degree x ≤ (adj id).count x
      change 0 = s.degree x - (adj id).count x at hdown
      omega
    exact List.mem_append_right _ (List.mem_append_right _ hnew)

theorem Caught.loop (hcaught : Caught nodes s) (h : Inv nodes deps s)
    (hadj : ∀ v, ∀ x ∈ nodes, (adj v).count x = (deps x).count v)
    (hmem : ∀ v, ∀ x ∈ adj v, x ∈ nodes) (fuel : ℕ) : Caught nodes (loop adj fuel s) := by
  induction fuel generalizing s with
  | zero => exact hcaught
  | succ fuel ih =>
    unfold Kahn.loop
    split
    · exact hcaught
    · next id queue hqueue =>
      exact ih (hcaught.visit h hqueue) (h.visit hadj hmem hqueue)

/-! ### Sets of nodes that depend on themselves -/

/-- Every member depends on a member. -/
def SelfDependent (nodes : List V) (deps : V → List V) (S : Set V) : Prop :=
  ∀ x ∈ S, x ∈ nodes ∧ ∃ d ∈ deps x, d ∈ S

variable {S : Set V}

/-- What is ready depends on visited nodes only. -/
theorem Inv.notMem_of_ready (h : Inv nodes deps s) (hS : SelfDependent nodes deps S)
    (hvisited : ∀ x ∈ s.visited, x ∉ S) {x : V} (hx : x ∈ s.visited ++ s.queue) : x ∉ S := by
  intro hxS
  obtain ⟨hnode, d, hd, hdS⟩ := hS x hxS
  have hzero : (deps x).countP (fun d => decide (d ∉ s.visited)) = 0 := by
    have hdegree := h.degree x hnode
    rw [h.ready x hx] at hdegree
    omega
  have hseen := List.countP_eq_zero.mp hzero d hd
  exact hvisited d (by simpa using hseen) hdS

theorem notMem_visited (h : Inv nodes deps s)
    (hadj : ∀ v, ∀ x ∈ nodes, (adj v).count x = (deps x).count v)
    (hmem : ∀ v, ∀ x ∈ adj v, x ∈ nodes) (hS : SelfDependent nodes deps S)
    (hvisited : ∀ x ∈ s.visited, x ∉ S) (fuel : ℕ) : ∀ x ∈ (loop adj fuel s).visited, x ∉ S := by
  induction fuel generalizing s with
  | zero => exact hvisited
  | succ fuel ih =>
    unfold loop
    split
    · exact hvisited
    · next id queue hqueue =>
      obtain ⟨pushed, -, hafter, -⟩ := foldl_relax (adj id) ⟨queue, s.degree, s.visited ++ [id]⟩
      refine ih (h.visit hadj hmem hqueue) ?_
      rw [hafter]
      intro x hx
      apply h.notMem_of_ready hS hvisited
      rw [hqueue]
      simp at hx ⊢
      tauto

/-- If all nodes are visited, no set of nodes depends on itself. -/
theorem eq_empty_of_selfDependent (h : Inv nodes deps s)
    (hadj : ∀ v, ∀ x ∈ nodes, (adj v).count x = (deps x).count v)
    (hmem : ∀ v, ∀ x ∈ adj v, x ∈ nodes) (hstart : s.visited = []) {fuel : ℕ}
    (hall : (loop adj fuel s).visited.length = nodes.length) (hS : SelfDependent nodes deps S) :
    S = ∅ := by
  have hinv := h.loop hadj hmem fuel
  have hnodup : (loop adj fuel s).visited.Nodup := (List.nodup_append.mp hinv.nodup).1
  have hsubset : (loop adj fuel s).visited ⊆ nodes := fun x hx =>
    hinv.mem x (List.mem_append_left _ hx)
  have hperm := (List.subperm_of_subset hnodup hsubset).perm_of_length_le hall.ge
  apply Set.eq_empty_of_forall_notMem
  intro x hx
  have hvisited : x ∈ (loop adj fuel s).visited := hperm.mem_iff.mpr (hS x hx).1
  exact notMem_visited h hadj hmem hS (by simp [hstart]) fuel x hvisited hx

/-! ### Cycles -/

/-- A node of the graph and what it depends on. -/
def DependsOn (nodes : List V) (deps : V → List V) (a b : V) : Prop := a ∈ nodes ∧ b ∈ deps a

omit [DecidableEq V] in
theorem selfDependent_cycles : SelfDependent nodes deps
    {x | Relation.TransGen (DependsOn nodes deps) x x} := by
  intro x hx
  obtain ⟨d, ⟨hnode, hd⟩, hcycle⟩ := Cycles.exists_succ_on_cycle hx
  exact ⟨hnode, d, hd, hcycle⟩

/-- When the queue is empty, what is not visited depends on itself. -/
theorem Inv.selfDependent_unvisited (h : Inv nodes deps s) (hcaught : Caught nodes s)
    (hdeps : ∀ x ∈ nodes, deps x ⊆ nodes) (hqueue : s.queue = []) :
    SelfDependent nodes deps {x | x ∈ nodes ∧ x ∉ s.visited} := by
  rintro x ⟨hx, hnot⟩
  have hdegree : s.degree x ≠ 0 := by
    intro hzero
    have hin := hcaught x hx hzero
    rw [hqueue, List.append_nil] at hin
    exact hnot hin
  have hcount : (deps x).countP (fun d => decide (d ∉ s.visited)) ≠ 0 := by
    rw [h.degree x hx] at hdegree
    exact_mod_cast hdegree
  obtain ⟨d, hd, hopen⟩ := List.countP_pos_iff.mp (Nat.pos_of_ne_zero hcount)
  exact ⟨hx, d, hd, hdeps x hx hd, of_decide_eq_true hopen⟩

/-- All nodes are visited exactly if the dependencies have no cycle. -/
theorem length_visited_iff_acyclic (h : Inv nodes deps s) (hcaught : Caught nodes s)
    (hadj : ∀ v, ∀ x ∈ nodes, (adj v).count x = (deps x).count v)
    (hmem : ∀ v, ∀ x ∈ adj v, x ∈ nodes) (hdeps : ∀ x ∈ nodes, deps x ⊆ nodes)
    (hnodup : nodes.Nodup) (hstart : s.visited = []) {fuel : ℕ} (hfuel : nodes.length ≤ fuel) :
    (loop adj fuel s).visited.length = nodes.length ↔ Cycles.Acyclic (DependsOn nodes deps) := by
  have hinv := h.loop hadj hmem fuel
  have hqueue : (loop adj fuel s).queue = [] :=
    queue_eq_nil h hadj hmem (by rw [hstart]; simpa using hfuel)
  constructor
  · intro hall v hv
    have hempty := eq_empty_of_selfDependent h hadj hmem hstart hall selfDependent_cycles
    exact Set.notMem_empty v (hempty ▸ hv)
  · intro hacyclic
    have hunvisited := hinv.selfDependent_unvisited (hcaught.loop h hadj hmem fuel) hdeps hqueue
    have hall : ∀ x ∈ nodes, x ∈ (loop adj fuel s).visited := by
      intro x hx
      by_contra hnot
      have hfinite : {x | x ∈ nodes ∧ x ∉ (loop adj fuel s).visited}.Finite :=
        (List.finite_toSet nodes).subset fun y hy => hy.1
      obtain ⟨y, hy, hlast⟩ := hacyclic.exists_last hfinite ⟨x, hx, hnot⟩
      obtain ⟨hnode, d, hd, hopen⟩ := hunvisited y hy
      exact hlast d hopen ⟨hnode, hd⟩
    have hvisited : (loop adj fuel s).visited.Nodup := (List.nodup_append.mp hinv.nodup).1
    refine Nat.le_antisymm ?_ ?_
    · exact (List.subperm_of_subset hvisited fun x hx =>
        hinv.mem x (List.mem_append_left _ hx)).length_le
    · exact (List.subperm_of_subset hnodup hall).length_le

end Kahn
