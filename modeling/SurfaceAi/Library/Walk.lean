import SurfaceAi.Library.Kahn

/-! Walks along the first successor of each node. If no node has two predecessors, a walk from
a node without predecessors meets no node twice; if besides the dependencies are acyclic, and
its start is the only node that depends on nothing, it meets every node. -/

namespace Walk

variable {V : Type*}

/-- At most `n` nodes from `v` on. -/
def follow (next : V → List V) : ℕ → V → List V
  | 0, _ => []
  | n + 1, v =>
    match next v with
    | [] => [v]
    | w :: _ => v :: follow next n w

variable {next : V → List V}

theorem length_follow_le (n : ℕ) (v : V) : (follow next n v).length ≤ n := by
  induction n generalizing v with
  | zero => exact le_rfl
  | succ n ih =>
    unfold follow
    split
    · simp
    · exact Nat.succ_le_succ (ih _)

theorem getElem_zero_follow {n : ℕ} {v : V} (h : 0 < (follow next n v).length) :
    (follow next n v)[0] = v := by
  cases n with
  | zero => simp [follow] at h
  | succ n => cases hnext : next v <;> simp [follow, hnext]

theorem mem_follow_self (n : ℕ) (v : V) : v ∈ follow next (n + 1) v := by
  unfold follow
  split <;> exact List.mem_cons_self

/-- Each node of a walk but the first succeeds the one before it. -/
theorem mem_next_follow {n : ℕ} {v : V} {i : ℕ} (hi : i + 1 < (follow next n v).length) :
    (follow next n v)[i + 1] ∈ next ((follow next n v)[i]) := by
  induction n generalizing v i with
  | zero => simp [follow] at hi
  | succ n ih =>
    cases hnext : next v with
    | nil => simp [follow, hnext] at hi
    | cons w rest =>
      have hfollow : follow next (n + 1) v = v :: follow next n w := by simp only [follow, hnext]
      simp only [hfollow, List.length_cons] at hi ⊢
      cases i with
      | zero =>
        have hpos : 0 < (follow next n w).length := by omega
        simp [getElem_zero_follow hpos, hnext]
      | succ i => exact ih (by omega)

theorem follow_subset {nodes : List V} (hmem : ∀ v, ∀ x ∈ next v, x ∈ nodes) {n : ℕ} {v : V}
    (hv : v ∈ nodes) : follow next n v ⊆ nodes := by
  induction n generalizing v with
  | zero => simp [follow]
  | succ n ih =>
    unfold follow
    split
    · simpa using hv
    · next w rest hnext =>
      have hw : w ∈ nodes := hmem v w (by rw [hnext]; exact List.mem_cons_self)
      exact List.cons_subset.mpr ⟨hv, ih hw⟩

theorem eq_of_length_le_one {l : List V} (hlen : l.length ≤ 1) {x y : V} (hx : x ∈ l)
    (hy : y ∈ l) : x = y := by
  match l with
  | [] => cases hx
  | [w] => rw [List.mem_singleton.mp hx, List.mem_singleton.mp hy]
  | _ :: _ :: _ => simp at hlen

/-- A walk that ends before its last step is over has taken all successors. -/
theorem follow_closed (hlen : ∀ v, (next v).length ≤ 1) {n : ℕ} {v : V}
    (hshort : (follow next n v).length < n) : ∀ x ∈ follow next n v, next x ⊆ follow next n v := by
  induction n generalizing v with
  | zero => simp at hshort
  | succ n ih =>
    cases hnext : next v with
    | nil =>
      intro x hx
      simp only [follow, hnext, List.mem_singleton] at hx
      simp [hx, hnext]
    | cons w rest =>
      have hfollow : follow next (n + 1) v = v :: follow next n w := by simp only [follow, hnext]
      rw [hfollow, List.length_cons] at hshort
      rw [hfollow]
      have hn : 0 < n := by omega
      intro x hx y hy
      rcases List.mem_cons.mp hx with rfl | hx
      · have hw : y = w :=
          eq_of_length_le_one (hlen x) hy (by rw [hnext]; exact List.mem_cons_self)
        obtain ⟨m, rfl⟩ := Nat.exists_eq_add_of_lt hn
        rw [hw]
        apply List.mem_cons_of_mem
        apply mem_follow_self
      · exact List.mem_cons_of_mem _ (ih (by omega) x hx hy)

/-! ### Chains -/

section Chain

variable {v : V}

/-- Two equal nodes of a walk would have equal predecessors, and so back to the start. -/
theorem nodup_follow (hback : ∀ a b x, x ∈ next a → x ∈ next b → a = b) (hstart : ∀ a, v ∉ next a)
    (n : ℕ) : (follow next n v).Nodup := by
  rw [List.Nodup, List.pairwise_iff_getElem]
  intro i j hi hj hij heq
  induction i generalizing j with
  | zero =>
    obtain ⟨j, rfl⟩ : ∃ j', j = j' + 1 := ⟨j - 1, by omega⟩
    have hsucc := mem_next_follow hj
    rw [← heq, getElem_zero_follow] at hsucc
    exact hstart _ hsucc
  | succ i ih =>
    obtain ⟨j, rfl⟩ : ∃ j', j = j' + 1 := ⟨j - 1, by omega⟩
    have hsucc := mem_next_follow hj
    rw [← heq] at hsucc
    exact ih j (by omega) (by omega) (by omega) (hback _ _ _ (mem_next_follow hi) hsucc)

/-- The walk from the only node that depends on nothing meets every node once. -/
theorem follow_perm [DecidableEq V] {nodes : List V} {deps : V → List V} (hnodes : nodes.Nodup)
    (hmem : ∀ v, ∀ x ∈ next v, x ∈ nodes) (hlen : ∀ v, (next v).length ≤ 1)
    (hdual : ∀ x d, d ∈ deps x → x ∈ next d) (hv : v ∈ nodes)
    (hdeps : ∀ x ∈ nodes, deps x = [] → x = v) (hin : ∀ x, ∀ d ∈ deps x, d ∈ nodes)
    (hacyclic : ∀ S : Set V, Kahn.SelfDependent nodes deps S → S = ∅)
    (hback : ∀ a b x, x ∈ next a → x ∈ next b → a = b) (hstart : ∀ a, v ∉ next a) :
    (follow next nodes.length v).Perm nodes := by
  have hnodup := nodup_follow hback hstart nodes.length
  have hsubset : follow next nodes.length v ⊆ nodes := follow_subset hmem hv
  rcases (length_follow_le nodes.length v).eq_or_lt with hfull | hshort
  · exact (List.subperm_of_subset hnodup hsubset).perm_of_length_le hfull.ge
  · -- what the walk misses depends on what it misses
    have hclosed := follow_closed hlen hshort
    have hself : Kahn.SelfDependent nodes deps
        {x | x ∈ nodes ∧ x ∉ follow next nodes.length v} := by
      rintro x ⟨hx, hmissed⟩
      refine ⟨hx, ?_⟩
      match hd : deps x with
      | [] =>
        obtain ⟨n, hn⟩ : ∃ n, nodes.length = n + 1 :=
          Nat.exists_eq_succ_of_ne_zero (List.length_pos_of_mem hv).ne'
        rw [hdeps x hx hd, hn] at hmissed
        exact absurd (mem_follow_self n v) hmissed
      | d :: rest =>
        have hdx : d ∈ deps x := by rw [hd]; exact List.mem_cons_self
        refine ⟨d, List.mem_cons_self, hin x d hdx, fun hfound => hmissed ?_⟩
        exact hclosed d hfound (hdual x d hdx)
    have hempty := hacyclic _ hself
    have hall : nodes ⊆ follow next nodes.length v := by
      intro x hx
      by_contra hmissed
      exact (Set.eq_empty_iff_forall_notMem.mp hempty x) ⟨hx, hmissed⟩
    exact (List.perm_ext_iff_of_nodup hnodup hnodes).mpr fun x => ⟨@hsubset x, @hall x⟩

end Chain

/-- A node of a walk that has no successor is its last. -/
theorem getLast?_follow {n : ℕ} {v x : V}
    (hx : x ∈ follow next n v) (hend : next x = []) : (follow next n v).getLast? = some x := by
  obtain ⟨i, hi, rfl⟩ := List.mem_iff_getElem.mp hx
  have hlast : ¬ i + 1 < (follow next n v).length := by
    intro h
    have hsucc := mem_next_follow h
    rw [hend] at hsucc
    cases hsucc
  rw [List.getLast?_eq_getElem?, List.getElem?_eq_getElem (by omega)]
  congr
  omega

end Walk
