import Mathlib.Data.List.Basic

/-! Depth-first search to a bounded depth that visits no node twice. Each visited node is
kept with the depth that was left when it was visited. What the search finds, the
successors of the visited nodes, is always within the bound; it is everything within the
bound if no visited node is met again with more depth left than at its visit, since then
what is below that node is not searched to the depth that is left. -/

namespace BoundedSearch

variable {V : Type*}

/-- `b` is `n` steps after `a`. -/
def Steps (R : V → V → Prop) : ℕ → V → V → Prop
  | 0, a, b => a = b
  | n + 1, a, b => ∃ c, Steps R n a c ∧ R c b

/-- `b` is between 1 and `d` steps after `a`. -/
def Within (R : V → V → Prop) (d : ℕ) (a b : V) : Prop := ∃ n, 1 ≤ n ∧ n ≤ d ∧ Steps R n a b

theorem Steps.head {R : V → V → Prop} {n : ℕ} {a b c : V} (h : R a b) (hs : Steps R n b c) :
    Steps R (n + 1) a c := by
  induction n generalizing c with
  | zero =>
    obtain rfl := hs
    exact ⟨a, rfl, h⟩
  | succ n ih =>
    obtain ⟨c', hs, hR⟩ := hs
    exact ⟨c', ih hs, hR⟩

/-- Visited nodes, newest first, each with the depth left at its visit. -/
abbrev Seen (V : Type*) := List (V × ℕ)

variable [DecidableEq V]

/-- Visit those of the nodes that were not visited yet. -/
def visitEach (visit : V → Seen V → Seen V) : List V → Seen V → Seen V
  | [], seen => seen
  | v :: vs, seen =>
    if v ∈ seen.map Prod.fst then visitEach visit vs seen
    else visitEach visit vs (visit v seen)

def search (next : V → List V) : ℕ → V → Seen V → Seen V
  | 0, _, seen => seen
  | d + 1, v, seen => visitEach (search next d) (next v) ((v, d + 1) :: seen)

/-- No node of the list is skipped that was visited with less than `d` left. -/
def keepsDepth (visit : V → Seen V → Seen V) (below : V → Seen V → Bool) (d : ℕ) :
    List V → Seen V → Bool
  | [], _ => true
  | v :: vs, seen =>
    if v ∈ seen.map Prod.fst then
      (seen.any fun p => p.1 = v ∧ d ≤ p.2) && keepsDepth visit below d vs seen
    else below v seen && keepsDepth visit below d vs (visit v seen)

/-- Nowhere in the search is a node skipped that was visited with less depth left. -/
def neverCutShort (next : V → List V) : ℕ → V → Seen V → Bool
  | 0, _, _ => true
  | d + 1, v, seen =>
    keepsDepth (search next d) (neverCutShort next d) d (next v) ((v, d + 1) :: seen)

variable {next : V → List V}

/-- With no depth left nothing is visited. -/
theorem visitEach_search_zero (vs : List V) (seen : Seen V) :
    visitEach (search next 0) vs seen = seen := by
  induction vs with
  | nil => rfl
  | cons v vs ih =>
    unfold visitEach
    split_ifs
    · exact ih
    · exact ih

theorem mem_visitEach {visit : V → Seen V → Seen V}
    (hvisit : ∀ v seen, ∀ p ∈ seen, p ∈ visit v seen) (vs : List V) {seen : Seen V} :
    ∀ p ∈ seen, p ∈ visitEach visit vs seen := by
  induction vs generalizing seen with
  | nil => exact fun p hp => hp
  | cons v vs ih =>
    intro p hp
    unfold visitEach
    split_ifs
    · exact ih p hp
    · exact ih p (hvisit v seen p hp)

/-- What was visited stays visited. -/
theorem mem_search (d : ℕ) (v : V) {seen : Seen V} : ∀ p ∈ seen, p ∈ search next d v seen := by
  induction d generalizing v seen with
  | zero => exact fun p hp => hp
  | succ d ih =>
    intro p hp
    exact mem_visitEach (fun v _ => ih v) _ p (List.mem_cons_of_mem _ hp)

theorem root_mem_search (d : ℕ) (v : V) (seen : Seen V) :
    (v, d + 1) ∈ search next (d + 1) v seen :=
  mem_visitEach (fun v _ => mem_search d v) _ _ (List.mem_cons_self ..)

theorem visitEach_invariant {P : V × ℕ → Prop} {visit : V → Seen V → Seen V} {vs : List V}
    (hvisit : ∀ v ∈ vs, ∀ seen, ∀ p ∈ visit v seen, p ∈ seen ∨ P p) {seen : Seen V} :
    ∀ p ∈ visitEach visit vs seen, p ∈ seen ∨ P p := by
  induction vs generalizing seen with
  | nil => exact fun p hp => .inl hp
  | cons v vs ih =>
    intro p hp
    have hvs := fun w hw => hvisit w (List.mem_cons_of_mem _ hw)
    unfold visitEach at hp
    split_ifs at hp
    · exact ih hvs p hp
    · rcases ih hvs p hp with hp | hp
      · exact hvisit v (List.mem_cons_self ..) seen p hp
      · exact .inr hp

variable {R : V → V → Prop}

/-- A node visited with `m` of `d` left is `d - m` steps from the start. -/
theorem steps_of_mem_search (hnext : ∀ a b, b ∈ next a ↔ R a b) (d : ℕ) (v : V)
    (seen : Seen V) : ∀ p ∈ search next d v seen,
      p ∈ seen ∨ (1 ≤ p.2 ∧ p.2 ≤ d ∧ Steps R (d - p.2) v p.1) := by
  induction d generalizing v seen with
  | zero => exact fun p hp => .inl hp
  | succ d ih =>
    intro p hp
    have hbelow : ∀ w ∈ next v, ∀ seen, ∀ p ∈ search next d w seen,
        p ∈ seen ∨ (1 ≤ p.2 ∧ p.2 ≤ d + 1 ∧ Steps R (d + 1 - p.2) v p.1) := by
      intro w hw seen p hp
      rcases ih w seen p hp with hp | ⟨hpos, hle, hsteps⟩
      · exact .inl hp
      · refine .inr ⟨hpos, by omega, ?_⟩
        rw [Nat.succ_sub hle]
        exact Steps.head ((hnext v w).mp hw) hsteps
    rcases visitEach_invariant hbelow p hp with hp | hp
    · rcases List.mem_cons.mp hp with rfl | hp
      · refine .inr ⟨by simp, Nat.le_refl _, ?_⟩
        rw [Nat.sub_self]
        rfl
      · exact .inl hp
    · exact .inr hp

/-- Everything found is within the bound. -/
theorem within_of_found (hnext : ∀ a b, b ∈ next a ↔ R a b) {d : ℕ} {v b : V}
    (h : ∃ p ∈ search next d v [], b ∈ next p.1) : Within R d v b := by
  obtain ⟨p, hp, hb⟩ := h
  rcases steps_of_mem_search hnext d v [] p hp with hp | ⟨hpos, hle, hsteps⟩
  · cases hp
  · exact ⟨d - p.2 + 1, by omega, by omega, p.1, hsteps, (hnext _ _).mp hb⟩

/-- A visited node's successors are visited with at most one less left. -/
def Closed (next : V → List V) (seen : Seen V) (p : V × ℕ) : Prop :=
  ∀ w ∈ next p.1, 2 ≤ p.2 → ∃ q ∈ seen, q.1 = w ∧ p.2 ≤ q.2 + 1

omit [DecidableEq V] in
theorem Closed.mono {seen seen' : Seen V} (h : ∀ p ∈ seen, p ∈ seen') {p : V × ℕ}
    (hp : Closed next seen p) : Closed next seen' p := by
  intro w hw hle
  obtain ⟨q, hq, hqw, hqle⟩ := hp w hw hle
  exact ⟨q, h q hq, hqw, hqle⟩

theorem visitEach_closed {d : ℕ} (vs : List V) {seen : Seen V}
    (ih : ∀ v seen, neverCutShort next d v seen = true →
      ∀ p ∈ search next d v seen, p ∈ seen ∨ Closed next (search next d v seen) p)
    (h : keepsDepth (search next d) (neverCutShort next d) d vs seen = true) :
    (∀ p ∈ visitEach (search next d) vs seen,
      p ∈ seen ∨ Closed next (visitEach (search next d) vs seen) p) ∧
    ∀ w ∈ vs, 1 ≤ d → ∃ q ∈ visitEach (search next d) vs seen, q.1 = w ∧ d ≤ q.2 := by
  induction vs generalizing seen with
  | nil => exact ⟨fun p hp => .inl hp, by simp⟩
  | cons v vs ihvs =>
    have hmono : ∀ seen, ∀ p ∈ seen, p ∈ visitEach (search next d) vs seen :=
      fun _ => mem_visitEach (fun v _ => mem_search d v) vs
    unfold keepsDepth at h
    unfold visitEach
    split_ifs at h ⊢ with hv
    · rw [Bool.and_eq_true] at h
      obtain ⟨hclosed, hvisited⟩ := ihvs h.2
      refine ⟨hclosed, fun w hw hd => ?_⟩
      rcases List.mem_cons.mp hw with rfl | hw
      · obtain ⟨q, hq, hqd⟩ := List.any_eq_true.mp h.1
        obtain ⟨hqw, hqle⟩ := of_decide_eq_true hqd
        exact ⟨q, hmono _ q hq, hqw, hqle⟩
      · exact hvisited w hw hd
    · rw [Bool.and_eq_true] at h
      obtain ⟨hclosed, hvisited⟩ := ihvs h.2
      constructor
      · intro p hp
        rcases hclosed p hp with hp | hp
        · rcases ih v seen h.1 p hp with hp | hp
          · exact .inl hp
          · exact .inr (hp.mono (hmono _))
        · exact .inr hp
      · intro w hw hd
        rcases List.mem_cons.mp hw with rfl | hw
        · obtain ⟨d, rfl⟩ := Nat.exists_eq_add_of_le' hd
          exact ⟨_, hmono _ _ (root_mem_search d w seen), rfl, Nat.le_refl _⟩
        · exact hvisited w hw hd

/-- A search that is never cut short leaves every node it visits closed. -/
theorem search_closed (d : ℕ) (v : V) (seen : Seen V)
    (h : neverCutShort next d v seen = true) :
    ∀ p ∈ search next d v seen, p ∈ seen ∨ Closed next (search next d v seen) p := by
  induction d generalizing v seen with
  | zero => exact fun p hp => .inl hp
  | succ d ih =>
    obtain ⟨hclosed, hvisited⟩ := visitEach_closed (next v) ih h
    intro p hp
    rcases hclosed p hp with hp | hp
    · rcases List.mem_cons.mp hp with rfl | hp
      · refine .inr fun w hw hle => ?_
        obtain ⟨q, hq, hqw, hqle⟩ := hvisited w hw (by simpa using hle)
        exact ⟨q, hq, hqw, Nat.succ_le_succ hqle⟩
      · exact .inl hp
    · exact .inr hp

/-- A search that is never cut short visits every node less than `d` steps away with the
rest of the depth left. -/
theorem mem_search_of_steps (hnext : ∀ a b, b ∈ next a ↔ R a b) {d : ℕ} {v : V}
    (h : neverCutShort next d v [] = true) {n : ℕ} (hn : n < d) {b : V}
    (hsteps : Steps R n v b) : ∃ q ∈ search next d v [], q.1 = b ∧ d - n ≤ q.2 := by
  induction n generalizing b with
  | zero =>
    obtain rfl := hsteps
    obtain ⟨d, rfl⟩ := Nat.exists_eq_add_of_le' hn
    exact ⟨_, root_mem_search d v [], rfl, Nat.le_refl _⟩
  | succ n ih =>
    obtain ⟨c, hsteps, hR⟩ := hsteps
    obtain ⟨q, hq, rfl, hle⟩ := ih (by omega) hsteps
    have hclosed := (search_closed d v [] h q hq).resolve_left List.not_mem_nil
    obtain ⟨q', hq', hq'b, hle'⟩ := hclosed b ((hnext _ _).mpr hR) (by omega)
    exact ⟨q', hq', hq'b, by omega⟩

/-- A search that is never cut short finds exactly what is within the bound. -/
theorem found_iff_within (hnext : ∀ a b, b ∈ next a ↔ R a b) {d : ℕ} {v : V}
    (h : neverCutShort next d v [] = true) (b : V) :
    (∃ p ∈ search next d v [], b ∈ next p.1) ↔ Within R d v b := by
  constructor
  · exact within_of_found hnext
  · rintro ⟨n, hpos, hle, hsteps⟩
    obtain ⟨n, rfl⟩ := Nat.exists_eq_add_of_le' hpos
    obtain ⟨c, hsteps, hR⟩ := hsteps
    obtain ⟨q, hq, rfl, -⟩ := mem_search_of_steps hnext h hle hsteps
    exact ⟨q, hq, (hnext _ _).mpr hR⟩

theorem keepsDepth_of_le {d : ℕ} (vs : List V) {seen : Seen V}
    (hseen : ∀ p ∈ seen, d ≤ p.2) (hbelow : ∀ v seen, neverCutShort next d v seen = true)
    (hsearch : ∀ v seen, ∀ p ∈ search next d v seen, p ∈ seen ∨ d ≤ p.2) :
    keepsDepth (search next d) (neverCutShort next d) d vs seen = true := by
  induction vs generalizing seen with
  | nil => rfl
  | cons v vs ih =>
    unfold keepsDepth
    split_ifs with hv
    · obtain ⟨p, hp, hpv⟩ := List.mem_map.mp hv
      rw [Bool.and_eq_true]
      exact ⟨List.any_eq_true.mpr ⟨p, hp, decide_eq_true ⟨hpv, hseen p hp⟩⟩, ih hseen⟩
    · rw [Bool.and_eq_true]
      exact ⟨hbelow v seen, ih fun p hp => (hsearch v seen p hp).elim (hseen p) id⟩

/-- A search of depth at most 2 is never cut short. -/
theorem neverCutShort_of_le_two {d : ℕ} (hd : d ≤ 2) (v : V) {seen : Seen V}
    (hseen : ∀ p ∈ seen, d - 1 ≤ p.2) : neverCutShort next d v seen = true := by
  induction d generalizing v seen with
  | zero => rfl
  | succ d ih =>
    refine keepsDepth_of_le (next v) ?_ (fun w _ => ih (by omega) w fun _ _ => by omega) ?_
    · intro p hp
      rcases List.mem_cons.mp hp with rfl | hp
      · exact Nat.le_succ d
      · exact hseen p hp
    · intro w seen p hp
      rcases steps_of_mem_search (fun _ _ => Iff.rfl) d w seen p hp with hp | ⟨hpos, -, -⟩
      · exact .inl hp
      · exact .inr (by omega)

end BoundedSearch
