import Mathlib.Data.List.Basic
import Mathlib.Logic.Function.Basic
import Mathlib.Logic.Relation

/-! How far a recursion can descend that marks a key at each level and stops at a key that
is marked: at most as deep as there are keys left to mark. -/

namespace Descent

variable {K : Type*} [DecidableEq K]

/-- How many of the keys are not marked. -/
def remaining (keys marked : List K) : ℕ := (keys.filter fun k => k ∉ marked).length

theorem remaining_le (keys marked : List K) : remaining keys marked ≤ keys.length :=
  List.length_filter_le ..

theorem remaining_mono (keys : List K) {marked marked' : List K} (h : marked ⊆ marked') :
    remaining keys marked' ≤ remaining keys marked := by
  refine List.Sublist.length_le (List.monotone_filter_right _ ?_)
  intro k hnot
  have hnot' : k ∉ marked' := of_decide_eq_true hnot
  exact decide_eq_true fun hmem => hnot' (h hmem)

theorem remaining_cons_lt {keys marked : List K} {k : K} (hk : k ∈ keys) (hnot : k ∉ marked) :
    remaining keys (k :: marked) < remaining keys marked := by
  have hsplit : (keys.filter fun x => x ∉ k :: marked) =
      (keys.filter fun x => x ∉ marked).filter fun x => x ≠ k := by
    rw [List.filter_filter]
    refine List.filter_congr fun x _ => ?_
    simp [not_or]
  unfold remaining
  rw [hsplit]
  refine List.length_filter_lt_length_iff_exists.mpr ⟨k, ?_, by simp⟩
  exact List.mem_filter.mpr ⟨hk, decide_eq_true hnot⟩

end Descent

/-! Depth-first search for a cycle with three colours. A node is grey while its successors are
visited; a grey successor closes a cycle, since every grey node reaches the one that is visited.
What is black is closed under successors and on no cycle. -/

namespace DepthFirst

open Relation

inductive Color where
  | white | gray | black
  deriving DecidableEq

variable {V : Type*} (next : V → List V)

def Edge (a b : V) : Prop := b ∈ next a

/-- The loop over the successors of a node. It stops at the first cycle. -/
def scan (visit : (V → Color) → V → Option (Bool × (V → Color))) :
    List V → (V → Color) → Option (Bool × (V → Color))
  | [], color => some (false, color)
  | n :: ns, color =>
    match color n with
    | .gray => some (true, color)
    | .black => scan visit ns color
    | .white =>
      match visit color n with
      | some (false, color) => scan visit ns color
      | stopped => stopped

variable [DecidableEq V]

/-- A visit finds a cycle or leaves the node black. Nothing when it goes too deep. -/
def visit : ℕ → (V → Color) → V → Option (Bool × (V → Color))
  | 0, _, _ => none
  | fuel + 1, color, node =>
    match scan (visit fuel) (next node) (Function.update color node .gray) with
    | some (false, color) => some (false, Function.update color node .black)
    | stopped => stopped

/-- Every node that is still white is visited, until a cycle is found. -/
def search (fuel : ℕ) : List V → (V → Color) → Option (Bool × (V → Color))
  | [], color => some (false, color)
  | n :: ns, color =>
    match color n with
    | .white =>
      match visit next fuel color n with
      | some (false, color) => search fuel ns color
      | stopped => stopped
    | _ => search fuel ns color

variable {next}

/-! ### What a visit leaves as it was -/

/-- Nodes never become white again. -/
def Darkens (color color' : V → Color) : Prop := ∀ v, color v ≠ .white → color' v ≠ .white

omit [DecidableEq V] in
theorem Darkens.refl (color : V → Color) : Darkens color color := fun _ h => h

omit [DecidableEq V] in
theorem Darkens.trans {c c' c'' : V → Color} (h : Darkens c c') (h' : Darkens c' c'') :
    Darkens c c'' :=
  fun v hv => h' v (h v hv)

theorem darkens_update {color : V → Color} {node : V} {c : Color} (hc : c ≠ .white) :
    Darkens color (Function.update color node c) := by
  intro v hv
  rcases eq_or_ne v node with rfl | hne
  · rwa [Function.update_self]
  · rwa [Function.update_of_ne hne]

section Frame

variable {visitor : (V → Color) → V → Option (Bool × (V → Color))} {color color' : V → Color}
  {ns : List V} {node : V} {found : Bool} {fuel : ℕ}

omit [DecidableEq V] in
theorem darkens_of_scan
    (hvisit : ∀ c n found c', visitor c n = some (found, c') → Darkens c c')
    (h : scan visitor ns color = some (found, color')) : Darkens color color' := by
  induction ns generalizing color with
  | nil =>
    obtain ⟨-, rfl⟩ := Prod.mk.inj (Option.some.inj h)
    exact .refl color
  | cons n ns ih =>
    rw [scan] at h
    split at h
    · obtain ⟨-, rfl⟩ := Prod.mk.inj (Option.some.inj h)
      exact .refl color
    · exact ih h
    · split at h
      · next color₁ hfirst => exact (hvisit _ _ _ _ hfirst).trans (ih h)
      · exact hvisit _ _ _ _ h

theorem darkens_of_visit (h : visit next fuel color node = some (found, color')) :
    Darkens color color' := by
  induction fuel generalizing color node found color' with
  | zero => cases h
  | succ fuel ih =>
    rw [visit] at h
    have hgray : Darkens color (Function.update color node .gray) := darkens_update (by simp)
    split at h
    · next color₁ hscan =>
      obtain ⟨-, rfl⟩ := Prod.mk.inj (Option.some.inj h)
      exact (hgray.trans (darkens_of_scan (fun _ _ _ _ => ih) hscan)).trans
        (darkens_update (by simp))
    · exact hgray.trans (darkens_of_scan (fun _ _ _ _ => ih) h)

/-! ### What a visit finds -/

variable (next) in
/-- What is black has black successors only and is on no cycle. -/
structure Sound (color : V → Color) : Prop where
  closed : ∀ v, color v = .black → ∀ w ∈ next v, color w = .black
  acyclic : ∀ v, color v = .black → ¬TransGen (Edge next) v v

variable (next) in
/-- How a search of nodes ends: with a cycle, or with all of them black. -/
def Searched (color : V → Color) (ns : List V) : Bool → (V → Color) → Prop
  | true, _ => ∃ v, TransGen (Edge next) v v
  | false, color' => Sound next color' ∧ (∀ n ∈ ns, color' n = .black) ∧
      (∀ v, color v = .black → color' v = .black) ∧ ∀ v, color' v = .gray ↔ color v = .gray

omit [DecidableEq V] in
theorem Sound.black_of_reaches (h : Sound next color) {v w : V} (hv : color v = .black)
    (hreach : ReflTransGen (Edge next) v w) : color w = .black := by
  induction hreach with
  | refl => exact hv
  | tail _ hedge ih => exact h.closed _ ih _ hedge

/-- A node whose successors are all black is on no cycle that is not black already. -/
theorem Sound.blacken (h : Sound next color) (hnode : color node ≠ .black)
    (hnext : ∀ w ∈ next node, color w = .black) :
    Sound next (Function.update color node .black) := by
  have hnew : ∀ v, Function.update color node .black v = .black ↔ v = node ∨ color v = .black := by
    intro v
    rcases eq_or_ne v node with rfl | hne
    · simp
    · simp [hne]
  constructor
  · intro v hv w hw
    rw [hnew] at hv ⊢
    rcases hv with rfl | hv
    · exact .inr (hnext w hw)
    · exact .inr (h.closed v hv w hw)
  · intro v hv hcycle
    rcases (hnew v).mp hv with rfl | hv
    · obtain ⟨w, hedge, hreach⟩ := TransGen.head'_iff.mp hcycle
      exact hnode (h.black_of_reaches (hnext w hedge) hreach)
    · exact h.acyclic v hv hcycle

omit [DecidableEq V] in
/-- The search of one node and then of the others. -/
theorem Searched.cons {color₁ : V → Color} {n : V} (hfirst : Searched next color [n] false color₁)
    (hrest : Searched next color₁ ns found color') : Searched next color (n :: ns) found color' := by
  cases found with
  | true => exact hrest
  | false =>
    obtain ⟨-, hblack, hkeeps, hgray⟩ := hfirst
    obtain ⟨hsound, hblacks, hkeeps', hgray'⟩ := hrest
    refine ⟨hsound, ?_, fun v hv => hkeeps' v (hkeeps v hv), fun v => (hgray' v).trans (hgray v)⟩
    intro w hw
    rcases List.mem_cons.mp hw with rfl | hw
    · exact hkeeps' w (hblack w List.mem_cons_self)
    · exact hblacks w hw

omit [DecidableEq V] in
/-- The successors of a grey node that every grey node reaches. -/
theorem searched_of_scan {current : V} (hcurrent : color current = .gray)
    (hsound : Sound next color) (hreach : ∀ g, color g = .gray → ReflTransGen (Edge next) g current)
    (hns : ∀ n ∈ ns, n ∈ next current)
    (hvisit : ∀ c n found c', visitor c n = some (found, c') → c n = .white → Sound next c →
      (∀ g, c g = .gray → ReflTransGen (Edge next) g n) → Searched next c [n] found c')
    (h : scan visitor ns color = some (found, color')) : Searched next color ns found color' := by
  induction ns generalizing color with
  | nil =>
    obtain ⟨rfl, rfl⟩ := Prod.mk.inj (Option.some.inj h)
    exact ⟨hsound, by simp, fun _ hv => hv, fun _ => Iff.rfl⟩
  | cons n ns ih =>
    have hedge : Edge next current n := hns n List.mem_cons_self
    have hns' : ∀ m ∈ ns, m ∈ next current := fun m hm => hns m (List.mem_cons_of_mem n hm)
    rw [scan] at h
    split at h
    · next hgray =>
      -- the node reaches the current one, which has an edge back to it
      obtain ⟨rfl, -⟩ := Prod.mk.inj (Option.some.inj h)
      exact ⟨n, TransGen.tail' (hreach n hgray) hedge⟩
    · next hblack =>
      refine .cons ⟨hsound, ?_, fun _ hv => hv, fun _ => Iff.rfl⟩
        (ih hcurrent hsound hreach hns' h)
      intro m hm
      rwa [List.mem_singleton.mp hm]
    · next hwhite =>
      have hreach' : ∀ g, color g = .gray → ReflTransGen (Edge next) g n :=
        fun g hg => (hreach g hg).tail hedge
      split at h
      · next color₁ hfirst =>
        have hsearched := hvisit _ _ _ _ hfirst hwhite hsound hreach'
        have hgray := hsearched.2.2.2
        exact hsearched.cons (ih ((hgray current).mpr hcurrent) hsearched.1
          (fun g hg => hreach g ((hgray g).mp hg)) hns' h)
      · next hstopped =>
        cases found with
        | true => exact hvisit _ _ _ _ h hwhite hsound hreach'
        | false => exact absurd h (hstopped color')

/-- A visit of a white node that every grey node reaches. -/
theorem searched_of_visit (hwhite : color node = .white) (hsound : Sound next color)
    (hreach : ∀ g, color g = .gray → ReflTransGen (Edge next) g node)
    (h : visit next fuel color node = some (found, color')) :
    Searched next color [node] found color' := by
  induction fuel generalizing color node found color' with
  | zero => cases h
  | succ fuel ih =>
    rw [visit] at h
    have hsame : ∀ v, v ≠ node → Function.update color node .gray v = color v :=
      fun v hv => Function.update_of_ne hv ..
    have hblack : ∀ v, Function.update color node .gray v = .black ↔ color v = .black := by
      intro v
      rcases eq_or_ne v node with rfl | hne
      · simp [hwhite]
      · rw [hsame v hne]
    have hsound' : Sound next (Function.update color node .gray) :=
      ⟨fun v hv w hw => (hblack w).mpr (hsound.closed v ((hblack v).mp hv) w hw),
        fun v hv => hsound.acyclic v ((hblack v).mp hv)⟩
    have hreach' : ∀ g, Function.update color node .gray g = .gray →
        ReflTransGen (Edge next) g node := by
      intro g hg
      rcases eq_or_ne g node with rfl | hne
      · exact .refl
      · exact hreach g (hsame g hne ▸ hg)
    have hscanned : ∀ {found color'}, scan (visit next fuel) (next node)
        (Function.update color node .gray) = some (found, color') →
        Searched next (Function.update color node .gray) (next node) found color' := fun hscan =>
      searched_of_scan (Function.update_self ..) hsound' hreach' (fun _ hn => hn)
        (fun _ _ _ _ hvisit hwhite hsound hreach => ih hwhite hsound hreach hvisit) hscan
    split at h
    · next color₁ hscan =>
      obtain ⟨rfl, rfl⟩ := Prod.mk.inj (Option.some.inj h)
      obtain ⟨hsound₁, hnext, hkeeps, hgray⟩ := hscanned hscan
      have hnode : color₁ node = .gray := (hgray node).mpr (Function.update_self ..)
      refine ⟨hsound₁.blacken (by simp [hnode]) hnext, by simp, fun v hv => ?_, fun v => ?_⟩
      · rcases eq_or_ne v node with rfl | hne
        · exact Function.update_self ..
        · rw [Function.update_of_ne hne]
          exact hkeeps v ((hblack v).mpr hv)
      · rcases eq_or_ne v node with rfl | hne
        · simp [hwhite]
        · rw [Function.update_of_ne hne, hgray, hsame v hne]
    · next hstopped =>
      cases found with
      | true => exact hscanned h
      | false => exact absurd h (hstopped color')

/-- A search of the whites among some nodes, while none is grey. -/
theorem searched_of_search (hsound : Sound next color) (hgray : ∀ v, color v ≠ .gray)
    (h : search next fuel ns color = some (found, color')) :
    Searched next color ns found color' := by
  induction ns generalizing color with
  | nil =>
    obtain ⟨rfl, rfl⟩ := Prod.mk.inj (Option.some.inj h)
    exact ⟨hsound, by simp, fun _ hv => hv, fun _ => Iff.rfl⟩
  | cons n ns ih =>
    have hreach : ∀ g, color g = .gray → ReflTransGen (Edge next) g n :=
      fun g hg => absurd hg (hgray g)
    rw [search] at h
    split at h
    · next hwhite =>
      split at h
      · next color₁ hfirst =>
        have hsearched := searched_of_visit hwhite hsound hreach hfirst
        exact hsearched.cons (ih hsearched.1
          (fun v hv => hgray v ((hsearched.2.2.2 v).mp hv)) h)
      · next hstopped =>
        cases found with
        | true => exact searched_of_visit hwhite hsound hreach h
        | false => exact absurd h (hstopped color')
    · next hcolor =>
      have hblack : color n = .black := by
        cases hn : color n with
        | white => exact absurd hn hcolor
        | gray => exact absurd hn (hgray n)
        | black => rfl
      refine .cons ⟨hsound, ?_, fun _ hv => hv, fun _ => Iff.rfl⟩ (ih hsound hgray h)
      intro m hm
      rwa [List.mem_singleton.mp hm]

/-- The search from all white nodes finds a cycle exactly when there is one. -/
theorem search_found_iff {nodes : List V} (hnodes : ∀ v w, Edge next v w → v ∈ nodes)
    (h : search next fuel nodes (fun _ => .white) = some (found, color')) :
    found = true ↔ ∃ v, TransGen (Edge next) v v := by
  have hsearched := searched_of_search ⟨by simp, by simp⟩ (by simp) h
  cases found with
  | true => exact iff_of_true rfl hsearched
  | false =>
    obtain ⟨hsound, hblack, -, -⟩ := hsearched
    refine iff_of_false Bool.false_ne_true ?_
    rintro ⟨v, hcycle⟩
    obtain ⟨w, hedge, -⟩ := TransGen.head'_iff.mp hcycle
    exact hsound.acyclic v (hblack v (hnodes v w hedge)) hcycle

end Frame

/-! ### How deep a search goes -/

section Depth

variable {nodes ns : List V} {color color' : V → Color} {node : V} {fuel : ℕ}
  {visitor : (V → Color) → V → Option (Bool × (V → Color))}

/-- How many of the nodes are white. -/
def unvisited (nodes : List V) (color : V → Color) : ℕ :=
  Descent.remaining nodes (nodes.filter fun v => color v ≠ .white)

theorem unvisited_le (color : V → Color) : unvisited nodes color ≤ nodes.length :=
  Descent.remaining_le ..

theorem unvisited_mono (h : Darkens color color') :
    unvisited nodes color' ≤ unvisited nodes color := by
  refine Descent.remaining_mono nodes fun v hv => ?_
  obtain ⟨hmem, hdark⟩ := List.mem_filter.mp hv
  exact List.mem_filter.mpr ⟨hmem, decide_eq_true (h v (of_decide_eq_true hdark))⟩

theorem unvisited_update_lt (hnode : node ∈ nodes) (hwhite : color node = .white) :
    unvisited nodes (Function.update color node .gray) < unvisited nodes color := by
  have hnot : node ∉ nodes.filter fun v => color v ≠ .white := by simp [hwhite]
  refine Nat.lt_of_le_of_lt (Descent.remaining_mono nodes ?_) (Descent.remaining_cons_lt hnode hnot)
  intro v hv
  rcases List.mem_cons.mp hv with rfl | hv
  · exact List.mem_filter.mpr ⟨hnode, by simp⟩
  · obtain ⟨hmem, hdark⟩ := List.mem_filter.mp hv
    exact List.mem_filter.mpr ⟨hmem, decide_eq_true
      (darkens_update (by simp) v (of_decide_eq_true hdark))⟩

theorem isSome_scan
    (hvisit : ∀ c n, c n = .white → n ∈ nodes → unvisited nodes c ≤ fuel → (visitor c n).isSome)
    (hdarkens : ∀ c n found c', visitor c n = some (found, c') → Darkens c c')
    (hns : ∀ n ∈ ns, n ∈ nodes) (hfuel : unvisited nodes color ≤ fuel) :
    (scan visitor ns color).isSome := by
  induction ns generalizing color with
  | nil => rfl
  | cons n ns ih =>
    have hns' : ∀ m ∈ ns, m ∈ nodes := fun m hm => hns m (List.mem_cons_of_mem n hm)
    rw [scan]
    split
    · rfl
    · exact ih hns' hfuel
    · next hwhite =>
      have hfirst := hvisit color n hwhite (hns n List.mem_cons_self) hfuel
      split
      · next color₁ hvisited =>
        exact ih hns' (Nat.le_trans (unvisited_mono (hdarkens _ _ _ _ hvisited)) hfuel)
      · exact hfirst

/-- A visit goes no deeper than there are white nodes. -/
theorem isSome_visit (hclosed : ∀ v ∈ nodes, ∀ w ∈ next v, w ∈ nodes) (hnode : node ∈ nodes)
    (hwhite : color node = .white) (hfuel : unvisited nodes color ≤ fuel) :
    (visit next fuel color node).isSome := by
  induction fuel generalizing color node with
  | zero =>
    have hlt := unvisited_update_lt hnode hwhite
    omega
  | succ fuel ih =>
    have hlt := unvisited_update_lt hnode hwhite
    have hscan := isSome_scan (fun c n hwhite hn hfuel => ih hn hwhite hfuel)
      (fun _ _ _ _ => darkens_of_visit) (hclosed node hnode)
      (show unvisited nodes (Function.update color node .gray) ≤ fuel by omega)
    rw [visit]
    split
    · rfl
    · exact hscan

theorem isSome_search (hclosed : ∀ v ∈ nodes, ∀ w ∈ next v, w ∈ nodes)
    (hns : ∀ n ∈ ns, n ∈ nodes) (hfuel : nodes.length ≤ fuel) :
    (search next fuel ns color).isSome := by
  induction ns generalizing color with
  | nil => rfl
  | cons n ns ih =>
    have hns' : ∀ m ∈ ns, m ∈ nodes := fun m hm => hns m (List.mem_cons_of_mem n hm)
    rw [search]
    split
    · next hwhite =>
      have hfirst := isSome_visit hclosed (hns n List.mem_cons_self) hwhite
        (Nat.le_trans (unvisited_le color) hfuel)
      split
      · exact ih hns'
      · exact hfirst
    · exact ih hns'

end Depth

end DepthFirst
