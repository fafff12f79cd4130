import SurfaceAi.Tuning.GaussianProcess

/-! The optimisation loop: random points first, then maximisers of the expected improvement
found by projected quasi-Newton ascents. The random number generator is the sequence of its
draws, the objective the sequence of its answers. Whatever holds of sampled and of clamped
points holds of all points the loop proposes. -/

namespace SurfaceAi.Tuning

open Detection (ratio stdAbs)

/-- The `n`-th call of `Evaluate` may depend on `n`. -/
abbrev TuningObjective (F : Type*) := ℕ → List F → Result F

/-- What the distribution of parameter `i` returns for the `k`-th random point. -/
abbrev Draws (F : Type*) := ℕ → ℕ → F

section Vectors

variable {F : Type*} [Zero F]

/-- A vector filled by a loop over its indices. -/
def vec (dim : ℕ) (f : ℕ → F) : List F := (List.range dim).map f

omit [Zero F] in
@[simp] theorem length_vec (dim : ℕ) (f : ℕ → F) : (vec dim f).length = dim := by
  simp [vec]

end Vectors

/-- Where an ascent stands: its point, the gradient there, and the pairs of differences of
points and of gradients, the latest last. -/
structure Ascent (F : Type*) where
  x : List F
  grad : List F
  history : List (List F × List F)

namespace BayesianOptimizer

/-! ### Calls -/

section Calls

variable {F : Type*}

/-- A call of `Optimize`: the optimiser, the points that have been passed to `Evaluate`, and the
number of random points drawn. -/
structure Search (F : Type*) where
  optimizer : BayesianOptimizer F
  evaluated : List (List F)
  drawn : ℕ

/-- Evaluate a point and store the observation. -/
def Search.propose (s : Search F) (objective : TuningObjective F) (x : List F) :
    Result Unit × Search F :=
  match objective s.evaluated.length x with
  | .error e => (.error e, { s with evaluated := s.evaluated ++ [x] })
  | .ok cost => (.ok (), { s with
      optimizer := s.optimizer.addObservation ⟨x, cost⟩
      evaluated := s.evaluated ++ [x] })

/-- The space and the configuration stay; observations are added at the end. -/
structure Search.Grows (s s' : Search F) : Prop where
  space : s'.optimizer.space = s.optimizer.space
  config : s'.optimizer.config = s.optimizer.config
  observations : s.optimizer.observations <+: s'.optimizer.observations

variable {s s' s'' : Search F}

theorem Search.Grows.refl (s : Search F) : s.Grows s := ⟨rfl, rfl, List.prefix_rfl⟩

theorem Search.Grows.trans (h : s.Grows s') (h' : s'.Grows s'') : s.Grows s'' :=
  ⟨h'.space.trans h.space, h'.config.trans h.config, h.observations.trans h'.observations⟩

theorem Search.propose_grows (s : Search F) (objective : TuningObjective F) (x : List F) :
    s.Grows (s.propose objective x).2 := by
  unfold propose
  split
  · exact ⟨rfl, rfl, List.prefix_rfl⟩
  · exact ⟨rfl, rfl, List.prefix_append _ _⟩

end Calls

variable {F : Type*} [Zero F] [One F] [Add F] [Sub F] [Neg F] [Mul F] [Div F] [NatCast F]
variable [LT F] [DecidableLT F] [LE F] [DecidableLE F] [TuningMath F]
variable (opt : BayesianOptimizer F)

/-- The two-loop recursion. -/
def searchDirection (dim : ℕ) (grad : List F) (history : List (List F × List F)) : List F :=
  let (q, factors) := history.foldr (fun (s, y) (q, factors) =>
    let rho := 1 / dot s y
    let alpha := rho * dot s q
    (vec dim fun j => q.getD j 0 - alpha * y.getD j 0, (rho, alpha) :: factors)) (grad, [])
  let gamma : F := match history.getLast? with
    | none => 1
    | some (s, y) => if 0 < dot y y then dot s y / dot y y else 1
  (history.zip factors).foldl (fun r ((s, y), (rho, alpha)) =>
    let beta := rho * dot y r
    vec dim fun j => r.getD j 0 + s.getD j 0 * (alpha - beta)) (vec dim fun j => gamma * q.getD j 0)

/-- The projected backtracking. Its step starts at one, so its body runs at least once; it is
halved no more than 34 times. -/
def lineSearch (x d : List F) (eiX gradDotD : F) : ℕ → F → Option (List F)
  | fuel, step =>
    let xNew := opt.space.clampToBounds
      (vec opt.space.dimension fun j => x.getD j 0 + step * d.getD j 0)
    (opt.computeEI xNew).bind fun eiNew =>
      if eiX + ratio 1 (10 ^ 4) * step * gradDotD ≤ eiNew then some xNew
      else
        match fuel with
        | 0 => some xNew
        | fuel + 1 =>
          if ratio 1 (10 ^ 10) < step * ratio 1 2 then
            lineSearch x d eiX gradDotD fuel (step * ratio 1 2)
          else some xNew

/-- One iteration of the ascent. -/
def ascend (a : Ascent F) : Option (Ascent F) :=
  let dim := opt.space.dimension
  let r := searchDirection dim a.grad a.history
  let d := if dot a.grad r ≤ 0 then a.grad else r
  (opt.computeEI a.x).bind fun eiX =>
  (opt.lineSearch a.x d eiX (dot a.grad d) 64 1).bind fun xNew =>
  (opt.computeEIGradient xNew).map fun gradNew =>
    let s := vec dim fun j => xNew.getD j 0 - a.x.getD j 0
    let y := vec dim fun j => gradNew.getD j 0 - a.grad.getD j 0
    let kept := if 5 ≤ a.history.length then a.history.drop 1 else a.history
    { x := xNew
      grad := gradNew
      history := if ratio 1 (10 ^ 12) < dot s y then kept ++ [(s, y)] else a.history }

/-- Iterations up to the limit, or until the gradient is small. -/
def ascendLoop : ℕ → Ascent F → Option (List F)
  | 0, a => some a.x
  | iters + 1, a =>
    if a.grad.foldl (fun m g => stdMax m (stdAbs g)) 0 < opt.config.lbfgsGradTol then some a.x
    else (opt.ascend a).bind fun a' => ascendLoop iters a'

/-- One restart, from a random point. -/
def restart (draw : ℕ → F) : Option (List F) :=
  let x := opt.space.randomFeasiblePoint draw
  (opt.computeEIGradient x).bind fun grad => opt.ascendLoop opt.config.lbfgsMaxIters ⟨x, grad, []⟩

/-- The best end point of the restarts, the `k`-th of which starts from `draws k`; no point if
none is better than nothing. -/
def lbfgsbMaximize (draws : Draws F) : Option (List F) :=
  ((List.range opt.config.lbfgsRestarts).foldlM (fun best k =>
    (opt.restart (draws k)).bind fun x =>
      (opt.computeEI x).map fun eiFinal => if best.2 < eiFinal then (x, eiFinal) else best)
    (([], TuningMath.negInfinity) : List F × F)).map Prod.fst

/-- Random points up to the initial number. -/
def initialPoints (objective : TuningObjective F) (draws : Draws F) :
    ℕ → Search F → Result Unit × Search F
  | 0, s => (.ok (), s)
  | missing + 1, s =>
    let x := s.optimizer.space.randomFeasiblePoint (draws s.drawn)
    match { s with drawn := s.drawn + 1 }.propose objective x with
    | (.error e, s') => (.error e, s')
    | (.ok _, s') => initialPoints objective draws missing s'

/-- The iterations in a row without improvement, after one more. -/
def stagnationCount (eiMax : F) (stagnation : ℕ) : ℕ :=
  if eiMax < opt.config.eiTol then stagnation + 1 else 0

def stagnates (stagnation : ℕ) : Bool :=
  0 < stagnation && decide (opt.config.eiStagnationIters ≤ stagnation)

/-- The iterations that are left, after some without improvement. -/
def iterate (objective : TuningObjective F) (draws : Draws F) :
    ℕ → ℕ → Search F → Option (Result Unit × Search F)
  | 0, _, s => some (.ok (), s)
  | iters + 1, stagnation, s =>
    s.optimizer.fitHyperparameters.bind fun fitted =>
    (fitted.lbfgsbMaximize fun k => draws (s.drawn + k)).bind fun bestX =>
      let s' : Search F := { s with
        optimizer := fitted, drawn := s.drawn + fitted.config.lbfgsRestarts }
      if bestX.isEmpty then some (.ok (), s')
      else
        (fitted.computeEI bestX).bind fun eiMax =>
          let stagnation := fitted.stagnationCount eiMax stagnation
          if fitted.stagnates stagnation then some (.ok (), s')
          else
            match s'.propose objective bestX with
            | (.error e, s'') => some (.error e, s'')
            | (.ok _, s'') => iterate objective draws iters stagnation s''

def optimize (objective : TuningObjective F) (draws : Draws F) :
    Option (Result (OptimizationPoint F) × Search F) :=
  let start : Search F := ⟨opt, [], 0⟩
  if opt.space.dimension = 0 then
    some (fail .tuningSpaceEmpty "TuningSpace has zero parameters — nothing to optimize", start)
  else
    match initialPoints objective draws
      (opt.config.initialRandomPoints - opt.observations.length) start with
    | (.error e, s) => some (.error e, s)
    | (.ok _, s) =>
      (iterate objective draws opt.config.maxIterations 0 s).map fun
        | (.error e, s) => (.error e, s)
        | (.ok _, s) => (.ok s.optimizer.bestPoint, s)

/-! ### What a call keeps -/

section Grows

variable {opt} {objective : TuningObjective F} {draws : Draws F}

omit [One F] [Neg F] [NatCast F] [LE F] [DecidableLE F] in
theorem initialPoints_grows (objective : TuningObjective F) (draws : Draws F) (missing : ℕ)
    (s : Search F) :
    s.Grows (initialPoints objective draws missing s).2 := by
  induction missing generalizing s with
  | zero => exact .refl s
  | succ missing ih =>
    have hone := Search.propose_grows { s with drawn := s.drawn + 1 } objective
      (s.optimizer.space.randomFeasiblePoint (draws s.drawn))
    have hdrawn : s.Grows { s with drawn := s.drawn + 1 } := ⟨rfl, rfl, List.prefix_rfl⟩
    simp only [initialPoints]
    split
    · next e s' hs' =>
      rw [hs'] at hone
      exact hdrawn.trans hone
    · next s' hs' =>
      rw [hs'] at hone
      exact (hdrawn.trans hone).trans (ih s')

theorem iterate_grows {iters stagnation : ℕ} {s : Search F} {out : Result Unit × Search F}
    (h : iterate objective draws iters stagnation s = some out) : s.Grows out.2 := by
  induction iters generalizing stagnation s with
  | zero =>
    cases h
    exact .refl s
  | succ iters ih =>
    simp only [iterate, Option.bind_eq_some_iff] at h
    obtain ⟨fitted, hfit, bestX, -, h⟩ := h
    obtain ⟨hspace, hconfig, hobs⟩ := fitHyperparameters_frame hfit
    have hfitted : s.Grows { s with
        optimizer := fitted, drawn := s.drawn + fitted.config.lbfgsRestarts } :=
      ⟨hspace, hconfig, hobs ▸ List.prefix_rfl⟩
    split at h
    · cases h
      exact hfitted
    · obtain ⟨eiMax, -, h⟩ := Option.bind_eq_some_iff.mp h
      have hone := Search.propose_grows { s with
        optimizer := fitted, drawn := s.drawn + fitted.config.lbfgsRestarts } objective bestX
      split at h
      · cases h
        exact hfitted
      · split at h
        · next e s' hs' =>
          cases h
          rw [hs'] at hone
          exact hfitted.trans hone
        · next s' hs' =>
          rw [hs'] at hone
          exact (hfitted.trans hone).trans (ih h)

theorem optimize_grows {out : Result (OptimizationPoint F) × Search F}
    (h : opt.optimize objective draws = some out) : Search.Grows ⟨opt, [], 0⟩ out.2 := by
  have hinit := initialPoints_grows objective draws
    (opt.config.initialRandomPoints - opt.observations.length) ⟨opt, [], 0⟩
  unfold optimize at h
  dsimp only at h
  split at h
  · cases h
    exact .refl _
  · split at h
    · next e s hs =>
      cases h
      rw [hs] at hinit
      exact hinit
    · next s hs =>
      rw [hs] at hinit
      obtain ⟨⟨result, s'⟩, hiter, rfl⟩ := Option.map_eq_some_iff.mp h
      cases result with
      | ok => exact hinit.trans (iterate_grows hiter)
      | error => exact hinit.trans (iterate_grows hiter)

end Grows

/-! ### What a call proposes -/

section Proposals

/-- Sampled and clamped points satisfy `P`, and what satisfies `P` is a point of the space. -/
structure Proposable (space : TuningSpace F) (draws : Draws F) (P : List F → Prop) : Prop where
  length : ∀ x, P x → x.length = space.dimension
  clamp : ∀ x : List F, x.length = space.dimension → P (space.clampToBounds x)
  sample : ∀ k, P (space.randomFeasiblePoint (draws k))

/-- What is stored and what has been evaluated satisfies `P`. -/
structure Search.All (P : List F → Prop) (s : Search F) : Prop where
  observations : ∀ obs ∈ s.optimizer.observations, P obs.params
  evaluated : ∀ x ∈ s.evaluated, P x

variable {opt} {P : List F → Prop} {draws : Draws F}

omit [One F] [Neg F] [NatCast F] [LE F] [DecidableLE F] in
theorem hasDimension_of_proposable (h : Proposable opt.space draws P)
    (hobs : ∀ obs ∈ opt.observations, P obs.params) : opt.HasDimension opt.space.dimension :=
  fun obs hmem => h.length _ (hobs obs hmem)

theorem returns_lineSearch (h : Proposable opt.space draws P)
    (hdim : opt.HasDimension opt.space.dimension) (x d : List F) (eiX gradDotD : F) (fuel : ℕ)
    (step : F) : Returns (opt.lineSearch x d eiX gradDotD fuel step) P := by
  induction fuel generalizing step with
  | zero =>
    have hP := h.clamp (vec opt.space.dimension fun j => x.getD j 0 + step * d.getD j 0)
      (length_vec _ _)
    refine (returns_computeEI hdim (h.length _ hP)).bind fun eiNew _ => ?_
    exact .ite (fun _ => .some hP) fun _ => .some hP
  | succ fuel ih =>
    have hP := h.clamp (vec opt.space.dimension fun j => x.getD j 0 + step * d.getD j 0)
      (length_vec _ _)
    refine (returns_computeEI hdim (h.length _ hP)).bind fun eiNew _ => ?_
    refine .ite (fun _ => .some hP) fun _ => ?_
    exact .ite (fun _ => ih _) fun _ => .some hP

theorem returns_ascend (h : Proposable opt.space draws P)
    (hdim : opt.HasDimension opt.space.dimension) {a : Ascent F} (ha : P a.x) :
    Returns (opt.ascend a) fun a' => P a'.x := by
  refine (returns_computeEI hdim (h.length _ ha)).bind fun eiX _ => ?_
  refine (returns_lineSearch h hdim _ _ _ _ _ _).bind fun xNew hxNew => ?_
  exact (returns_computeEIGradient hdim (h.length _ hxNew)).map fun _ _ => hxNew

theorem returns_ascendLoop (h : Proposable opt.space draws P)
    (hdim : opt.HasDimension opt.space.dimension) (iters : ℕ) {a : Ascent F} (ha : P a.x) :
    Returns (opt.ascendLoop iters a) P := by
  induction iters generalizing a with
  | zero => exact .some ha
  | succ iters ih =>
    refine .ite (fun _ => .some ha) fun _ => ?_
    exact (returns_ascend h hdim ha).bind fun a' ha' => ih ha'

theorem returns_restart (h : Proposable opt.space draws P)
    (hdim : opt.HasDimension opt.space.dimension) (k : ℕ) :
    Returns (opt.restart (draws k)) P := by
  refine (returns_computeEIGradient hdim (h.length _ (h.sample k))).bind fun grad _ => ?_
  exact returns_ascendLoop h hdim _ (h.sample k)

/-- The maximiser is a proposable point, if there is one. -/
theorem returns_lbfgsbMaximize (h : Proposable opt.space draws P)
    (hdim : opt.HasDimension opt.space.dimension) :
    Returns (opt.lbfgsbMaximize draws) fun x => x = [] ∨ P x := by
  refine Returns.map (Q := fun best => best.1 = [] ∨ P best.1) ?_ fun _ hbest => hbest
  refine Returns.foldlM (.inl rfl) fun best k _ hbest => ?_
  refine (returns_restart h hdim k).bind fun x hx => ?_
  refine (returns_computeEI hdim (h.length _ hx)).map fun eiFinal _ => ?_
  split
  · exact .inr hx
  · exact hbest

variable {objective : TuningObjective F} {s : Search F}

omit [One F] [Neg F] [NatCast F] [LE F] [DecidableLE F] in
theorem Proposable.shift {space : TuningSpace F} (h : Proposable space draws P) (n : ℕ) :
    Proposable space (fun k => draws (n + k)) P :=
  ⟨h.length, h.clamp, fun k => h.sample (n + k)⟩

omit [Zero F] [One F] [Add F] [Sub F] [Neg F] [Mul F] [Div F] [NatCast F] [LT F] [DecidableLT F]
  [LE F] [DecidableLE F] [TuningMath F] in
theorem Search.All.propose (h : s.All P) (objective : TuningObjective F) {x : List F} (hx : P x) :
    (s.propose objective x).2.All P := by
  have hevaluated : ∀ y ∈ s.evaluated ++ [x], P y := by
    intro y hy
    rcases List.mem_append.mp hy with hy | hy
    · exact h.evaluated y hy
    · exact List.mem_singleton.mp hy ▸ hx
  unfold Search.propose
  split
  · exact ⟨h.observations, hevaluated⟩
  · refine ⟨fun obs hobs => ?_, hevaluated⟩
    rcases List.mem_append.mp hobs with hobs | hobs
    · exact h.observations obs hobs
    · rw [List.mem_singleton.mp hobs]
      exact hx

omit [One F] [Neg F] [NatCast F] [LE F] [DecidableLE F] in
theorem Search.All.initialPoints (objective : TuningObjective F) (missing : ℕ)
    (hP : Proposable s.optimizer.space draws P) (h : s.All P) : (initialPoints objective draws missing s).2.All P := by
  induction missing generalizing s with
  | zero => exact h
  | succ missing ih =>
    have hstep : Search.All P { s with drawn := s.drawn + 1 } := ⟨h.observations, h.evaluated⟩
    have hone := hstep.propose objective (hP.sample s.drawn)
    have hgrows := Search.propose_grows { s with drawn := s.drawn + 1 } objective
      (s.optimizer.space.randomFeasiblePoint (draws s.drawn))
    simp only [BayesianOptimizer.initialPoints]
    split
    · next e s' hs' =>
      rw [hs'] at hone
      exact hone
    · next s' hs' =>
      rw [hs'] at hone hgrows
      exact ih (hgrows.space ▸ hP) hone

theorem returns_iterate (objective : TuningObjective F) (iters stagnation : ℕ)
    (hP : Proposable s.optimizer.space draws P) (h : s.All P) :
    Returns (iterate objective draws iters stagnation s) fun out => out.2.All P := by
  induction iters generalizing stagnation s with
  | zero => exact .some h
  | succ iters ih =>
    have hdim := hasDimension_of_proposable hP h.observations
    obtain ⟨fitted, hfit, -⟩ := returns_fitHyperparameters hdim
    obtain ⟨hspace, hconfig, hobs⟩ := fitHyperparameters_frame hfit
    rw [← hspace] at hP
    have hfitted : Search.All P { s with
        optimizer := fitted, drawn := s.drawn + fitted.config.lbfgsRestarts } :=
      ⟨hobs ▸ h.observations, h.evaluated⟩
    have hdim := hasDimension_of_proposable hP hfitted.observations
    simp only [iterate, hfit, Option.bind_some]
    refine (returns_lbfgsbMaximize (hP.shift s.drawn) hdim).bind fun bestX hbestX => ?_
    refine .ite (fun _ => .some hfitted) fun hne => ?_
    have hx : P bestX := hbestX.resolve_left fun hnil => hne (List.isEmpty_iff.mpr hnil)
    refine (returns_computeEI hdim (hP.length _ hx)).bind fun eiMax _ => ?_
    refine .ite (fun _ => .some hfitted) fun _ => ?_
    have hone := hfitted.propose objective hx
    have hgrows := Search.propose_grows { s with
      optimizer := fitted, drawn := s.drawn + fitted.config.lbfgsRestarts } objective bestX
    split
    · next e s' hs' =>
      rw [hs'] at hone
      exact .some hone
    · next s' hs' =>
      rw [hs'] at hone hgrows
      exact ih _ (hgrows.space ▸ hP) hone

omit [One F] [Neg F] [NatCast F] [LE F] [DecidableLE F] in
/-- The loop over the initial points stores each point whose evaluation succeeds. -/
theorem initialPoints_ne_nil {missing : ℕ} {s' : Search F} (hmissing : 0 < missing)
    (h : initialPoints objective draws missing s = (.ok (), s')) :
    s'.optimizer.observations ≠ [] := by
  obtain ⟨missing, rfl⟩ := Nat.exists_eq_succ_of_ne_zero hmissing.ne'
  simp only [initialPoints] at h
  split at h
  · cases h
  · next s₁ hs₁ =>
    have hstored : s₁.optimizer.observations ≠ [] := by
      unfold Search.propose at hs₁
      split at hs₁
      · cases hs₁
      · cases hs₁
        simp [addObservation]
    have hgrows := initialPoints_grows objective draws missing s₁
    rw [h] at hgrows
    exact fun hnil => hstored (List.prefix_nil.mp (hnil ▸ hgrows.observations))

/-- A call of `Optimize` is defined and proposes only proposable points; so is the point it
returns, if there is an observation it can return. -/
theorem returns_optimize (objective : TuningObjective F) (hP : Proposable opt.space draws P)
    (hobs : ∀ obs ∈ opt.observations, P obs.params) :
    Returns (opt.optimize objective draws) fun out => out.2.All P ∧
      ∀ best, out.1 = .ok best → opt.observations ≠ [] ∨ 0 < opt.config.initialRandomPoints →
        P best.params := by
  have hstart : Search.All P (⟨opt, [], 0⟩ : Search F) := ⟨hobs, by simp⟩
  have hinit := hstart.initialPoints objective
    (opt.config.initialRandomPoints - opt.observations.length) hP
  have hgrows := initialPoints_grows objective draws
    (opt.config.initialRandomPoints - opt.observations.length) ⟨opt, [], 0⟩
  have herror : ∀ (e : ErrorInfo) (s : Search F), s.All P → s.All P ∧
      ∀ best, (.error e : Result (OptimizationPoint F)) = .ok best → opt.observations ≠ [] ∨
        0 < opt.config.initialRandomPoints → P best.params :=
    fun e s hs => ⟨hs, fun best hbest => nomatch hbest⟩
  refine .ite (fun _ => .some (herror _ _ hstart)) fun _ => ?_
  split
  · next e s hs =>
    rw [hs] at hinit
    exact .some (herror e s hinit)
  · next s hs =>
    rw [hs] at hinit hgrows
    obtain ⟨⟨result, s'⟩, hiter, hall⟩ := returns_iterate objective
      opt.config.maxIterations 0 (hgrows.space ▸ hP) hinit
    refine ⟨_, by rw [hiter]; rfl, ?_⟩
    cases result with
    | error e => exact herror e s' hall
    | ok _ =>
      refine ⟨hall, fun best hbest hsome => ?_⟩
      cases hbest
      have hstored : s.optimizer.observations ≠ [] := by
        intro hnil
        have hold : opt.observations = [] := List.prefix_nil.mp (hnil ▸ hgrows.observations)
        have hpos := hsome.resolve_left (not_not_intro hold)
        exact initialPoints_ne_nil (by rw [hold]; exact hpos) hs hnil
      have hkept : s'.optimizer.observations ≠ [] := fun hnil =>
        hstored (List.prefix_nil.mp (hnil ▸ (iterate_grows hiter).observations))
      exact hall.observations _ (bestPoint_mem _ hkept)

end Proposals

end BayesianOptimizer

end SurfaceAi.Tuning
