import SurfaceAi.Library.Returns
import SurfaceAi.Tuning.TuningSpace

/-! The surrogate of the optimiser: the kernel, its factorisation, the prediction, expected
improvement and the fit of the kernel parameters. A computation is undefined when `SqDistance`
reads past the end of its second argument. The cached factorisation is that of the current
observations and parameters, and is computed where it is read. -/

namespace SurfaceAi.Tuning

open Detection (ratio stdAbs)

structure OptimizerConfig (F : Type*) where
  maxIterations : ℕ
  initialRandomPoints : ℕ
  noiseLevel : F
  kernelSigma2 : F
  kernelLength : F
  jitter : F
  lbfgsRestarts : ℕ
  lbfgsMaxIters : ℕ
  lbfgsGradTol : F
  eiTol : F
  eiStagnationIters : ℕ
  deriving DecidableEq

structure OptimizationPoint (F : Type*) where
  params : List F
  cost : F
  deriving DecidableEq

structure BayesianOptimizer (F : Type*) where
  space : TuningSpace F
  config : OptimizerConfig F
  observations : List (OptimizationPoint F)
  sigma2 : F
  length : F
  deriving DecidableEq

/-- The sum goes on from `sum`. -/
def sqDistanceFrom {F : Type*} [Add F] [Sub F] [Mul F] (sum : F) : List F → List F → Option F
  | [], _ => some sum
  | _ :: _, [] => none
  | x :: xs, y :: ys => sqDistanceFrom (sum + (x - y) * (x - y)) xs ys

/-- Only the length of the second argument decides whether the distance is defined. -/
theorem returns_sqDistanceFrom {F : Type*} [Add F] [Sub F] [Mul F] {sum : F} {a b : List F} :
    Returns (sqDistanceFrom sum a b) (fun _ => True) ↔ a.length ≤ b.length := by
  induction a generalizing sum b with
  | nil => exact ⟨fun _ => Nat.zero_le _, fun _ => .some trivial⟩
  | cons x a ih =>
    cases b with
    | nil =>
      constructor
      · rintro ⟨_, hnone, -⟩
        cases hnone
      · intro h
        simp at h
    | cons y b =>
      rw [List.length_cons, List.length_cons, Nat.add_le_add_iff_right]
      exact ih

section Linear

variable {F : Type*} [Zero F] [Add F] [Sub F] [Mul F] [Div F]

def entry (m : List (List F)) (i j : ℕ) : F := (m.getD i []).getD j 0

/-- The part of a symmetric matrix up to its diagonal; `lift` is what is added there. -/
def kernelMatrix (kernel : List F → List F → Option F) (lift : F → F) (points : List (List F)) :
    Option (List (List F)) :=
  (List.range points.length).mapM fun i =>
    (List.range (i + 1)).mapM fun j =>
      (kernel (points.getD i []) (points.getD j [])).map fun v => if i = j then lift v else v

variable [LE F] [DecidableLE F] [FloatMath F]

/-- Row `i` of the factor below the rows before it; nothing if a pivot is not positive. -/
def choleskyRow (K L : List (List F)) (i : ℕ) : Option (List F) :=
  (List.range (i + 1)).foldlM (fun row j =>
    let sum := (List.range j).foldl
      (fun sum k => sum - entry (L ++ [row]) i k * entry (L ++ [row]) j k) (entry K i j)
    if i = j then if sum ≤ 0 then none else some (row ++ [FloatMath.sqrt sum])
    else some (row ++ [sum / entry L j j])) []

def choleskyDecompose (K : List (List F)) : Option (List (List F)) :=
  (List.range K.length).foldlM (fun L i => (choleskyRow K L i).map fun row => L ++ [row]) []

/-- Forward substitution, then backward substitution. -/
def solveCholesky (L : List (List F)) (b : List F) : List F :=
  let y := (List.range L.length).foldl (fun x i =>
    x ++ [((List.range i).foldl (fun sum j => sum - entry L i j * x.getD j 0) (b.getD i 0)) /
      entry L i i]) []
  (List.range L.length).foldr (fun i x =>
    ((List.range x.length).foldl (fun sum j => sum - entry L (i + 1 + j) i * x.getD j 0)
      (y.getD i 0)) / entry L i i :: x) []

end Linear

namespace BayesianOptimizer

section Observations

variable {F : Type*} (opt : BayesianOptimizer F)

def create (space : TuningSpace F) (config : OptimizerConfig F) : BayesianOptimizer F :=
  ⟨space, config, [], config.kernelSigma2, config.kernelLength⟩

def addObservation (point : OptimizationPoint F) : BayesianOptimizer F :=
  { opt with observations := opt.observations ++ [point] }

/-- All observations have `d` parameters. -/
def HasDimension (d : ℕ) : Prop := ∀ obs ∈ opt.observations, obs.params.length = d

theorem hasDimension_create (space : TuningSpace F) (config : OptimizerConfig F) (d : ℕ) :
    (create space config).HasDimension d := by
  intro obs hobs
  cases hobs

variable {opt} in
theorem HasDimension.length_eq {d : ℕ} (h : opt.HasDimension d) {x : List F}
    (hx : x ∈ opt.observations.map OptimizationPoint.params) : x.length = d := by
  obtain ⟨obs, hobs, rfl⟩ := List.mem_map.mp hx
  exact h obs hobs

/-- The first observation of least cost; an empty point if there is none. -/
def bestPoint [Zero F] [LT F] [DecidableLT F] : OptimizationPoint F :=
  match opt.observations with
  | [] => ⟨[], 0⟩
  | first :: rest => rest.foldl (fun best obs => if obs.cost < best.cost then obs else best) first

theorem bestPoint_mem [Zero F] [LT F] [DecidableLT F] (h : opt.observations ≠ []) :
    opt.bestPoint ∈ opt.observations := by
  unfold bestPoint
  match hobs : opt.observations with
  | [] => exact absurd hobs h
  | first :: rest =>
    have hfold : ∀ (l : List (OptimizationPoint F)) (best : OptimizationPoint F),
        l.foldl (fun best obs => if obs.cost < best.cost then obs else best) best ∈ best :: l := by
      intro l
      induction l with
      | nil => simp
      | cons obs l ih =>
        intro best
        rw [List.foldl_cons]
        split
        · exact List.mem_cons_of_mem _ (ih obs)
        · have hmem := ih best
          simp only [List.mem_cons] at hmem ⊢
          tauto
    exact hfold rest first

end Observations

variable {F : Type*} [Zero F] [One F] [Add F] [Sub F] [Neg F] [Mul F] [Div F] [NatCast F]
variable [LT F] [DecidableLT F] [LE F] [DecidableLE F] [TuningMath F]
variable (opt : BayesianOptimizer F)

def rbfKernel (x y : List F) : Option F :=
  (sqDistanceFrom 0 x y).map fun r =>
    opt.sigma2 * FloatMath.exp (-r / (ratio 2 1 * opt.length * opt.length))

def buildKernelMatrix (jitter : F) : Option (List (List F)) :=
  kernelMatrix opt.rbfKernel (fun v => v + opt.config.noiseLevel + jitter)
    (opt.observations.map OptimizationPoint.params)

/-- The jitters tried in turn. -/
def jitters : List F :=
  let tenfold : F → F := fun j => j * ratio 10 1
  (List.range 5).map (fun n => tenfold^[n] opt.config.jitter) ++ [tenfold^[6] opt.config.jitter]

/-- `EnsureCache`: the factor and the weights of the first jitter that makes the matrix
positive. -/
def factorise : List F → Option (Option (List (List F) × List F))
  | [] => some none
  | jitter :: rest =>
    (opt.buildKernelMatrix jitter).bind fun K =>
      match choleskyDecompose K with
      | some L => some (some (L, solveCholesky L (opt.observations.map OptimizationPoint.cost)))
      | none => factorise rest

/-- Mean and variance. -/
def predict (point : List F) : Option (F × F) :=
  if opt.observations.isEmpty then some (0, opt.sigma2)
  else
    (opt.factorise opt.jitters).bind fun
      | none => some (0, opt.sigma2)
      | some (L, alpha) =>
        (opt.observations.mapM fun obs => opt.rbfKernel point obs.params).map fun kstar =>
          let beta := solveCholesky L kstar
          let mean := accumulate (List.zipWith (· * ·) kstar alpha)
          let variance := (List.zipWith (· * ·) kstar beta).foldl (· - ·) opt.sigma2
          (mean, stdMax variance 0)

def normalCDF (x : F) : F :=
  ratio 1 2 * (1 + TuningMath.erf (x / TuningMath.sqrt2))

def normalPDF (x : F) : F :=
  FloatMath.exp (-(ratio 1 2) * x * x) / FloatMath.sqrt (ratio 2 1 * TuningMath.pi)

def computeEI (point : List F) : Option F :=
  if opt.observations.isEmpty then some 1
  else
    (opt.predict point).map fun (mean, variance) =>
      let sigma := FloatMath.sqrt variance
      let improvement := opt.bestPoint.cost - mean
      if sigma < ratio 1 (10 ^ 12) then 0
      else improvement * normalCDF (improvement / sigma) + sigma * normalPDF (improvement / sigma)

/-- Central differences between clamped points. -/
def computeEIGradient (point : List F) : Option (List F) :=
  let h : F := ratio 1 (10 ^ 6)
  (List.range point.length).mapM fun i =>
    (opt.computeEI (opt.space.clampToBounds (point.set i (point.getD i 0 + h)))).bind fun plus =>
      (opt.computeEI (opt.space.clampToBounds (point.set i (point.getD i 0 - h)))).map fun minus =>
        (plus - minus) / (ratio 2 1 * h)

/-! ### Kernel parameters -/

def computeLogMarginalLikelihood (logSigma2 logLength : F) : Option F :=
  if opt.observations.isEmpty then some 0
  else
    let s2 : F := FloatMath.exp logSigma2
    let l : F := FloatMath.exp logLength
    let kernel := fun x y => (sqDistanceFrom 0 x y).map fun r =>
      s2 * FloatMath.exp (-r / (ratio 2 1 * l * l))
    let costs := opt.observations.map OptimizationPoint.cost
    (kernelMatrix kernel (fun v => v + (opt.config.noiseLevel + opt.config.jitter))
      (opt.observations.map OptimizationPoint.params)).map fun K =>
        match choleskyDecompose K with
        | none => -(ratio (10 ^ 10) 1)
        | some L =>
          let alpha := solveCholesky L costs
          let logDet := accumulate ((List.range L.length).map fun i => TuningMath.log (entry L i i))
          (-(ratio 1 2)) * dot costs alpha - logDet -
            ratio 1 2 * (opt.observations.length : F) * TuningMath.log (ratio 2 1 * TuningMath.pi)

/-- The backtracking of the ascent; a step of one is halved no more than 27 times. -/
def fitLineSearch (a b gradA gradB prevLml : F) : ℕ → F → Option (F × F)
  | 0, _ => some (a, b)
  | fuel + 1, step =>
    if ratio 1 (10 ^ 8) < step then
      (opt.computeLogMarginalLikelihood (a + step * gradA) (b + step * gradB)).bind fun newLml =>
        if prevLml + ratio 1 (10 ^ 4) * step * (gradA * gradA + gradB * gradB) < newLml then
          some (a + step * gradA, b + step * gradB)
        else fitLineSearch a b gradA gradB prevLml fuel (step * ratio 1 2)
    else some (a, b)

def fitLoop : ℕ → F → F → F → Option (F × F)
  | 0, a, b, _ => some (a, b)
  | iters + 1, a, b, prevLml =>
    let h : F := ratio 1 (10 ^ 4)
    (opt.computeLogMarginalLikelihood (a + h) b).bind fun lmlAp =>
    (opt.computeLogMarginalLikelihood (a - h) b).bind fun lmlAm =>
    (opt.computeLogMarginalLikelihood a (b + h)).bind fun lmlBp =>
    (opt.computeLogMarginalLikelihood a (b - h)).bind fun lmlBm =>
    (opt.fitLineSearch a b ((lmlAp - lmlAm) / (ratio 2 1 * h)) ((lmlBp - lmlBm) / (ratio 2 1 * h))
      prevLml 64 1).bind fun (a, b) =>
    (opt.computeLogMarginalLikelihood a b).bind fun curLml =>
      if stdAbs (curLml - prevLml) < ratio 1 (10 ^ 4) then some (a, b)
      else fitLoop iters a b curLml

def fitHyperparameters : Option (BayesianOptimizer F) :=
  if opt.observations.length < 2 then some opt
  else
    let a : F := TuningMath.log opt.sigma2
    let b : F := TuningMath.log opt.length
    (opt.computeLogMarginalLikelihood a b).bind fun prevLml =>
      (opt.fitLoop 50 a b prevLml).map fun (a, b) =>
        { opt with sigma2 := FloatMath.exp a, length := FloatMath.exp b }

/-! ### Definedness

Every computation is defined when all observations have one length, and the points it is asked
about have that length too. -/

section Defined

theorem returns_kernelMatrix {F : Type*} {kernel : List F → List F → Option F} {lift : F → F}
    {points : List (List F)}
    (h : ∀ x ∈ points, ∀ y ∈ points, Returns (kernel x y) fun _ => True) :
    Returns (kernelMatrix kernel lift points) fun _ => True := by
  refine (Returns.mapM fun i hi => ?_).mono fun _ _ => trivial
  refine (Returns.mapM fun j hj => ?_).mono fun _ _ => trivial
  rw [List.mem_range] at hi hj
  have hmem : ∀ k < points.length, points.getD k [] ∈ points := by
    intro k hk
    rw [List.getD_eq_getElem?_getD, List.getElem?_eq_getElem hk]
    exact List.getElem_mem hk
  exact (h _ (hmem i hi) _ (hmem j (by omega))).map fun _ _ => trivial

variable {opt} {d : ℕ} {point : List F}

omit [One F] [LT F] [DecidableLT F] [LE F] [DecidableLE F] in
theorem returns_rbfKernel {x y : List F} (h : x.length = y.length) :
    Returns (opt.rbfKernel x y) fun _ => True :=
  (returns_sqDistanceFrom.mpr h.le).map fun _ _ => trivial

omit [One F] [LT F] [DecidableLT F] in
theorem returns_factorise (h : opt.HasDimension d) (js : List F) :
    Returns (opt.factorise js) fun _ => True := by
  induction js with
  | nil => exact .some trivial
  | cons jitter rest ih =>
    have hK : Returns (opt.buildKernelMatrix jitter) fun _ => True :=
      returns_kernelMatrix fun x hx y hy =>
        returns_rbfKernel ((h.length_eq hx).trans (h.length_eq hy).symm)
    refine hK.bind fun K _ => ?_
    split
    · exact .some trivial
    · exact ih

omit [One F] in
theorem returns_predict (h : opt.HasDimension d) (hpoint : point.length = d) :
    Returns (opt.predict point) fun _ => True := by
  refine .ite (fun _ => .some trivial) fun _ => ?_
  refine (returns_factorise h _).bind fun posterior _ => ?_
  cases posterior with
  | none => exact .some trivial
  | some posterior =>
    have hstar : Returns (opt.observations.mapM fun obs => opt.rbfKernel point obs.params)
        fun ks => ks.length = opt.observations.length :=
      Returns.mapM fun obs hobs => returns_rbfKernel (hpoint.trans (h obs hobs).symm)
    exact hstar.map fun _ _ => trivial

theorem returns_computeEI (h : opt.HasDimension d) (hpoint : point.length = d) :
    Returns (opt.computeEI point) fun _ => True :=
  .ite (fun _ => .some trivial) fun _ => (returns_predict h hpoint).map fun _ _ => trivial

theorem returns_computeEIGradient (h : opt.HasDimension opt.space.dimension)
    (hpoint : point.length = opt.space.dimension) :
    Returns (opt.computeEIGradient point) fun grad => grad.length = point.length := by
  have hEI : ∀ i v, Returns (opt.computeEI (opt.space.clampToBounds (point.set i v)))
      fun _ => True := by
    intro i v
    apply returns_computeEI h
    rw [TuningSpace.length_clampToBounds (by rw [List.length_set, hpoint])]
  refine (Returns.mapM fun i _ => ?_).mono fun grad hgrad => hgrad.trans List.length_range
  exact (hEI i _).bind fun _ _ => (hEI i _).map fun _ _ => trivial

omit [One F] [LT F] [DecidableLT F] in
theorem returns_computeLogMarginalLikelihood (h : opt.HasDimension d) (a b : F) :
    Returns (opt.computeLogMarginalLikelihood a b) fun _ => True := by
  refine .ite (fun _ => .some trivial) fun _ => ?_
  refine Returns.map (returns_kernelMatrix fun x hx y hy => ?_) fun _ _ => trivial
  have hxy : x.length = y.length := (h.length_eq hx).trans (h.length_eq hy).symm
  exact (returns_sqDistanceFrom.mpr hxy.le).map fun _ _ => trivial

omit [One F] in
theorem returns_fitLineSearch (h : opt.HasDimension d) (a b gradA gradB prevLml : F) (fuel : ℕ)
    (step : F) :
    Returns (opt.fitLineSearch a b gradA gradB prevLml fuel step) fun _ => True := by
  induction fuel generalizing step with
  | zero => exact .some trivial
  | succ fuel ih =>
    refine .ite (fun _ => ?_) fun _ => .some trivial
    refine (returns_computeLogMarginalLikelihood h _ _).bind fun newLml _ => ?_
    exact .ite (fun _ => .some trivial) fun _ => ih _

theorem returns_fitLoop (h : opt.HasDimension d) (iters : ℕ) (a b prevLml : F) :
    Returns (opt.fitLoop iters a b prevLml) fun _ => True := by
  have hlml := returns_computeLogMarginalLikelihood h
  induction iters generalizing a b prevLml with
  | zero => exact .some trivial
  | succ iters ih =>
    refine (hlml _ _).bind fun _ _ => (hlml _ _).bind fun _ _ => (hlml _ _).bind fun _ _ =>
      (hlml _ _).bind fun _ _ => ?_
    refine (returns_fitLineSearch h _ _ _ _ _ _ _).bind fun ab _ => ?_
    refine (hlml _ _).bind fun curLml _ => ?_
    exact .ite (fun _ => .some trivial) fun _ => ih _ _ _

theorem returns_fitHyperparameters (h : opt.HasDimension d) :
    Returns opt.fitHyperparameters fun _ => True := by
  refine .ite (fun _ => .some trivial) fun _ => ?_
  refine (returns_computeLogMarginalLikelihood h _ _).bind fun prevLml _ => ?_
  exact (returns_fitLoop h _ _ _ _).map fun ab _ => trivial

/-- The fit changes the kernel parameters only. -/
theorem fitHyperparameters_frame {fitted : BayesianOptimizer F}
    (h : opt.fitHyperparameters = some fitted) :
    fitted.space = opt.space ∧ fitted.config = opt.config ∧
      fitted.observations = opt.observations := by
  unfold fitHyperparameters at h
  split at h
  · cases h
    exact ⟨rfl, rfl, rfl⟩
  · simp only [Option.bind_eq_some_iff, Option.map_eq_some_iff] at h
    obtain ⟨-, -, -, -, rfl⟩ := h
    exact ⟨rfl, rfl, rfl⟩

end Defined

end BayesianOptimizer

end SurfaceAi.Tuning
