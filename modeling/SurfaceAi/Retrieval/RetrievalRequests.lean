import Std.Data.String.ToNat
import SurfaceAi.Retrieval.VectorPath

/-! Sequences of retrievals by one fact builder. A call asks for at most `k` results and perhaps for
some ids only; its results come from the search or from the cache, which remembers the last query
that was searched and nothing of what was asked for. -/

namespace SurfaceAi.Retrieval

open Rules FactBuilder

/-! ### Facts of a retrieval -/

section Facts

variable {F D : Type} [Doubles D] [FloatCasts F D]

/-- The key of the index at a rank. -/
def indexKey (rank : ℕ) : String := "retrieval.top" ++ toString rank ++ ".index"

theorem indexKey_inj {i j : ℕ} (h : indexKey i = indexKey j) : i = j :=
  Nat.repr_injective ((String.append_right_inj _).mp ((String.append_left_inj _).mp h))

theorem indexKey_ne_distance (i j : ℕ) :
    indexKey i ≠ "retrieval.top" ++ toString j ++ ".distance" := by
  intro h
  have hlast := congrArg (fun s : String => s.toList.getLast?) h
  simp [indexKey, String.toList_append, List.getLast?_cons, List.getLast?_append] at hlast

theorem count_ne_top (i : ℕ) (field : String) :
    "retrieval.count" ≠ "retrieval.top" ++ toString i ++ field := by
  intro h
  have hchar := congrArg (fun s : String => s.toList[10]?) h
  simp [String.toList_append] at hchar

theorem get_writeResult_self (fb : FactBase D) (r : VectorResult F) (rank : ℕ) :
    (FactBuilder.writeResult fb r rank).get (indexKey rank) = some (.ofNat r.index) := by
  rw [FactBuilder.writeResult, FactBase.get_set_ne _ (indexKey_ne_distance rank rank)]
  exact FactBase.get_set_self _ _ _ _

theorem get_writeResult_of_ne (fb : FactBase D) (r : VectorResult F) {rank rank' : ℕ}
    (h : rank' ≠ rank) :
    (FactBuilder.writeResult fb r rank).get (indexKey rank') = fb.get (indexKey rank') := by
  rw [FactBuilder.writeResult, FactBase.get_set_ne _ (indexKey_ne_distance rank' rank)]
  exact FactBase.get_set_ne _ (fun hkey => h (indexKey_inj hkey)) _ _

/-- The loop over the results from the rank `start` on. -/
abbrev writeFrom (start : ℕ) (results : List (VectorResult F)) (fb : FactBase D) : FactBase D :=
  (results.zipIdx start).foldl (fun fb r => FactBuilder.writeResult fb r.1 r.2) fb

theorem get_writeFrom_of_lt (results : List (VectorResult F)) (fb : FactBase D)
    {start rank : ℕ} (h : rank < start) :
    (writeFrom start results fb).get (indexKey rank) = fb.get (indexKey rank) := by
  induction results generalizing start fb with
  | nil => rfl
  | cons r results ih =>
    rw [writeFrom, List.zipIdx_cons, List.foldl_cons]
    exact (ih _ (Nat.lt_succ_of_lt h)).trans (get_writeResult_of_ne fb r h.ne)

theorem get_writeFrom {results : List (VectorResult F)} (fb : FactBase D) (start : ℕ) {i : ℕ}
    {r : VectorResult F} (h : results[i]? = some r) :
    (writeFrom start results fb).get (indexKey (start + i)) = some (.ofNat r.index) := by
  induction results generalizing start fb i with
  | nil => cases h
  | cons head results ih =>
    rw [writeFrom, List.zipIdx_cons, List.foldl_cons]
    cases i with
    | zero =>
      obtain rfl : head = r := by simpa using h
      exact (get_writeFrom_of_lt results _ (Nat.lt_succ_self start)).trans
        (get_writeResult_self fb head start)
    | succ i =>
      rw [show start + (i + 1) = start + 1 + i by omega]
      exact ih (FactBuilder.writeResult fb head start) (start + 1) (by simpa using h)

theorem get_writeFrom_count (results : List (VectorResult F)) (fb : FactBase D) (start : ℕ) :
    (writeFrom start results fb).get "retrieval.count" = fb.get "retrieval.count" := by
  induction results generalizing start fb with
  | nil => rfl
  | cons r results ih =>
    rw [writeFrom, List.zipIdx_cons, List.foldl_cons]
    refine (ih _ (start + 1)).trans ?_
    rw [FactBuilder.writeResult, FactBase.get_set_ne _ (count_ne_top start ".distance"),
      FactBase.get_set_ne _ (count_ne_top start ".index")]

end Facts

/-! ### Requests -/

section Requests

variable {F D : Type}

/-- At most `k` results, all of them in the subset if there is one. -/
def Fits (cfg : SearchConfig) (results : List (VectorResult F)) : Prop :=
  results.length ≤ cfg.k ∧ (cfg.idSubset ≠ [] → ∀ r ∈ results, r.index ∈ cfg.idSubset)

variable [Doubles D]

/-- The facts report at most `k` results, each with an index of the subset if there is one. -/
def Reports (cfg : SearchConfig) (fb : FactBase D) : Prop :=
  ∃ n ≤ cfg.k, fb.get "retrieval.count" = some (.ofNat n) ∧
    (cfg.idSubset ≠ [] → ∀ rank, 1 ≤ rank → rank ≤ n →
      ∃ index ∈ cfg.idSubset, fb.get (indexKey rank) = some (.ofNat index))

variable [FloatCasts F D]

theorem Fits.reports {cfg : SearchConfig} {results : List (VectorResult F)} (h : Fits cfg results)
    (fb : FactBase D) (k : ℕ) :
    Reports cfg (FactBuilder.writeRetrievalResults fb results k) := by
  refine ⟨results.length, h.1, ?_, fun hsubset rank hpos hrank => ?_⟩
  · exact (get_writeFrom_count results _ 1).trans (FactBase.get_set_self _ _ _ _)
  · obtain ⟨i, rfl⟩ := Nat.exists_eq_add_of_le hpos
    have hi : i < results.length := by omega
    exact ⟨_, h.2 hsubset _ (List.getElem_mem hi), get_writeFrom _ 1 (List.getElem?_eq_getElem hi)⟩

/-- Numbers that stay apart as doubles. -/
def Exact (D : Type) [Doubles D] : Prop :=
  ∀ m n : ℕ, (Value.ofNat m : Value D) = .ofNat n → m = n

theorem Reports.fits (hexact : Exact D) {cfg : SearchConfig} {results : List (VectorResult F)}
    {fb : FactBase D} {k : ℕ} (h : Reports cfg (FactBuilder.writeRetrievalResults fb results k)) :
    Fits cfg results := by
  obtain ⟨n, hn, hcount, hindex⟩ := h
  have hwritten := (get_writeFrom_count results (fb.set "retrieval.count" (.ofNat results.length)
    ⟨.vectorSearch, "VectorPath TopK k=" ++ toString k⟩) 1).trans (FactBase.get_set_self _ _ _ _)
  obtain rfl := hexact _ _ (Option.some.inj (hcount.symm.trans hwritten))
  refine ⟨hn, fun hsubset r hr => ?_⟩
  obtain ⟨i, hi⟩ := List.mem_iff_getElem?.mp hr
  have hlt : i < results.length := (List.getElem?_eq_some_iff.mp hi).1
  obtain ⟨index, hmem, hget⟩ := hindex hsubset (1 + i) (by omega) (by omega)
  rw [← hexact _ _ (Option.some.inj (hget.symm.trans (get_writeFrom _ 1 hi)))]
  exact hmem

end Requests

/-! ### Calls -/

section Calls

variable {F D : Type} [One F]

/-- The search as the fact builder uses it. -/
def VectorPath.topK (path : VectorPath F) : Rules.VectorPath F := fun query cfg =>
  path.search query query.length ⟨.topK, cfg.k, 1, cfg.idSubset⟩

/-- A call to `RunVectorRetrieval`, with the epsilon that is in force and its own fact base. -/
structure Call (D : Type) where
  cacheEpsilon : D
  facts : FactBase D
  embeddingKey : String

variable [Doubles D] [FloatCasts F D]

/-- The builder as the call finds it. -/
def Call.ready (call : Call D) (builder : FactBuilder F D) : FactBuilder F D :=
  { builder with cacheEpsilon := call.cacheEpsilon }

def Call.run (call : Call D) (builder : FactBuilder F D) :
    Result Unit × FactBase D × FactBuilder F D :=
  (call.ready builder).runVectorRetrieval call.facts call.embeddingKey

/-- The calls of a sequence, each with the builder that the ones before it leave. -/
def steps : FactBuilder F D → List (Call D) → List (FactBuilder F D × Call D)
  | _, [] => []
  | builder, call :: calls => (builder, call) :: steps (call.run builder).2.2 calls

/-- A successful call reports what was asked for. -/
def Respected (builder : FactBuilder F D) (call : Call D) : Prop :=
  (call.run builder).1 = .ok () → Reports (searchConfig F call.facts) (call.run builder).2.1

/-- What the cache holds for a query that is close to the cached one fits the request; for another
query no subset is asked for, or the nearest vectors in the whole bank are all in it. -/
def Admitted (path : VectorPath F) (builder : FactBuilder F D) (call : Call D) : Prop :=
  ∀ query, queryVector call.facts call.embeddingKey = .ok query →
    match (call.ready builder).cachedResults query with
    | some cached => Fits (searchConfig F call.facts) cached
    | none => (searchConfig F call.facts).idSubset ≠ [] →
        ∀ results, path.topK query ⟨(searchConfig F call.facts).k, []⟩ = .ok results →
          ∀ r ∈ results, r.index ∈ (searchConfig F call.facts).idSubset

variable {path : VectorPath F} {builder : FactBuilder F D} {call : Call D}

omit [One F] in
theorem Call.vp_run (call : Call D) (builder : FactBuilder F D) :
    (call.run builder).2.2.vp = builder.vp := by
  rw [Call.run, runVectorRetrieval]
  split
  · rfl
  · split
    · rfl
    · dsimp only
      split
      · rfl
      · split <;> rfl

/-- The search of the builder is not restricted by the ids of the request. -/
theorem VectorPath.topK_eq (query : List F) (cfg : SearchConfig) :
    path.topK query cfg = path.topK query ⟨cfg.k, []⟩ := rfl

theorem VectorPath.length_topK_le {query : List F} {cfg : SearchConfig}
    {results : List (VectorResult F)} (h : path.topK query cfg = .ok results) :
    results.length ≤ cfg.k := by
  obtain ⟨index, -, rfl⟩ := VectorPath.search_eq_ok h
  exact VectorPath.length_topkSearch_le _

/-- A success writes the cached results or those of the search. -/
theorem Call.run_spec (call : Call D) (hpath : builder.vp = some path.topK) :
    (∃ e, (call.run builder).1 = .error e) ∧
        (∀ query, queryVector call.facts call.embeddingKey = .ok query →
          (call.ready builder).cachedResults query = none ∧
            ∃ e, path.topK query (searchConfig F call.facts) = .error e) ∨
      ∃ query results, queryVector call.facts call.embeddingKey = .ok query ∧
        (call.run builder).1 = .ok () ∧
        (call.run builder).2.1 =
          writeRetrievalResults call.facts results (searchConfig F call.facts).k ∧
        ((call.ready builder).cachedResults query = some results ∨
          (call.ready builder).cachedResults query = none ∧
            path.topK query (searchConfig F call.facts) = .ok results) := by
  have hready : (call.ready builder).vp = some path.topK := hpath
  rw [Call.run, runVectorRetrieval, hready]
  cases hquery : queryVector (F := F) call.facts call.embeddingKey with
  | error e => exact .inl ⟨⟨e, rfl⟩, fun query h => by cases h⟩
  | ok query =>
    dsimp only
    cases hcached : (call.ready builder).cachedResults query with
    | some cached => exact .inr ⟨query, cached, rfl, rfl, rfl, .inl hcached⟩
    | none =>
      cases hsearch : path.topK query (searchConfig F call.facts) with
      | error e =>
        refine .inl ⟨⟨e, rfl⟩, fun query' h => ?_⟩
        obtain rfl := Except.ok.inj h
        exact ⟨hcached, e, hsearch⟩
      | ok results => exact .inr ⟨query, results, rfl, rfl, rfl, .inr ⟨hcached, hsearch⟩⟩

/-- A call that is admitted reports what was asked for, from the cache or from the search. -/
theorem Admitted.respected (hpath : builder.vp = some path.topK) (h : Admitted path builder call) :
    Respected builder call := by
  intro hok
  rcases call.run_spec hpath with
    ⟨⟨e, he⟩, -⟩ | ⟨query, results, hquery, -, hfacts, hsource⟩
  · rw [hok] at he
    cases he
  · have hfits := h query hquery
    rw [hfacts]
    rcases hsource with hcached | ⟨hcached, hsearch⟩
    · rw [hcached] at hfits
      exact hfits.reports _ _
    · rw [hcached] at hfits
      have hfresh : Fits (searchConfig F call.facts) results :=
        ⟨VectorPath.length_topK_le hsearch, fun hsubset => hfits hsubset results hsearch⟩
      exact hfresh.reports _ _

/-- Where doubles keep numbers apart, only an admitted call does. -/
theorem Respected.admitted (hexact : Exact D) (hpath : builder.vp = some path.topK)
    (h : Respected builder call) : Admitted path builder call := by
  intro query hquery
  rcases call.run_spec hpath with
    ⟨-, hfails⟩ | ⟨query', results, hquery', hok, hfacts, hsource⟩
  · obtain ⟨hcached, e, hsearch⟩ := hfails query hquery
    rw [hcached]
    intro hsubset results hresults
    rw [VectorPath.topK_eq, hresults] at hsearch
    cases hsearch
  · obtain rfl := Except.ok.inj (hquery'.symm.trans hquery)
    have hreports := h hok
    rw [hfacts] at hreports
    have hfits := hreports.fits hexact
    rcases hsource with hcached | ⟨hcached, hsearch⟩
    · rw [hcached]
      exact hfits
    · rw [hcached]
      intro hsubset results' hresults
      rw [VectorPath.topK_eq, hresults] at hsearch
      obtain rfl := Except.ok.inj hsearch
      exact hfits.2 hsubset

/-- What every step does for a builder with the search does so all along a sequence of calls. -/
theorem steps_forall {P Q : FactBuilder F D → Call D → Prop}
    (hstep : ∀ builder call, builder.vp = some path.topK → P builder call → Q builder call)
    {calls : List (Call D)} (hpath : builder.vp = some path.topK)
    (h : ∀ step ∈ steps builder calls, P step.1 step.2) :
    ∀ step ∈ steps builder calls, Q step.1 step.2 := by
  induction calls generalizing builder with
  | nil => intro step hmem; cases hmem
  | cons call calls ih =>
    rw [steps, List.forall_mem_cons] at h ⊢
    exact ⟨hstep _ _ hpath h.1, ih ((call.vp_run builder).trans hpath) h.2⟩

/-- A builder that has not searched yet. -/
def freshBuilder (path : VectorPath F) (kg : Option (Knowledge.KnowledgeGraph D)) (epsilon : D) :
    FactBuilder F D :=
  ⟨kg, some path.topK, none, epsilon⟩

end Calls

/-! ### A cached result for a smaller request -/

/-- A call with the query 0, for the default number of results or for a given one. -/
def zeroQuery (k : Option ℚ) : Call ℚ :=
  let facts := FactBase.empty.set "query" (.list [.ofDouble 0]) ⟨.direct, ""⟩
  ⟨1 / 100, match k with
    | none => facts
    | some k => facts.set "retrieval.config.k" (.ofDouble k) ⟨.direct, ""⟩, "query"⟩

theorem exact_rat : Exact ℚ := by
  intro m n h
  simp only [Value.ofNat, Value.ofDouble, Value.scalar.injEq, Scalar.double.injEq] at h
  exact_mod_cast (show ((m : ℤ) : ℚ) = ((n : ℤ) : ℚ) from h)

end SurfaceAi.Retrieval
