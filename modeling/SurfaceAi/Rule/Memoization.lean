import SurfaceAi.Rule.Expression
import Mathlib.Data.Set.Function
import Std.Data.String.ToNat

/-! Memoised against plain evaluation of one condition. The cache is keyed by source
texts alone, so it is sound exactly where a text stands for one value. `track`
follows which texts hold which plain values as a run goes on, `Clean` says that
every text found there belongs to the node at hand, and `Represents` ties the
tracked table to the memo entries of the fact base. -/

namespace SurfaceAi.Rules

variable {D : Type}

/-! ### Plain evaluation -/

section Plain

variable [Doubles D]

/-- What a node evaluates to with `EvalWithMemo` replaced by a direct call. -/
def plain (facts : FactBase D) (e : Expr D) : Outcome (Value D) := (e.evaluate direct facts).1

theorem evaluate_direct (facts : FactBase D) (e : Expr D) :
    e.evaluate direct facts = (plain facts e, facts) := by
  refine Prod.ext rfl ?_
  have carry : ∀ (m : Eval D) (k : Value D → Eval D), (m facts).2 = facts →
      (∀ v, (k v facts).2 = facts) → (m.bind k facts).2 = facts := by
    intro m k hm hk
    unfold Eval.bind
    split
    · next v ctx h =>
      rw [h] at hm
      exact hm ▸ hk v
    · exact hm
  induction e with
  | null | literal | fieldRef | path => rfl
  | binary op lhs rhs source ihl ihr =>
    refine carry _ _ ihl fun lv => ?_
    cases shortCircuit op (truth lv) with
    | some b => rfl
    | none => exact carry _ _ ihr fun _ => rfl
  | unary op operand source ih => exact carry _ _ ih fun _ => rfl

/-- Whether a binary node evaluates its right operand. -/
def goesOn (facts : FactBase D) (op : BinaryOp) (lhs : Expr D) : Bool :=
  match plain facts lhs with
  | some (.ok lv) => (shortCircuit op (truth lv)).isNone
  | _ => false

end Plain

/-! ### The tracked table -/

/-- A table of plain values by source text. -/
abbrev Table (D : Type) := String → Option (Value D)

/-- Only values are stored, and never under the empty text. -/
def Table.store (table : Table D) (src : String) : Outcome (Value D) → Table D
  | some (.ok v) => if src = "" then table else Function.update table src (some v)
  | _ => table

section Track

variable [Doubles D]

/-- The table after a node has been evaluated, when every lookup finds the plain value. -/
def Expr.track (facts : FactBase D) : Expr D → Table D → Table D
  | .null, table => table
  | .literal _, table => table
  | .fieldRef key, table =>
    if (table key).isSome then table else table.store key (plain facts (.fieldRef key))
  | .path p, table =>
    if (table p).isSome then table else table.store p (plain facts (.path p))
  | .binary op lhs rhs source, table =>
    if (table source).isSome then table
    else
      let table' := lhs.track facts table
      (if goesOn facts op lhs then rhs.track facts table' else table').store source
        (plain facts (.binary op lhs rhs source))
  | .unary op operand source, table =>
    if (table source).isSome then table
    else (operand.track facts table).store source (plain facts (.unary op operand source))

end Track

section Clean

variable (hash : String → ℕ)

/-- No text of the table has `key` as its memo key. -/
def Table.Misses (table : Table D) (key : String) : Prop :=
  ∀ s v, table s = some v → key ≠ memoKey hash s

variable [Doubles D]

/-- The evaluation of a node only finds what belongs to it: a text of the table it looks up
has the node's own plain value, and a key it reads is no memo key of the table. -/
def Expr.Clean (facts : FactBase D) : Expr D → Table D → Prop
  | .null, _ => True
  | .literal _, _ => True
  | .fieldRef key, table =>
    match table key with
    | some v => plain facts (.fieldRef key) = some (.ok v)
    | none => table.Misses hash key
  | .path p, table =>
    match table p with
    | some v => plain facts (.path p) = some (.ok v)
    | none => table.Misses hash (flatKey p facts)
  | .binary op lhs rhs source, table =>
    match table source with
    | some v => plain facts (.binary op lhs rhs source) = some (.ok v)
    | none => lhs.Clean facts table ∧
        (goesOn facts op lhs = true → rhs.Clean facts (lhs.track facts table))
  | .unary op operand source, table =>
    match table source with
    | some v => plain facts (.unary op operand source) = some (.ok v)
    | none => operand.Clean facts table

end Clean

/-- The source texts a node and the nodes below it are memoised under. -/
def Expr.texts : Expr D → List String
  | .null => []
  | .literal _ => []
  | .fieldRef key => [key]
  | .path p => [p]
  | .binary _ lhs rhs source => source :: (lhs.texts ++ rhs.texts)
  | .unary _ operand source => source :: operand.texts

/-- No entry of the fact base has a memo key. -/
def MemoFree (facts : FactBase D) : Prop := ∀ t, facts.get ("__memo__" ++ t) = none

theorem MemoFree.empty : MemoFree (FactBase.empty : FactBase D) := fun _ => rfl

theorem memo_append_ne {key : String} (h : ¬"__memo__".toList <+: key.toList) (t : String) :
    "__memo__" ++ t ≠ key := by
  rintro rfl
  exact h ⟨t.toList, String.toList_append.symm⟩

theorem MemoFree.set {facts : FactBase D} (hf : MemoFree facts) {key : String}
    (h : ¬"__memo__".toList <+: key.toList) (v : Value D) (source : FactSource) :
    MemoFree (facts.set key v source) := fun t => by
  rw [FactBase.get_set_ne _ (memo_append_ne h t)]
  exact hf t

variable (hash : String → ℕ)

theorem MemoFree.get_memoKey {facts : FactBase D} (h : MemoFree facts) (s : String) :
    facts.get (memoKey hash s) = none := h _

theorem memoKey_injOn {texts : Set String} (h : Set.InjOn hash texts) :
    Set.InjOn (memoKey hash) texts := by
  intro s hs t ht heq
  have hrepr : toString (hash s) = toString (hash t) := by
    apply String.ext
    simpa only [memoKey, String.toList_append, List.append_cancel_left_eq]
      using congrArg String.toList heq
  exact h hs ht (Nat.repr_injective hrepr)

/-! ### The table in the fact base -/

/-- The fact base of a memoised run: the facts, and the table under the memo keys. -/
structure Represents (texts : Set String) (facts : FactBase D) (table : Table D)
    (ctx : FactBase D) : Prop where
  memo : ∀ s ∈ texts, ctx.get (memoKey hash s) = table s
  other : ∀ key, table.Misses hash key → ctx.get key = facts.get key
  mappings : ctx.pathMappings = facts.pathMappings
  mem : ∀ s v, table s = some v → s ∈ texts

namespace Represents

variable {hash} {texts : Set String} {facts ctx : FactBase D} {table : Table D}

theorem init (h : MemoFree facts) : Represents hash texts facts (fun _ => none) facts where
  memo s _ := h.get_memoKey hash s
  other _ _ := rfl
  mappings := rfl
  mem s v h := by simp at h

theorem set (hR : Represents hash texts facts table ctx) (hinj : Set.InjOn hash texts)
    {s : String} (hs : s ∈ texts) (v : Value D) (source : FactSource) :
    Represents hash texts facts (Function.update table s (some v))
      (ctx.set (memoKey hash s) v source) where
  memo t ht := by
    by_cases h : t = s
    · subst h
      simp
    · rw [FactBase.get_set_ne _ fun heq => h (memoKey_injOn hash hinj ht hs heq),
        Function.update_of_ne h, hR.memo t ht]
  other key hkey := by
    have hne : key ≠ memoKey hash s := hkey s v (Function.update_self ..)
    rw [FactBase.get_set_ne _ hne]
    apply hR.other key
    intro t w ht
    by_cases h : t = s
    · exact h ▸ hne
    · exact hkey t w (by rwa [Function.update_of_ne h])
  mappings := hR.mappings
  mem t w h := by
    by_cases hts : t = s
    · exact hts ▸ hs
    · exact hR.mem t w (by rwa [Function.update_of_ne hts] at h)

theorem hit (hR : Represents hash texts facts table ctx) (hempty : "" ∉ texts) {src : String}
    {v : Value D} (hv : table src = some v) (m : Eval D) :
    evalWithMemo hash src m ctx = (some (.ok v), ctx) := by
  have hmem := hR.mem src v hv
  have hne : src ≠ "" := fun h => hempty (h ▸ hmem)
  have hget : ctx.get (memoKey hash src) = some v := (hR.memo src hmem).trans hv
  simp only [evalWithMemo, if_neg hne, hget]

theorem miss (hR : Represents hash texts facts table ctx) (hinj : Set.InjOn hash texts)
    {src : String} (hsrc : src = "" ∨ src ∈ texts) (hnone : table src = none) {m : Eval D}
    {outcome : Outcome (Value D)} {ctx' : FactBase D} (hm : m ctx = (outcome, ctx'))
    {table' : Table D} (hR' : Represents hash texts facts table' ctx') :
    ∃ ctx'', evalWithMemo hash src m ctx = (outcome, ctx'') ∧
      Represents hash texts facts (table'.store src outcome) ctx'' := by
  by_cases hne : src = ""
  · subst hne
    have hstore : table'.store "" outcome = table' := by unfold Table.store; split <;> rfl
    rw [hstore]
    exact ⟨ctx', by simpa [evalWithMemo] using hm, hR'⟩
  · have hmem := hsrc.resolve_left hne
    have hget : ctx.get (memoKey hash src) = none := (hR.memo src hmem).trans hnone
    simp only [evalWithMemo, if_neg hne, hget, hm]
    match outcome with
    | some (.ok v) =>
      refine ⟨_, rfl, ?_⟩
      simpa only [Table.store, if_neg hne] using hR'.set hinj hmem v _
    | some (.error e) => exact ⟨_, rfl, hR'⟩
    | none => exact ⟨_, rfl, hR'⟩

theorem flatKey_eq (hR : Represents hash texts facts table ctx) (p : String) :
    flatKey p ctx = flatKey p facts := by
  simp only [flatKey, FactBase.resolvePath, hR.mappings]

theorem readField_eq (hR : Represents hash texts facts table ctx) {key : String}
    (h : table.Misses hash key) : readField key ctx = readField key facts := by
  simp only [readField, hR.other key h]

theorem readPath_eq (hR : Represents hash texts facts table ctx) {p : String}
    (h : table.Misses hash (flatKey p facts)) : readPath p ctx = readPath p facts := by
  simp only [readPath, hR.flatKey_eq, hR.other _ h]

end Represents

/-! ### One node -/

section Node

variable [Doubles D] {facts ctx ctx₁ ctx₂ : FactBase D}

/-- The computation of a binary node, from what its operands' evaluations return. -/
private theorem evaluateBinary_eq (op : BinaryOp) {lhs rhs : Expr D} {l r : Eval D}
    (source : String) (hl : l ctx = (plain facts lhs, ctx₁))
    (hr : goesOn facts op lhs = true → r ctx₁ = (plain facts rhs, ctx₂)) :
    evaluateBinary op l r ctx =
      (plain facts (.binary op lhs rhs source), if goesOn facts op lhs then ctx₂ else ctx₁) := by
  have hplain : plain facts (.binary op lhs rhs source) =
      (evaluateBinary op (lhs.evaluate direct) (rhs.evaluate direct) facts).1 := rfl
  rw [hplain]
  simp only [evaluateBinary, Eval.bind, evaluate_direct, hl]
  match hpl : plain facts lhs with
  | none => simp [goesOn, hpl]
  | some (.error e) => simp [goesOn, hpl]
  | some (.ok lv) =>
    cases hsc : shortCircuit op (truth lv) with
    | some b => simp [goesOn, hpl, hsc, Eval.pure]
    | none =>
      have hgo : goesOn facts op lhs = true := by simp [goesOn, hpl, hsc]
      simp only [hgo, if_true, hsc]
      simp only [Eval.bind, hr hgo, evaluate_direct]
      match plain facts rhs with
      | none => rfl
      | some (.error e) => rfl
      | some (.ok rv) => rfl

private theorem evaluateUnary_eq (op : UnaryOp) {operand : Expr D} {m : Eval D} (source : String)
    (h : m ctx = (plain facts operand, ctx₁)) :
    evaluateUnary op m ctx = (plain facts (.unary op operand source), ctx₁) := by
  have hplain : plain facts (.unary op operand source) =
      (evaluateUnary op (operand.evaluate direct) facts).1 := rfl
  rw [hplain]
  simp only [evaluateUnary, Eval.bind, evaluate_direct, h]
  match plain facts operand with
  | none => rfl
  | some (.error e) => rfl
  | some (.ok v) => rfl

end Node

/-! ### Clean runs -/

section Run

variable {hash} {texts : Set String} {facts : FactBase D} {table : Table D} {ctx : FactBase D}
  (hinj : Set.InjOn hash texts) (hempty : "" ∉ texts)
include hinj hempty

/-- A node that only reads the fact base: on a hit the stored value must be what it reads
in the facts, and otherwise no memo entry may be in its way. -/
private theorem clean_read (lookup : FactBase D → Result (Value D)) {src : String}
    (hR : Represents hash texts facts table ctx) (hsrc : src = "" ∨ src ∈ texts)
    (hhit : ∀ v, table src = some v → some (lookup facts) = some (.ok v))
    (hmiss : table src = none → lookup ctx = lookup facts) :
    ∃ ctx', evalWithMemo hash src (Eval.read lookup) ctx = (some (lookup facts), ctx') ∧
      Represents hash texts facts
        (if (table src).isSome then table else table.store src (some (lookup facts))) ctx' := by
  cases hv : table src with
  | some v =>
    rw [hR.hit hempty hv, hhit v hv]
    exact ⟨ctx, rfl, hR⟩
  | none => exact hR.miss hinj hsrc hv (by rw [Eval.read, hmiss hv]) hR

variable [Doubles D]

/-- A clean evaluation returns the plain outcome and keeps the table in the fact base. -/
theorem Expr.Clean.evaluate_eq {e : Expr D} (hR : Represents hash texts facts table ctx)
    (htexts : ∀ s ∈ e.texts, s = "" ∨ s ∈ texts) (hc : e.Clean hash facts table) :
    ∃ ctx', e.evaluate (evalWithMemo hash) ctx = (plain facts e, ctx') ∧
      Represents hash texts facts (e.track facts table) ctx' := by
  induction e generalizing table ctx with
  | null => exact ⟨ctx, rfl, hR⟩
  | literal v => exact ⟨ctx, rfl, hR⟩
  | fieldRef key =>
    refine clean_read hinj hempty (readField key) hR (htexts key (by simp [Expr.texts])) ?_ ?_
    · intro v hv
      rwa [Expr.Clean, hv] at hc
    · intro hnone
      rw [Expr.Clean, hnone] at hc
      exact hR.readField_eq hc
  | path p =>
    refine clean_read hinj hempty (readPath p) hR (htexts p (by simp [Expr.texts])) ?_ ?_
    · intro v hv
      rwa [Expr.Clean, hv] at hc
    · intro hnone
      rw [Expr.Clean, hnone] at hc
      exact hR.readPath_eq hc
  | binary op lhs rhs source ihl ihr =>
    simp only [Expr.evaluate, Expr.track]
    cases hv : table source with
    | some v =>
      rw [Expr.Clean, hv] at hc
      rw [hR.hit hempty hv]
      exact ⟨ctx, by rw [hc], hR⟩
    | none =>
      rw [Expr.Clean, hv] at hc
      obtain ⟨ctx₁, hl, hR₁⟩ := ihl hR (fun s hs => htexts s (by simp [Expr.texts, hs])) hc.1
      obtain ⟨ctx₂, hr, hR₂⟩ : ∃ ctx₂,
          (goesOn facts op lhs = true →
            rhs.evaluate (evalWithMemo hash) ctx₁ = (plain facts rhs, ctx₂)) ∧
          Represents hash texts facts
            (if goesOn facts op lhs then rhs.track facts (lhs.track facts table)
              else lhs.track facts table)
            (if goesOn facts op lhs then ctx₂ else ctx₁) := by
        by_cases hgo : goesOn facts op lhs = true
        · simp only [hgo, if_true, forall_const]
          exact ihr hR₁ (fun s hs => htexts s (by simp [Expr.texts, hs])) (hc.2 hgo)
        · exact ⟨ctx₁, fun h => absurd h hgo, by simpa [hgo] using hR₁⟩
      exact hR.miss hinj (htexts source (by simp [Expr.texts])) hv
        (evaluateBinary_eq op source hl hr) hR₂
  | unary op operand source ih =>
    simp only [Expr.evaluate, Expr.track]
    cases hv : table source with
    | some v =>
      rw [Expr.Clean, hv] at hc
      rw [hR.hit hempty hv]
      exact ⟨ctx, by rw [hc], hR⟩
    | none =>
      rw [Expr.Clean, hv] at hc
      obtain ⟨ctx₁, ho, hR₁⟩ := ih hR (fun s hs => htexts s (by simp [Expr.texts, hs])) hc
      exact hR.miss hinj (htexts source (by simp [Expr.texts])) hv
        (evaluateUnary_eq op source ho) hR₁

end Run

/-! ### The evaluations of a run -/

section Calls

variable [Doubles D]

/-- No memo entry is found under `src`. -/
def Lookup.Misses (src : String) (ctx : FactBase D) : Prop :=
  src = "" ∨ ctx.get (memoKey hash src) = none

/-- `Calls e ctx e' ctx'`: the memoised evaluation of `e` in `ctx` evaluates `e'` in `ctx'`. -/
inductive Calls : Expr D → FactBase D → Expr D → FactBase D → Prop where
  | here {e ctx} : Calls e ctx e ctx
  | left {op lhs rhs source ctx e' ctx'} (hmiss : Lookup.Misses hash source ctx)
      (h : Calls lhs ctx e' ctx') : Calls (.binary op lhs rhs source) ctx e' ctx'
  | right {op lhs rhs source ctx lv ctx₁ e' ctx'} (hmiss : Lookup.Misses hash source ctx)
      (hl : lhs.evaluate (evalWithMemo hash) ctx = (some (.ok lv), ctx₁))
      (hgo : shortCircuit op (truth lv) = none)
      (h : Calls rhs ctx₁ e' ctx') : Calls (.binary op lhs rhs source) ctx e' ctx'
  | operand {op operand source ctx e' ctx'} (hmiss : Lookup.Misses hash source ctx)
      (h : Calls operand ctx e' ctx') : Calls (.unary op operand source) ctx e' ctx'

end Calls

section Converse

variable {hash} {texts : Set String} {facts : FactBase D} {table : Table D}
  {ctx : FactBase D} (hinj : Set.InjOn hash texts) (hempty : "" ∉ texts)

theorem Represents.misses (hR : Represents hash texts facts table ctx) {src : String}
    (hsrc : src = "" ∨ src ∈ texts) (hnone : table src = none) :
    Lookup.Misses hash src ctx :=
  hsrc.imp_right fun hmem => (hR.memo src hmem).trans hnone

theorem Represents.table_eq_none (hR : Represents hash texts facts table ctx)
    (hempty : "" ∉ texts) {src : String} (h : Lookup.Misses hash src ctx) :
    table src = none := by
  by_contra hne
  obtain ⟨v, hv⟩ := Option.ne_none_iff_exists'.mp hne
  have hmem := hR.mem src v hv
  rcases h with rfl | hget
  · exact hempty hmem
  · rw [hR.memo src hmem, hv] at hget
    exact absurd hget (by simp)

/-- A read that agrees with the facts meets no memo entry: the facts have none. -/
theorem Represents.misses_of_get_eq (hR : Represents hash texts facts table ctx)
    (hfree : MemoFree facts) {key : String}
    (h : ∀ v, ctx.get key = some v → facts.get key = some v) : table.Misses hash key := by
  rintro s v hs rfl
  have hget := h v ((hR.memo s (hR.mem s v hs)).trans hs)
  rw [hfree.get_memoKey hash s] at hget
  exact absurd hget (by simp)

theorem get_of_readField_eq {key : String} (h : readField key ctx = readField key facts)
    (v : Value D) (hv : ctx.get key = some v) : facts.get key = some v := by
  cases hf : facts.get key with
  | none => simp [readField, hv, hf, fail] at h
  | some w => simpa [readField, hv, hf] using h.symm

theorem get_of_readPath_eq {p : String} (hk : flatKey p ctx = flatKey p facts)
    (h : readPath p ctx = readPath p facts) (v : Value D)
    (hv : ctx.get (flatKey p facts) = some v) : facts.get (flatKey p facts) = some v := by
  cases hf : facts.get (flatKey p facts) with
  | none => simp [readPath, hk, hv, hf, fail] at h
  | some w => simpa [readPath, hk, hv, hf] using h.symm

variable [Doubles D]

include hinj hempty in
/-- Every evaluation inside a clean one returns the plain outcome. -/
theorem Expr.Clean.calls_eq {e e' : Expr D} {ctx' : FactBase D} (hcall : Calls hash e ctx e' ctx')
    (hR : Represents hash texts facts table ctx) (htexts : ∀ s ∈ e.texts, s = "" ∨ s ∈ texts)
    (hc : e.Clean hash facts table) :
    (e'.evaluate (evalWithMemo hash) ctx').1 = plain facts e' := by
  induction hcall generalizing table with
  | here =>
    obtain ⟨ctx', he, -⟩ := hc.evaluate_eq hinj hempty hR htexts
    rw [he]
  | left hmiss _ ih =>
    rw [Expr.Clean, hR.table_eq_none hempty hmiss] at hc
    exact ih hR (fun s hs => htexts s (by simp [Expr.texts, hs])) hc.1
  | right hmiss hl hgo _ ih =>
    rw [Expr.Clean, hR.table_eq_none hempty hmiss] at hc
    obtain ⟨ctx₁, hl', hR₁⟩ :=
      hc.1.evaluate_eq hinj hempty hR fun s hs => htexts s (by simp [Expr.texts, hs])
    obtain ⟨hpl, rfl⟩ := Prod.mk.inj (hl.symm.trans hl')
    exact ih hR₁ (fun s hs => htexts s (by simp [Expr.texts, hs]))
      (hc.2 (by simp [goesOn, ← hpl, hgo]))
  | operand hmiss _ ih =>
    rw [Expr.Clean, hR.table_eq_none hempty hmiss] at hc
    exact ih hR (fun s hs => htexts s (by simp [Expr.texts, hs])) hc

include hinj hempty in
/-- If every evaluation inside the memoised one returns the plain outcome, it was clean. -/
theorem Expr.clean_of_calls {e : Expr D} (hR : Represents hash texts facts table ctx)
    (hfree : MemoFree facts) (htexts : ∀ s ∈ e.texts, s = "" ∨ s ∈ texts)
    (h : ∀ e' ctx', Calls hash e ctx e' ctx' →
      (e'.evaluate (evalWithMemo hash) ctx').1 = plain facts e') :
    e.Clean hash facts table := by
  induction e generalizing table ctx with
  | null => trivial
  | literal v => trivial
  | fieldRef key =>
    have hhere := h _ _ .here
    rw [Expr.evaluate] at hhere
    rw [Expr.Clean]
    cases hv : table key with
    | some v =>
      rw [hR.hit hempty hv] at hhere
      exact hhere.symm
    | none =>
      obtain ⟨ctx', hm, -⟩ := hR.miss hinj (htexts key (by simp [Expr.texts])) hv
        (m := Eval.read (readField key)) rfl hR
      rw [hm] at hhere
      exact hR.misses_of_get_eq hfree (get_of_readField_eq (Option.some.inj hhere))
  | path p =>
    have hhere := h _ _ .here
    rw [Expr.evaluate] at hhere
    rw [Expr.Clean]
    cases hv : table p with
    | some v =>
      rw [hR.hit hempty hv] at hhere
      exact hhere.symm
    | none =>
      obtain ⟨ctx', hm, -⟩ := hR.miss hinj (htexts p (by simp [Expr.texts])) hv
        (m := Eval.read (readPath p)) rfl hR
      rw [hm] at hhere
      exact hR.misses_of_get_eq hfree
        (get_of_readPath_eq (hR.flatKey_eq p) (Option.some.inj hhere))
  | binary op lhs rhs source ihl ihr =>
    rw [Expr.Clean]
    cases hv : table source with
    | some v =>
      have hhere := h _ _ .here
      rw [Expr.evaluate, hR.hit hempty hv] at hhere
      exact hhere.symm
    | none =>
      have hmiss := hR.misses (htexts source (by simp [Expr.texts])) hv
      have hlt : ∀ s ∈ lhs.texts, s = "" ∨ s ∈ texts :=
        fun s hs => htexts s (by simp [Expr.texts, hs])
      have hlc := ihl hR hlt fun e' ctx' hcall => h e' ctx' (.left hmiss hcall)
      refine ⟨hlc, fun hgo => ?_⟩
      obtain ⟨ctx₁, hl, hR₁⟩ := hlc.evaluate_eq hinj hempty hR hlt
      refine ihr hR₁ (fun s hs => htexts s (by simp [Expr.texts, hs])) fun e' ctx' hcall => ?_
      match hpl : plain facts lhs with
      | some (.ok lv) =>
        simp only [goesOn, hpl, Option.isNone_iff_eq_none] at hgo
        exact h e' ctx' (.right hmiss (hl.trans (by rw [hpl])) hgo hcall)
      | some (.error e) => simp [goesOn, hpl] at hgo
      | none => simp [goesOn, hpl] at hgo
  | unary op operand source ih =>
    rw [Expr.Clean]
    cases hv : table source with
    | some v =>
      have hhere := h _ _ .here
      rw [Expr.evaluate, hR.hit hempty hv] at hhere
      exact hhere.symm
    | none =>
      have hmiss := hR.misses (htexts source (by simp [Expr.texts])) hv
      exact ih hR (fun s hs => htexts s (by simp [Expr.texts, hs]))
        fun e' ctx' hcall => h e' ctx' (.operand hmiss hcall)

end Converse

end SurfaceAi.Rules
