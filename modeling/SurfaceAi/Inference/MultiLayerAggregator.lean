import Mathlib.Algebra.BigOperators.GroupWithZero.Action
import Mathlib.Algebra.Field.Basic
import Mathlib.Algebra.CharZero.Defs
import Mathlib.Algebra.Order.Field.Rat
import Mathlib.Data.Int.Notation
import Mathlib.Data.List.GetD
import SurfaceAi.Library.Checked
import SurfaceAi.Library.Returns
import SurfaceAi.Library.Rows

/-! Aggregation of the features of several layers: side by side, averaged, or averaged in groups
that are put side by side. Sizes and positions are words of 64 bits. -/

namespace SurfaceAi.Inference

open Checked

inductive AggMethod where
  | concat
  | mean
  | group
  deriving DecidableEq

structure MultiLayerConfig where
  layers : List ℤ
  method : AggMethod := .mean
  groups : List (List ℤ) := []
  embedDim : ℕ := 1024

/-- `layer_index_[layer] = i`. -/
def setIndex (index : ℤ → Option ℕ) (entry : ℤ × ℕ) : ℤ → Option ℕ :=
  Function.update index entry.1 (some entry.2)

namespace MultiLayerConfig

variable (cfg : MultiLayerConfig)

def outputDim : ℕ :=
  match cfg.method with
  | .concat => cfg.embedDim * cfg.layers.length % 2 ^ 64
  | .mean => cfg.embedDim
  | .group => cfg.embedDim * cfg.groups.length % 2 ^ 64

/-- The map from the layers to their positions; a repeated layer has its last one. -/
def layerIndex : ℤ → Option ℕ :=
  cfg.layers.zipIdx.foldl setIndex fun _ => none

end MultiLayerConfig

section Definitions

variable {F : Type*} [Zero F] [One F] [Add F] [Mul F] [Div F] [NatCast F]

/-- `1.0f / n`. -/
def reciprocal (n : ℕ) : Option F := if n = 0 then none else some (1 / n)

def scaledTerm (base : ℕ) (src : List F) (scale : F) (i : ℕ) (b : F) : Option F :=
  (src[(base + i) % 2 ^ 64]?).map fun x => b + x * scale

/-- `buf[i] += src[base + i] * scale` for all `i < n`. -/
def addScaled (n base : ℕ) (src : List F) (scale : F) (buf : List F) : Option (List F) :=
  loop n (fun i buf => do store buf i (← scaledTerm base src scale i (← buf[i]?))) buf

/-- The entries from `first` to `last`. -/
def entries (src : List F) (first last : ℕ) : Option (List F) :=
  if first ≤ last then slice src first (last - first) else none

namespace MultiLayerConfig

variable (cfg : MultiLayerConfig) (features : List (List F)) (count : ℕ)

/-- The average of a group's layers at a row. -/
def groupMean (row : ℕ) (group : List ℤ) : Option (List F) := do
  let invG ← reciprocal group.length
  group.foldlM (fun mean name =>
    match cfg.layerIndex name with
    | none => some mean
    | some l => do addScaled cfg.embedDim (row * cfg.embedDim) (← features[l]?) invG mean)
    (List.replicate cfg.embedDim 0)

/-- The blocks of a row are copied one after another. -/
def writeRow {β : Type*} (block : β → Option (List F)) (row : ℕ) (blocks : List β)
    (out : List F) (offset : ℕ) : Option (List F × ℕ) :=
  blocks.foldlM (fun written b => do
    let out ← copy written.1 ((row * cfg.outputDim + written.2) % 2 ^ 64) (← block b)
    return (out, (written.2 + cfg.embedDim) % 2 ^ 64)) (out, offset)

def writeRows {β : Type*} (block : ℕ → β → Option (List F)) (blocks : List β) :
    Option (List F) :=
  loop count (fun row out => (cfg.writeRow (block row) row blocks out 0).map Prod.fst)
    (List.replicate (count * cfg.outputDim % 2 ^ 64) 0)

/-- `MultiLayerAggregator::Aggregate`; nothing when it divides by zero or leaves an array. -/
def aggregate : Option (List F) :=
  if features.isEmpty || count == 0 then some []
  else
    match cfg.method with
    | .mean => do
      let size := count * cfg.embedDim % 2 ^ 64
      let invN ← reciprocal features.length
      features.foldlM (fun out src => addScaled size 0 src invN out) (List.replicate size 0)
    | .concat => cfg.writeRows count (fun row src =>
        entries src (row * cfg.embedDim % 2 ^ 64) ((row + 1) * cfg.embedDim % 2 ^ 64)) features
    | .group => cfg.writeRows count (cfg.groupMean features) cfg.groups

end MultiLayerConfig

end Definitions

/-! ### What is asked -/

/-- The last position at which a layer is configured. -/
def lastPosition (name : ℤ) : List ℤ → Option ℕ
  | [] => none
  | layer :: layers =>
    match lastPosition name layers with
    | some p => some (p + 1)
    | none => if layer = name then some 0 else none

namespace MultiLayerConfig

variable {F : Type*} [Field F] (cfg : MultiLayerConfig) (features : List (List F)) (count : ℕ)

/-- An array of features for each layer, of a row for each vector. -/
structure Given : Prop where
  count_pos : 0 < count
  layers_ne : cfg.layers ≠ []
  length_eq : features.length = cfg.layers.length
  size_eq : ∀ src ∈ features, src.length = count * cfg.embedDim
  embedDim_lt : cfg.embedDim < 2 ^ 64

/-- What the configured layers of a group have at a row, component by component. -/
def members (row j : ℕ) (group : List ℤ) : List F :=
  (group.filterMap fun name => lastPosition name cfg.layers).map fun l =>
    (features.getD l []).getD (row * cfg.embedDim + j) 0

/-- Every row has its place, and the blocks of the groups are the means of their layers. -/
structure Documented : Prop where
  returns : ∃ out, cfg.aggregate features count = some out ∧
    out.length = count * cfg.outputDim ∧
    (cfg.method = .group → ∀ row < count, ∀ g group, cfg.groups[g]? = some group →
      ∀ j < cfg.embedDim, cfg.members features row j group ≠ [] →
        out[row * cfg.outputDim + (g * cfg.embedDim + j)]? =
          some ((cfg.members features row j group).sum / (cfg.members features row j group).length))

/-- How many blocks a row has. -/
def width : ℕ :=
  match cfg.method with
  | .concat => cfg.layers.length
  | .mean => 1
  | .group => cfg.groups.length

/-- No group is empty, and none names a layer that is not configured, unless the others cancel
out. -/
def GroupsKnown : Prop :=
  ∀ group ∈ cfg.groups, group ≠ [] ∧ ((∀ name ∈ group, name ∈ cfg.layers) ∨
    ∀ row < count, ∀ j < cfg.embedDim, (cfg.members features row j group).sum = 0)

/-- When the aggregation is what is documented. -/
structure Fits : Prop where
  size_lt : count * (cfg.embedDim * cfg.width) < 2 ^ 64
  groups_known : cfg.method = .group → cfg.GroupsKnown features count

end MultiLayerConfig

/-! ### The positions of the layers -/

theorem foldl_zipIdx (name : ℤ) (layers : List ℤ) (k : ℕ) (index : ℤ → Option ℕ) :
    (layers.zipIdx k).foldl setIndex index name = ((lastPosition name layers).map (k + ·)).or (index name) := by
  induction layers generalizing k index with
  | nil => rfl
  | cons layer layers ih =>
    rw [List.zipIdx_cons, List.foldl_cons, ih, lastPosition, setIndex]
    cases lastPosition name layers with
    | some p => simp [Nat.add_comm, Nat.add_left_comm]
    | none =>
      by_cases hname : layer = name
      · simp [hname]
      · simp [hname, Function.update_of_ne (Ne.symm hname)]

theorem MultiLayerConfig.layerIndex_eq (cfg : MultiLayerConfig) (name : ℤ) :
    cfg.layerIndex name = lastPosition name cfg.layers := by
  rw [layerIndex, foldl_zipIdx]
  cases lastPosition name cfg.layers <;> simp

theorem lastPosition_eq_none_iff {name : ℤ} {layers : List ℤ} :
    lastPosition name layers = none ↔ name ∉ layers := by
  induction layers with
  | nil => simp [lastPosition]
  | cons layer layers ih =>
    rw [List.mem_cons, not_or, ← ih, lastPosition]
    cases lastPosition name layers with
    | some p => simp
    | none => simp [eq_comm]

theorem lastPosition_lt {name : ℤ} {layers : List ℤ} {p : ℕ}
    (h : lastPosition name layers = some p) : p < layers.length := by
  induction layers generalizing p with
  | nil => cases h
  | cons layer layers ih =>
    rw [lastPosition] at h
    cases hrest : lastPosition name layers with
    | some q =>
      rw [hrest] at h
      obtain rfl := Option.some.inj h
      exact Nat.succ_lt_succ (ih hrest)
    | none =>
      rw [hrest] at h
      obtain ⟨-, h⟩ := Option.ite_none_right_eq_some.mp h
      exact Option.some.inj h ▸ Nat.succ_pos _

/-! ### The mean of a group -/

section Means

variable {F : Type*} [Field F] {n base : ℕ} {src buf out : List F} {scale : F}

theorem addScaled_eq (f : ℕ → F) (hinside : base + n ≤ src.length) (hsize : base + n ≤ 2 ^ 64) :
    addScaled n base src scale ((List.range n).map f) =
      some ((List.range n).map fun j => f j + src.getD (base + j) 0 * scale) := by
  have hterm : ∀ i a, ((List.range n).map f)[i]? = some a →
      scaledTerm base src scale i a = some (a + src.getD (base + i) 0 * scale) := by
    intro i a hread
    have hi : i < n := by
      have hlt := lt_of_isSome_read (Option.isSome_iff_exists.mpr ⟨a, hread⟩)
      rwa [List.length_map, List.length_range] at hlt
    rw [scaledTerm, Nat.mod_eq_of_lt (by omega), getElem?_eq_getD (by omega) 0]
    rfl
  have hloop := loop_mapIdx hterm
  rw [List.length_map, List.length_range] at hloop
  rw [addScaled, hloop]
  congr 1
  apply List.ext_getElem
  · simp
  · intro i hi hi'
    simp

theorem length_addScaled (h : addScaled n base src scale buf = some out) :
    out.length = buf.length := by
  refine Returns.foldlM_preserves (R := fun b => b.length = buf.length) ?_ rfl h
  intro b i b' hturn hlength
  obtain ⟨a, -, hturn⟩ := Option.bind_eq_some_iff.mp hturn
  obtain ⟨v, -, hstore⟩ := Option.bind_eq_some_iff.mp hturn
  exact (length_of_store hstore).trans hlength

theorem reciprocal_eq_some_iff {x : F} : reciprocal n = some x ↔ n ≠ 0 ∧ 1 / (n : F) = x := by
  rw [reciprocal, Option.ite_none_left_eq_some, Option.some.injEq]

end Means

namespace MultiLayerConfig

variable {F : Type*} [Field F] {cfg : MultiLayerConfig} {features : List (List F)} {count row : ℕ}

theorem members_cons_of_some {name : ℤ} {l j : ℕ} (h : lastPosition name cfg.layers = some l)
    (group : List ℤ) : cfg.members features row j (name :: group) =
      (features.getD l []).getD (row * cfg.embedDim + j) 0 :: cfg.members features row j group := by
  simp [members, h]

theorem members_cons_of_none {name : ℤ} {j : ℕ} (h : lastPosition name cfg.layers = none)
    (group : List ℤ) :
    cfg.members features row j (name :: group) = cfg.members features row j group := by
  simp [members, h]

omit [Field F] in
/-- A row is inside the arrays. -/
theorem row_le (hrow : row < count) :
    row * cfg.embedDim + cfg.embedDim ≤ count * cfg.embedDim := by
  rw [← Nat.succ_mul]
  exact Nat.mul_le_mul_right _ hrow

theorem Given.addScaled_member (h : cfg.Given features count)
    (hsize : count * cfg.embedDim < 2 ^ 64) (hrow : row < count) {name : ℤ} {l : ℕ}
    (hl : lastPosition name cfg.layers = some l) (scale : F) (f : ℕ → F) :
    (features[l]?.bind fun src => addScaled cfg.embedDim (row * cfg.embedDim) src scale
      ((List.range cfg.embedDim).map f)) =
      some ((List.range cfg.embedDim).map fun j =>
        f j + (features.getD l []).getD (row * cfg.embedDim + j) 0 * scale) := by
  have hlt : l < features.length := h.length_eq ▸ lastPosition_lt hl
  have hle : row * cfg.embedDim + cfg.embedDim ≤ count * cfg.embedDim := row_le hrow
  have hlength : (features.getD l []).length = count * cfg.embedDim := by
    rw [List.getD_eq_getElem _ _ hlt]
    exact h.size_eq _ (List.getElem_mem hlt)
  rw [getElem?_eq_getD hlt []]
  exact addScaled_eq f (by omega) (by omega)

/-- The loop over the names of a group, from any start. -/
theorem Given.foldlM_group (h : cfg.Given features count) (hsize : count * cfg.embedDim < 2 ^ 64)
    (hrow : row < count) (scale : F) (group : List ℤ) (f : ℕ → F) :
    group.foldlM (fun mean name =>
        match cfg.layerIndex name with
        | none => some mean
        | some l => do addScaled cfg.embedDim (row * cfg.embedDim) (← features[l]?) scale mean)
      ((List.range cfg.embedDim).map f) =
      some ((List.range cfg.embedDim).map fun j =>
        f j + (cfg.members features row j group).sum * scale) := by
  induction group generalizing f with
  | nil => simp [members]
  | cons name group ih =>
    rw [List.foldlM_cons, layerIndex_eq]
    cases hname : lastPosition name cfg.layers with
    | none =>
      simp only [members_cons_of_none hname]
      exact ih f
    | some l =>
      simp only [members_cons_of_some hname, List.sum_cons, add_mul, ← add_assoc]
      exact (congrArg (Option.bind · _) (h.addScaled_member hsize hrow hname scale f)).trans (ih _)

theorem Given.groupMean_eq (h : cfg.Given features count) (hsize : count * cfg.embedDim < 2 ^ 64)
    (hrow : row < count) {group : List ℤ} (hgroup : group ≠ []) :
    cfg.groupMean features row group = some ((List.range cfg.embedDim).map fun j =>
      (cfg.members features row j group).sum * (1 / (group.length : F))) := by
  have hinv : reciprocal group.length = some (1 / (group.length : F)) :=
    if_neg fun hzero => hgroup (List.length_eq_zero_iff.mp hzero)
  have hzeros : List.replicate cfg.embedDim (0 : F) = (List.range cfg.embedDim).map fun _ => 0 := by
    rw [List.map_const', List.length_range]
  rw [groupMean, hinv, hzeros]
  refine (h.foldlM_group hsize hrow _ group _).trans ?_
  simp only [zero_add]

theorem length_groupMean {group : List ℤ} {mean : List F}
    (h : cfg.groupMean features row group = some mean) : mean.length = cfg.embedDim := by
  obtain ⟨invG, -, hfold⟩ := Option.bind_eq_some_iff.mp h
  refine Returns.foldlM_preserves (R := fun b : List F => b.length = cfg.embedDim) ?_
    List.length_replicate hfold
  intro b name b' hturn hlength
  cases hname : cfg.layerIndex name with
  | none =>
    rw [hname] at hturn
    exact Option.some.inj hturn ▸ hlength
  | some l =>
    rw [hname] at hturn
    obtain ⟨src, -, hadd⟩ := Option.bind_eq_some_iff.mp hturn
    exact (length_addScaled hadd).trans hlength

/-- Only an empty group divides by zero. -/
theorem ne_nil_of_isSome_groupMean {group : List ℤ}
    (h : (cfg.groupMean features row group).isSome) : group ≠ [] := by
  rintro rfl
  cases h

end MultiLayerConfig

/-! ### Blocks side by side -/

namespace MultiLayerConfig

variable {F : Type*} [Field F] {cfg : MultiLayerConfig} {β : Type*} {block : ℕ → β → Option (List F)}
  {blocks : List β} {count row : ℕ} {out : List F}

omit [Field F] in
/-- The blocks of a row, from a position in it. -/
theorem writeRow_eq {vals : β → List F} (hblock : ∀ b ∈ blocks, block row b = some (vals b))
    (hlength : ∀ b ∈ blocks, (vals b).length = cfg.embedDim) {front old back : List F} {offset : ℕ}
    (hfront : front.length = row * cfg.outputDim + offset)
    (hold : old.length = blocks.length * cfg.embedDim)
    (hsize : row * cfg.outputDim + offset + blocks.length * cfg.embedDim < 2 ^ 64) :
    cfg.writeRow (block row) row blocks (front ++ (old ++ back)) offset =
      some (front ++ (blocks.flatMap vals ++ back), offset + blocks.length * cfg.embedDim) := by
  induction blocks generalizing front old offset with
  | nil =>
    obtain rfl : old = [] := List.length_eq_zero_iff.mp (hold.trans (Nat.zero_mul _))
    rw [List.length_nil, Nat.zero_mul]
    rfl
  | cons b blocks ih =>
    rw [List.forall_mem_cons] at hblock hlength
    rw [List.length_cons, Nat.succ_mul] at hold hsize
    have htake : (old.take cfg.embedDim).length = (vals b).length := by
      rw [List.length_take, hlength.1, hold]
      omega
    have hcopy : copy (front ++ (old ++ back)) ((row * cfg.outputDim + offset) % 2 ^ 64) (vals b) =
        some (front ++ (vals b ++ (old.drop cfg.embedDim ++ back))) := by
      have hsplit : old ++ back = old.take cfg.embedDim ++ (old.drop cfg.embedDim ++ back) := by
        rw [← List.append_assoc, List.take_append_drop]
      rw [Nat.mod_eq_of_lt (by omega), ← hfront, hsplit]
      exact copy_append front _ htake
    have hoffset : (offset + cfg.embedDim) % 2 ^ 64 = offset + cfg.embedDim :=
      Nat.mod_eq_of_lt (by omega)
    have hfront' : (front ++ vals b).length = row * cfg.outputDim + (offset + cfg.embedDim) := by
      rw [List.length_append, hfront, hlength.1]
      omega
    have hold' : (old.drop cfg.embedDim).length = blocks.length * cfg.embedDim := by
      rw [List.length_drop, hold]
      omega
    have hrest := ih hblock.2 hlength.2 hfront' hold' (by omega)
    rw [writeRow, List.foldlM_cons, hblock.1]
    change ((copy (front ++ (old ++ back)) ((row * cfg.outputDim + offset) % 2 ^ 64) (vals b)).bind
      fun out => some (out, (offset + cfg.embedDim) % 2 ^ 64)).bind _ = _
    rw [hcopy, Option.bind_some, Option.bind_some, hoffset, ← List.append_assoc front]
    refine hrest.trans ?_
    rw [List.flatMap_cons, List.length_cons, Nat.succ_mul, List.append_assoc, List.append_assoc]
    congr 2
    omega

theorem writeRows_eq {vals : ℕ → β → List F}
    (hblock : ∀ row < count, ∀ b ∈ blocks, block row b = some (vals row b))
    (hlength : ∀ row < count, ∀ b ∈ blocks, (vals row b).length = cfg.embedDim)
    (hwidth : cfg.outputDim = blocks.length * cfg.embedDim)
    (hsize : count * cfg.outputDim < 2 ^ 64) :
    cfg.writeRows count block blocks =
      some ((List.range count).flatMap fun row => blocks.flatMap (vals row)) := by
  let front : ℕ → List F := fun n => (List.range n).flatMap fun row => blocks.flatMap (vals row)
  let state : ℕ → List F := fun n => front n ++ List.replicate ((count - n) * cfg.outputDim) 0
  have hfront : ∀ n ≤ count, (front n).length = n * cfg.outputDim := by
    intro n hn
    induction n with
    | zero => simp [front]
    | succ n ih =>
      have hrow : (blocks.flatMap (vals n)).length = cfg.outputDim := by
        rw [List.length_flatMap, hwidth, List.map_congr_left (hlength n hn), List.map_const',
          List.sum_replicate]
        rfl
      have hprefix := ih (Nat.le_of_succ_le hn)
      simp only [front] at hprefix ⊢
      rw [List.range_succ, List.flatMap_append, List.flatMap_singleton, List.length_append, hprefix,
        hrow, Nat.succ_mul]
  have hturn : ∀ row < count, ((cfg.writeRow (block row) row blocks (state row) 0).map Prod.fst) =
      some (state (row + 1)) := by
    intro row hrow
    have hrest : (count - row) * cfg.outputDim =
        cfg.outputDim + (count - (row + 1)) * cfg.outputDim := by
      have hrows : count - row = count - (row + 1) + 1 := by omega
      rw [hrows, Nat.succ_mul, Nat.add_comm]
    have hend : (row + 1) * cfg.outputDim ≤ count * cfg.outputDim := Nat.mul_le_mul_right _ hrow
    rw [Nat.succ_mul] at hend
    simp only [state]
    rw [hrest, ← List.replicate_append_replicate,
      writeRow_eq (hblock row hrow) (hlength row hrow) (hfront row (Nat.le_of_lt hrow))
        (List.length_replicate.trans hwidth) (by omega)]
    simp [front, List.range_succ, List.flatMap_append]
  have hloop : cfg.writeRows count block blocks = some (state count) := by
    have hstart : List.replicate (count * cfg.outputDim % 2 ^ 64) (0 : F) = state 0 := by
      rw [Nat.mod_eq_of_lt hsize]
      simp [state, front]
    rw [writeRows, hstart]
    exact loop_eq state hturn
  simpa [state, front] using hloop

omit [Field F] in
theorem length_writeRow {offset offset' : ℕ} {out' : List F}
    (h : cfg.writeRow (block row) row blocks out offset = some (out', offset')) :
    out'.length = out.length := by
  refine Returns.foldlM_preserves (R := fun written : List F × ℕ => written.1.length = out.length)
    ?_ rfl h
  intro written b written' hturn hlength
  obtain ⟨v, -, hturn⟩ := Option.bind_eq_some_iff.mp hturn
  obtain ⟨o, hcopy, hturn⟩ := Option.bind_eq_some_iff.mp hturn
  obtain rfl := Option.some.inj hturn
  exact (length_of_copy hcopy).2.trans hlength

theorem length_writeRows (h : cfg.writeRows count block blocks = some out) :
    out.length = count * cfg.outputDim % 2 ^ 64 := by
  refine Returns.foldlM_preserves
    (R := fun b : List F => b.length = count * cfg.outputDim % 2 ^ 64) ?_ List.length_replicate h
  intro b row b' hturn hlength
  obtain ⟨⟨o, offset⟩, hrow, rfl⟩ := Option.map_eq_some_iff.mp hturn
  exact (length_writeRow hrow).trans hlength

omit [Field F] in
/-- A first row that is written fits in the buffer. -/
theorem writeRow_fits {written : List F × ℕ} {offset : ℕ}
    (hlength : ∀ b ∈ blocks, ∀ v, block 0 b = some v → v.length = cfg.embedDim)
    (hout : out.length < 2 ^ 64) (hoffset : offset ≤ out.length)
    (h : cfg.writeRow (block 0) 0 blocks out offset = some written) :
    offset + blocks.length * cfg.embedDim ≤ out.length ∧ ∀ b ∈ blocks, (block 0 b).isSome := by
  induction blocks generalizing out offset with
  | nil => exact ⟨by simpa using hoffset, by simp⟩
  | cons b blocks ih =>
    rw [List.forall_mem_cons] at hlength
    rw [writeRow, List.foldlM_cons] at h
    obtain ⟨written', hfirst, hrest⟩ := Option.bind_eq_some_iff.mp h
    obtain ⟨v, hv, hfirst⟩ := Option.bind_eq_some_iff.mp hfirst
    obtain ⟨o, hcopy, hfirst⟩ := Option.bind_eq_some_iff.mp hfirst
    obtain rfl := Option.some.inj hfirst
    obtain ⟨hinside, holength⟩ := length_of_copy hcopy
    change o.length = out.length at holength
    change _ ≤ out.length at hinside
    rw [hlength.1 v hv, Nat.zero_mul, Nat.zero_add, Nat.mod_eq_of_lt (by omega)] at hinside
    rw [Nat.mod_eq_of_lt (by omega)] at hrest
    obtain ⟨hle, hsome⟩ := ih hlength.2 (by omega) (by omega) hrest
    rw [List.length_cons, Nat.succ_mul, List.forall_mem_cons, hv]
    exact ⟨by omega, rfl, hsome⟩

/-- Rows that are written fit in the buffer, whose size is then not reduced. -/
theorem writeRows_fits (hcount : 0 < count)
    (hwidth : cfg.outputDim = cfg.embedDim * blocks.length % 2 ^ 64)
    (hlength : ∀ b ∈ blocks, ∀ v, block 0 b = some v → v.length = cfg.embedDim)
    (h : cfg.writeRows count block blocks = some out) :
    cfg.outputDim = blocks.length * cfg.embedDim ∧ ∀ b ∈ blocks, (block 0 b).isSome := by
  obtain ⟨k, rfl⟩ := Nat.exists_eq_add_of_lt hcount
  rw [writeRows, loop, Nat.zero_add, List.range_succ_eq_map, List.foldlM_cons] at h
  obtain ⟨o, hfirst, -⟩ := Option.bind_eq_some_iff.mp h
  obtain ⟨written, hrow, -⟩ := Option.map_eq_some_iff.mp hfirst
  obtain ⟨hle, hsome⟩ := writeRow_fits hlength
    (by rw [List.length_replicate]; exact Nat.mod_lt _ (Nat.two_pow_pos 64)) (Nat.zero_le _) hrow
  refine ⟨?_, hsome⟩
  have hlt : blocks.length * cfg.embedDim < 2 ^ 64 := by
    rw [List.length_replicate, Nat.zero_add] at hle
    exact Nat.lt_of_le_of_lt hle (Nat.mod_lt _ (Nat.two_pow_pos 64))
  rw [hwidth, Nat.mul_comm, Nat.mod_eq_of_lt hlt]

end MultiLayerConfig

/-! ### When the aggregation is what is documented -/

namespace MultiLayerConfig

variable {F : Type*} [Field F] {cfg : MultiLayerConfig} {features : List (List F)} {count : ℕ}
  {out : List F}

theorem Given.aggregate_eq (h : cfg.Given features count) : cfg.aggregate features count =
    match cfg.method with
    | .mean => (reciprocal features.length).bind fun invN =>
        features.foldlM (fun out src => addScaled (count * cfg.embedDim % 2 ^ 64) 0 src invN out)
          (List.replicate (count * cfg.embedDim % 2 ^ 64) 0)
    | .concat => cfg.writeRows count (fun row src =>
        entries src (row * cfg.embedDim % 2 ^ 64) ((row + 1) * cfg.embedDim % 2 ^ 64)) features
    | .group => cfg.writeRows count (cfg.groupMean features) cfg.groups := by
  have hfeatures : features.isEmpty = false := by
    rw [List.isEmpty_eq_false_iff, ← List.length_pos_iff, h.length_eq]
    exact List.length_pos_iff.mpr h.layers_ne
  have hcount : (count == 0) = false := beq_eq_false_iff_ne.mpr (Nat.ne_of_gt h.count_pos)
  rw [aggregate, hfeatures, hcount]
  rfl

omit [Field F] in
/-- What is copied of a layer's first row is as long as a row. -/
theorem length_entries_first {src v : List F} (hd : cfg.embedDim < 2 ^ 64)
    (h : entries src (0 * cfg.embedDim % 2 ^ 64) ((0 + 1) * cfg.embedDim % 2 ^ 64) = some v) :
    v.length = cfg.embedDim := by
  obtain ⟨-, hslice⟩ := Option.ite_none_right_eq_some.mp h
  obtain ⟨hinside, hv⟩ := Option.ite_none_right_eq_some.mp hslice
  obtain rfl := Option.some.inj hv
  rw [Nat.zero_add, Nat.one_mul, Nat.zero_mul, Nat.zero_mod, Nat.mod_eq_of_lt hd] at hinside ⊢
  rw [List.drop_zero, List.length_take]
  omega

/-- An aggregate of every row has a size that is not reduced. -/
theorem Given.size_lt (h : cfg.Given features count) (hout : cfg.aggregate features count = some out)
    (hlength : out.length = count * cfg.outputDim) :
    cfg.outputDim = cfg.width * cfg.embedDim ∧ count * cfg.outputDim < 2 ^ 64 := by
  have hlt : ∀ n : ℕ, out.length = n % 2 ^ 64 → count * cfg.outputDim < 2 ^ 64 := by
    intro n hn
    rw [← hlength, hn]
    exact Nat.mod_lt _ (Nat.two_pow_pos 64)
  rw [h.aggregate_eq] at hout
  cases hmethod : cfg.method with
  | mean =>
    simp only [hmethod] at hout
    obtain ⟨invN, -, hfold⟩ := Option.bind_eq_some_iff.mp hout
    refine ⟨by rw [outputDim, width, hmethod]; exact (Nat.one_mul _).symm,
      hlt (count * cfg.embedDim) ?_⟩
    refine Returns.foldlM_preserves
      (R := fun b : List F => b.length = count * cfg.embedDim % 2 ^ 64) ?_ List.length_replicate hfold
    intro b src b' hturn hb
    exact (length_addScaled hturn).trans hb
  | concat =>
    simp only [hmethod] at hout
    have hwidth : cfg.outputDim = cfg.embedDim * features.length % 2 ^ 64 := by
      rw [outputDim, hmethod, h.length_eq]
    have hfits := writeRows_fits h.count_pos hwidth
      (fun src _ v hv => length_entries_first h.embedDim_lt hv) hout
    refine ⟨?_, hlt _ (length_writeRows hout)⟩
    rw [hfits.1, width, hmethod, h.length_eq]
  | group =>
    simp only [hmethod] at hout
    have hwidth : cfg.outputDim = cfg.embedDim * cfg.groups.length % 2 ^ 64 := by
      rw [outputDim, hmethod]
    have hfits := writeRows_fits h.count_pos hwidth (fun group _ v hv => length_groupMean hv) hout
    refine ⟨?_, hlt _ (length_writeRows hout)⟩
    rw [hfits.1, width, hmethod]

omit [Field F] in
/-- With sizes that are not reduced, the arrays of the layers have them neither. -/
theorem array_lt (hwidth : cfg.width ≠ 0) (hsize : count * (cfg.embedDim * cfg.width) < 2 ^ 64) :
    count * cfg.embedDim < 2 ^ 64 := by
  refine Nat.lt_of_le_of_lt (Nat.mul_le_mul_left _ ?_) hsize
  exact Nat.le_mul_of_pos_right _ (Nat.pos_of_ne_zero hwidth)

omit [Field F] in
theorem outputDim_eq (hcount : 0 < count) (hsize : count * (cfg.embedDim * cfg.width) < 2 ^ 64) :
    cfg.outputDim = cfg.width * cfg.embedDim := by
  have hlt : cfg.embedDim * cfg.width < 2 ^ 64 :=
    Nat.lt_of_le_of_lt (Nat.le_mul_of_pos_left _ hcount) hsize
  rw [Nat.mul_comm]
  rw [width] at hlt ⊢
  rw [outputDim]
  cases hmethod : cfg.method with
  | mean => exact (Nat.mul_one _).symm
  | concat =>
    rw [hmethod] at hlt
    exact Nat.mod_eq_of_lt hlt
  | group =>
    rw [hmethod] at hlt
    exact Nat.mod_eq_of_lt hlt

theorem Given.mean_returns (h : cfg.Given features count) (hmethod : cfg.method = .mean)
    (hsize : count * cfg.embedDim < 2 ^ 64) :
    Returns (cfg.aggregate features count) fun out => out.length = count * cfg.embedDim := by
  have hinv : reciprocal features.length = some (1 / (features.length : F)) := by
    refine if_neg fun hzero => h.layers_ne (List.length_eq_zero_iff.mp ?_)
    rw [← h.length_eq, hzero]
  rw [h.aggregate_eq, hmethod]
  simp only
  rw [hinv, Option.bind_some, Nat.mod_eq_of_lt hsize]
  have hfold : Returns (features.foldlM (fun out src =>
        addScaled (count * cfg.embedDim) 0 src (1 / (features.length : F)) out)
      (List.replicate (count * cfg.embedDim) 0))
      fun out => ∃ f : ℕ → F, out = (List.range (count * cfg.embedDim)).map f := by
    apply Returns.foldlM
    · exact ⟨fun _ => 0, by rw [List.map_const', List.length_range]⟩
    · rintro _ src hsrc ⟨f, rfl⟩
      have hlength := h.size_eq src hsrc
      exact ⟨_, addScaled_eq f (by omega) (by omega), _, rfl⟩
  refine hfold.mono ?_
  rintro _ ⟨f, rfl⟩
  rw [List.length_map, List.length_range]

theorem Given.concat_returns (h : cfg.Given features count)
    (hmethod : cfg.method = .concat) (hwidth : cfg.outputDim = features.length * cfg.embedDim)
    (hsize : count * cfg.outputDim < 2 ^ 64) (harray : count * cfg.embedDim < 2 ^ 64) :
    Returns (cfg.aggregate features count) fun out => out.length = count * cfg.outputDim := by
  have hinside : ∀ row < count, ∀ src ∈ features, (row + 1) * cfg.embedDim ≤ src.length := by
    intro row hrow src hsrc
    rw [h.size_eq src hsrc]
    exact Nat.mul_le_mul_right _ hrow
  have hblock : ∀ row < count, ∀ src ∈ features,
      entries src (row * cfg.embedDim % 2 ^ 64) ((row + 1) * cfg.embedDim % 2 ^ 64) =
        some (Rows.row cfg.embedDim row src) := by
    intro row hrow src hsrc
    have hle := hinside row hrow src hsrc
    have hlength := h.size_eq src hsrc
    rw [Nat.succ_mul] at hle
    rw [Nat.succ_mul, Nat.mod_eq_of_lt (by omega), Nat.mod_eq_of_lt (by omega), entries,
      if_pos (Nat.le_add_right _ _), Nat.add_sub_cancel_left]
    exact if_pos hle
  rw [h.aggregate_eq, hmethod]
  have heq := writeRows_eq hblock
    (fun row hrow src hsrc => Rows.length_row (hinside row hrow src hsrc)) hwidth hsize
  exact ⟨_, heq, (length_writeRows heq).trans (Nat.mod_eq_of_lt hsize)⟩

/-- Over groups that are not empty, a block has the sums of its members over the group's size. -/
theorem Given.group_returns (h : cfg.Given features count) (hmethod : cfg.method = .group)
    (hne : ∀ group ∈ cfg.groups, group ≠ [])
    (hwidth : cfg.outputDim = cfg.groups.length * cfg.embedDim)
    (hsize : count * cfg.outputDim < 2 ^ 64) :
    Returns (cfg.aggregate features count) fun out => out.length = count * cfg.outputDim ∧
      ∀ row < count, ∀ g group, cfg.groups[g]? = some group → ∀ j < cfg.embedDim,
        out[row * cfg.outputDim + (g * cfg.embedDim + j)]? =
          some ((cfg.members features row j group).sum * (1 / (group.length : F))) := by
  have hblock : ∀ row < count, ∀ group ∈ cfg.groups, cfg.groupMean features row group =
      some ((List.range cfg.embedDim).map fun j =>
        (cfg.members features row j group).sum * (1 / (group.length : F))) := by
    intro row hrow group hgroup
    have harray : count * cfg.embedDim < 2 ^ 64 := by
      refine Nat.lt_of_le_of_lt (Nat.mul_le_mul_left _ ?_) hsize
      rw [hwidth]
      exact Nat.le_mul_of_pos_left _ (List.length_pos_of_mem hgroup)
    exact h.groupMean_eq harray hrow (hne group hgroup)
  have hlength : ∀ row < count, ∀ group ∈ cfg.groups, ((List.range cfg.embedDim).map fun j =>
      (cfg.members features row j group).sum * (1 / (group.length : F))).length = cfg.embedDim := by
    intro row _ group _
    rw [List.length_map, List.length_range]
  have heq := writeRows_eq hblock hlength hwidth hsize
  rw [h.aggregate_eq, hmethod]
  refine ⟨_, heq, (length_writeRows heq).trans (Nat.mod_eq_of_lt hsize), ?_⟩
  intro row hrow g group hg j hj
  have hg' : g < cfg.groups.length := lt_of_isSome_read (Option.isSome_iff_exists.mpr ⟨group, hg⟩)
  have hrows : ∀ r ∈ List.range count, (cfg.groups.flatMap fun group =>
      (List.range cfg.embedDim).map fun j =>
        (cfg.members features r j group).sum * (1 / (group.length : F))).length = cfg.outputDim := by
    intro r hr
    rw [List.length_flatMap, List.map_congr_left (hlength r (List.mem_range.mp hr)),
      List.map_const', List.sum_replicate, hwidth]
    rfl
  have hposition : g * cfg.embedDim + j < cfg.outputDim := hwidth ▸ flat_lt hg' hj
  rw [Rows.getElem?_flatMap hrows hposition, List.getElem?_range hrow, Option.bind_some,
    Rows.getElem?_flatMap (hlength row hrow) hj, hg, Option.bind_some, List.getElem?_map,
    List.getElem?_range hj]
  rfl

/-- Dividing by the size of the group and by the number of its members. -/
theorem nominal_eq_mean_iff [CharZero F] {known : List F} {n : ℕ} (hn : n ≠ 0) (hne : known ≠ []) :
    known.sum * (1 / (n : F)) = known.sum / known.length ↔ known.length = n ∨ known.sum = 0 := by
  have hlength : (known.length : F) ≠ 0 :=
    Nat.cast_ne_zero.mpr fun hzero => hne (List.length_eq_zero_iff.mp hzero)
  rw [mul_one_div, div_eq_div_iff (Nat.cast_ne_zero.mpr hn) hlength, mul_eq_mul_left_iff,
    Nat.cast_inj]

theorem length_members_eq_iff {row j : ℕ} {group : List ℤ} :
    (cfg.members features row j group).length = group.length ↔ ∀ name ∈ group, name ∈ cfg.layers := by
  rw [members, List.length_map, List.filterMap_length_eq_length]
  refine forall₂_congr fun name _ => ?_
  rw [← not_iff_not, Bool.not_eq_true, Option.isSome_eq_false_iff, Option.isNone_iff_eq_none,
    lastPosition_eq_none_iff]

/-- The aggregation is what is documented exactly when its sizes are not reduced, no group is empty,
and the layers that are not configured make no difference. -/
theorem documented_iff_fits [CharZero F] (h : cfg.Given features count) :
    cfg.Documented features count ↔ cfg.Fits features count := by
  constructor
  · rintro ⟨out, hout, hlength, hmeans⟩
    obtain ⟨hwidth, hsize⟩ := h.size_lt hout hlength
    refine ⟨by rw [Nat.mul_comm cfg.embedDim, ← hwidth]; exact hsize, fun hmethod => ?_⟩
    have hgroups : cfg.outputDim = cfg.groups.length * cfg.embedDim := by
      rw [hwidth, width, hmethod]
    have hrows : cfg.writeRows count (cfg.groupMean features) cfg.groups = some out := by
      rw [h.aggregate_eq, hmethod] at hout
      exact hout
    have hne : ∀ group ∈ cfg.groups, group ≠ [] := by
      have hfits := writeRows_fits h.count_pos (by rw [outputDim, hmethod])
        (fun group _ v hv => length_groupMean hv) hrows
      exact fun group hgroup => ne_nil_of_isSome_groupMean (hfits.2 group hgroup)
    obtain ⟨-, hentry⟩ := (h.group_returns hmethod hne hgroups hsize).of_eq_some hout
    intro group hgroup
    refine ⟨hne group hgroup, ?_⟩
    by_contra hneither
    rw [not_or] at hneither
    obtain ⟨hunknown, hsum⟩ := hneither
    apply hsum
    intro row hrow j hj
    obtain ⟨g, hg⟩ := List.mem_iff_getElem?.mp hgroup
    by_cases hnone : cfg.members features row j group = []
    · rw [hnone]
      rfl
    · have hmean := hmeans hmethod row hrow g group hg j hj hnone
      rw [hentry row hrow g group hg j hj, Option.some.injEq, nominal_eq_mean_iff
        (fun hzero => hne group hgroup (List.length_eq_zero_iff.mp hzero)) hnone] at hmean
      exact hmean.resolve_left fun hall => hunknown (length_members_eq_iff.mp hall)
  · intro hfits
    have hwidth := outputDim_eq h.count_pos hfits.size_lt
    have hsize : count * cfg.outputDim < 2 ^ 64 := by
      rw [hwidth, Nat.mul_comm cfg.width]
      exact hfits.size_lt
    cases hmethod : cfg.method with
    | mean =>
      rw [width, hmethod] at hwidth
      obtain ⟨out, hout, hlength⟩ := h.mean_returns hmethod (by rwa [hwidth, Nat.one_mul] at hsize)
      refine ⟨out, hout, by rw [hlength, hwidth, Nat.one_mul], fun hgroup => ?_⟩
      rw [hmethod] at hgroup
      cases hgroup
    | concat =>
      have harray : count * cfg.embedDim < 2 ^ 64 := by
        refine array_lt ?_ hfits.size_lt
        rw [width, hmethod]
        exact fun hzero => h.layers_ne (List.length_eq_zero_iff.mp hzero)
      rw [width, hmethod] at hwidth
      obtain ⟨out, hout, hlength⟩ := h.concat_returns hmethod (by rw [hwidth, h.length_eq]) hsize
        harray
      refine ⟨out, hout, hlength, fun hgroup => ?_⟩
      rw [hmethod] at hgroup
      cases hgroup
    | group =>
      have hknown := hfits.groups_known hmethod
      rw [width, hmethod] at hwidth
      obtain ⟨out, hout, hlength, hentry⟩ :=
        h.group_returns hmethod (fun group hgroup => (hknown group hgroup).1) hwidth hsize
      refine ⟨out, hout, hlength, fun _ row hrow g group hg j hj hmembers => ?_⟩
      obtain ⟨hne, hcases⟩ := hknown group (List.mem_of_getElem? hg)
      rw [hentry row hrow g group hg j hj]
      refine congrArg some ((nominal_eq_mean_iff
        (fun hzero => hne (List.length_eq_zero_iff.mp hzero)) hmembers).mpr ?_)
      exact hcases.imp length_members_eq_iff.mpr fun hsum => hsum row hrow j hj

/-- One group of two layers of one feature each. -/
theorem documented_iff_fits_pair :
    (⟨[-2, -3], .group, [[-2, -3]], 1⟩ : MultiLayerConfig).Documented [[(1 : ℚ)], [3]] 1 := by
  refine (documented_iff_fits ⟨by decide, by decide, rfl, by decide, by decide⟩).mpr
    ⟨by decide, fun _ => ?_⟩
  exact List.forall_mem_singleton.mpr ⟨by decide, .inl (by decide)⟩

/-- A layer that is not configured counts, and an empty group divides by zero. -/
theorem nominal_size_divides :
    ¬ (⟨[-2], .group, [[-2, 7]], 1⟩ : MultiLayerConfig).Documented [[(1 : ℚ)]] 1 ∧
      aggregate ⟨[-2], .group, [[-2, 7]], 1⟩ [[(1 : ℚ)]] 1 = some [1 / 2] ∧
      aggregate ⟨[-2], .group, [[]], 1⟩ [[(1 : ℚ)]] 1 = none := by
  have hhalf : aggregate ⟨[-2], .group, [[-2, 7]], 1⟩ [[(1 : ℚ)]] 1 = some [1 / 2] := by
    decide +kernel
  refine ⟨?_, hhalf, by decide +kernel⟩
  rintro ⟨out, hout, -, hmeans⟩
  rw [hhalf] at hout
  obtain rfl := Option.some.inj hout
  exact absurd (hmeans rfl 0 (by decide) 0 _ rfl 0 (by decide) (by decide +kernel))
    (by decide +kernel)

end MultiLayerConfig

end SurfaceAi.Inference
