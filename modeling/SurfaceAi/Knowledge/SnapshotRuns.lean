import SurfaceAi.Knowledge.Snapshot
import SurfaceAi.Library.Exchanges

/-! Which snapshots can be restored, over runs of snapshot calls and writes. Restoring one
rolls its own row back to the moment it had no savepoint name: from then on it can be
restored no more, and no further snapshot can be taken, since the next row has no name
either. Deleting one drops the savepoints above it. So every snapshot stays restorable
exactly as long as none is restored and each deletion is of the newest one left. -/

namespace SurfaceAi.Knowledge.SnapshotRuns

open Exchanges Savepoint Tables Snapshot

variable {D Text : Type}

/-- A snapshot that was created: its id and label, and the tables at that moment. -/
structure Taken (Text : Type) where
  id : ℤ
  label : String
  content : Tables Text

/-- The database, with the snapshots that were created and not deleted, newest first. -/
structure Watched (Text : Type) where
  db : Database Text
  live : List (Taken Text)

inductive SnapshotCall (D : Type) where
  | write (req : Request D)
  | create (label : String)
  | restore (id : ℤ)
  | delete (id : ℤ)

/-- A new database. -/
def opened : Watched Text := ⟨⟨fresh, false, []⟩, []⟩

/-- Answer a call. SQLite fails no statement of a snapshot call but for its own rules. -/
def answer (codec : JsonCodec D Text) :
    SnapshotCall D → Watched Text → Result Reply × Watched Text
  | .write req, w =>
    let r := serve codec w.db.inTransaction req w.db.content
    (r.1, ⟨w.db.set r.2, w.live⟩)
  | .create label, w =>
    let r := create .sound label w.db
    (r.1.map .id, ⟨r.2, match r.1 with
      | .ok id => ⟨id, label, w.db.content⟩ :: w.live
      | .error _ => w.live⟩)
  | .restore id, w =>
    let r := restore .sound id w.db
    (r.1.map fun _ => .done, ⟨r.2, w.live⟩)
  | .delete id, w =>
    let r := delete .sound id w.db
    (r.1.map fun _ => .done,
      ⟨r.2, if hasValue r.1 then w.live.filter fun s => s.id ≠ id else w.live⟩)

/-- Restoring the snapshot succeeds and brings its nodes and edges back. -/
def Restorable (db : Database Text) (s : Taken Text) : Prop :=
  (restore .sound s.id db).1 = .ok () ∧
    (restore .sound s.id db).2.content.nodes = s.content.nodes ∧
    (restore .sound s.id db).2.content.edges = s.content.edges

/-- Every snapshot left can be restored, and another one can be taken. -/
structure Usable (w : Watched Text) : Prop where
  restorable : ∀ s ∈ w.live, Restorable w.db s
  creatable : ∀ label, hasValue (create .sound label w.db).1 = true

/-- The call restores no snapshot that is left, and deletes at most the newest of them. -/
def LeavesStack (x : Exchange (Watched Text) (SnapshotCall D) (Result Reply)) : Prop :=
  match x.call with
  | .write _ => True
  | .create _ => True
  | .restore id => ∀ s ∈ x.before.live, s.id ≠ id
  | .delete id => ∀ s ∈ x.before.live.tail, s.id ≠ id

theorem savepointName_ne_empty (id : ℤ) : savepointName id ≠ "" := by
  intro h
  have := congrArg String.length h
  simp [savepointName] at this

theorem repr_inj {m n : ℕ} (h : m.repr = n.repr) : m = n := by
  have hd := congrArg String.toList h
  simp only [Nat.repr, String.toList_ofList] at hd
  rw [← Nat.ofDigitChars_ten_toDigits (n := m), hd, Nat.ofDigitChars_ten_toDigits]

theorem savepointName_inj {i j : ℤ} (hi : 0 ≤ i) (hj : 0 ≤ j)
    (h : savepointName i = savepointName j) : i = j := by
  obtain ⟨m, rfl⟩ := Int.eq_ofNat_of_zero_le hi
  obtain ⟨n, rfl⟩ := Int.eq_ofNat_of_zero_le hj
  have hrepr : m.repr = n.repr := String.append_right_inj _ |>.mp h
  rw [repr_inj hrepr]

/-- As long as nothing was restored and deletions were of the newest snapshot: the stack is
the snapshots left, each over the tables it was taken of with its own row still unnamed,
and the rows are theirs too, named. -/
structure Stacked (w : Watched Text) : Prop where
  stack : w.db.savepoints = w.live.map fun s => (savepointName s.id, addRow s.label s.content)
  named : ∀ row ∈ w.db.content.snapshots, row.savepointName = savepointName row.snapshotId
  owned : ∀ row ∈ w.db.content.snapshots, ∃ s ∈ w.live, s.id = row.snapshotId
  found : ∀ s ∈ w.live, ∃ row ∈ w.db.content.snapshots, row.snapshotId = s.id
  order : w.live.Pairwise fun s s' => s'.id < s.id
  bounds : ∀ s ∈ w.live, 0 < s.id ∧ s.id ≤ w.db.content.lastSnapshotId
  last : 0 ≤ w.db.content.lastSnapshotId
  taken : ∀ s ∈ w.live, s.id = s.content.lastSnapshotId + 1 ∧
    ∀ row ∈ s.content.snapshots, row.snapshotId ≤ s.content.lastSnapshotId

theorem stacked_opened : Stacked (opened : Watched Text) where
  stack := rfl
  named := by intro row hrow; cases hrow
  owned := by intro row hrow; cases hrow
  found := by intro s hs; cases hs
  order := .nil
  bounds := by intro s hs; cases hs
  last := Int.le_refl 0
  taken := by intro s hs; cases hs

theorem find?_of_named (rows : List SnapshotRow) {id : ℤ}
    (hnamed : ∀ row ∈ rows, row.savepointName = savepointName row.snapshotId)
    (hfound : ∃ row ∈ rows, row.snapshotId = id) :
    ∃ row, (rows.find? fun row => row.snapshotId = id) = some row ∧
      row.savepointName = savepointName id := by
  obtain ⟨row, hrow, hid⟩ := hfound
  cases hfind : rows.find? fun row => row.snapshotId = id with
  | none => exact absurd hid (by simpa using List.find?_eq_none.mp hfind row hrow)
  | some row' =>
    have hid' : row'.snapshotId = id := by simpa using List.find?_some hfind
    exact ⟨row', rfl, hid' ▸ hnamed row' (List.mem_of_find?_eq_some hfind)⟩

namespace Stacked

variable {w : Watched Text} {s : Taken Text}

theorem row_le (h : Stacked w) : ∀ row ∈ w.db.content.snapshots,
    row.snapshotId ≤ w.db.content.lastSnapshotId := by
  intro row hrow
  obtain ⟨s, hs, hid⟩ := h.owned row hrow
  exact hid ▸ (h.bounds s hs).2

theorem find?_row (h : Stacked w) (hs : s ∈ w.live) :
    ∃ row, (w.db.content.snapshots.find? fun row => row.snapshotId = s.id) = some row ∧
      row.savepointName = savepointName s.id :=
  find?_of_named _ h.named (h.found s hs)

theorem find?_none (h : Stacked w) {id : ℤ} (hid : ∀ s ∈ w.live, s.id ≠ id) :
    (w.db.content.snapshots.find? fun row => row.snapshotId = id) = none := by
  rw [List.find?_eq_none]
  intro row hrow
  obtain ⟨s, hs, hrowid⟩ := h.owned row hrow
  simpa [← hrowid] using hid s hs

/-- The savepoints above a snapshot's have other names. -/
theorem notMem_newer (h : Stacked w) {newer older : List (Taken Text)}
    (hlive : w.live = newer ++ s :: older) :
    savepointName s.id ∉ (newer.map fun s => (savepointName s.id,
      addRow s.label s.content)).map Prod.fst := by
  intro hmem
  simp only [List.map_map, List.mem_map, Function.comp_apply] at hmem
  obtain ⟨s', hs', hname⟩ := hmem
  have horder := h.order
  rw [hlive] at horder
  have hlt := (List.pairwise_append.mp horder).2.2 s' hs' s (List.mem_cons_self ..)
  have hpos' := (h.bounds s' (hlive ▸ List.mem_append_left _ hs')).1
  have hpos := (h.bounds s (hlive ▸ List.mem_append_right _ (List.mem_cons_self ..))).1
  have hid := savepointName_inj (by omega) (by omega) hname
  omega

theorem stack_split (h : Stacked w) {newer older : List (Taken Text)}
    (hlive : w.live = newer ++ s :: older) :
    w.db.savepoints =
      (newer.map fun s => (savepointName s.id, addRow s.label s.content)) ++
        (savepointName s.id, addRow s.label s.content) ::
          older.map fun s => (savepointName s.id, addRow s.label s.content) := by
  rw [h.stack, hlive, List.map_append, List.map_cons]

/-- What restoring one of the snapshots left comes to. -/
theorem restore_eq (h : Stacked w) (hs : s ∈ w.live) :
    ∃ older, restore .sound s.id w.db =
      (.ok (), { w.db with
        content := addRow s.label s.content
        savepoints := (savepointName s.id, addRow s.label s.content) :: older }) := by
  obtain ⟨newer, older, hlive⟩ := List.append_of_mem hs
  obtain ⟨row, hrow, hname⟩ := h.find?_row hs
  have hroll := Session.rollbackTo_of_stack (h.stack_split hlive) (h.notMem_newer hlive)
  exact ⟨_, restore_sound hrow hname (savepointName_ne_empty _) hroll⟩

theorem create_eq (h : Stacked w) (label : String) :
    create .sound label w.db =
      (.ok (w.db.content.lastSnapshotId + 1),
        { content := Snapshot.named label w.db.content
          begun := (w.db.begin.getD w.db).begun
          savepoints := (savepointName (w.db.content.lastSnapshotId + 1),
            addRow label w.db.content) :: w.db.savepoints }) := by
  have hlast := h.last
  refine create_sound label ?_ ?_
  · intro row hrow
    rw [h.named row hrow]
    exact savepointName_ne_empty _
  · intro row hrow hname
    rw [h.named row hrow] at hname
    obtain ⟨s, hs, hid⟩ := h.owned row hrow
    have hpos := (h.bounds s hs).1
    have hle := h.row_le row hrow
    have := savepointName_inj (by omega) (by omega) hname
    omega

theorem usable (h : Stacked w) : Usable w where
  restorable s hs := by
    obtain ⟨older, heq⟩ := h.restore_eq hs
    rw [Restorable, heq]
    exact ⟨rfl, rfl, rfl⟩
  creatable label := by
    rw [h.create_eq label]
    rfl

/-- Restoring a snapshot leaves its row without a name. -/
theorem not_usable_restore (h : Stacked w) (hs : s ∈ w.live) (codec : JsonCodec D Text) :
    ¬Usable (answer codec (.restore s.id) w).2 := by
  intro husable
  obtain ⟨older, heq⟩ := h.restore_eq hs
  obtain ⟨hid, hrows⟩ := h.taken s hs
  have hagain := (husable.restorable s hs).1
  simp only [answer, heq] at hagain
  have hfind : ((addRow s.label s.content).snapshots.find? fun row => row.snapshotId = s.id) =
      some ⟨s.id, s.label, "", 0, 0⟩ := by
    have hnone : (s.content.snapshots.find? fun row => row.snapshotId = s.id) = none := by
      rw [List.find?_eq_none]
      intro row hrow
      have := hrows row hrow
      simp only [decide_eq_true_eq]
      omega
    simp only [addRow, List.find?_append, hnone, Option.none_or, ← hid]
    simp
  exact restore_unnamed _ hfind rfl hagain

/-- What deleting one of the snapshots left comes to. -/
theorem delete_eq (h : Stacked w) (newer older : List (Taken Text))
    (hlive : w.live = newer ++ s :: older) :
    delete .sound s.id w.db =
      (.ok (), { w.db with
        content := removeRow s.id w.db.content
        savepoints := older.map fun s => (savepointName s.id, addRow s.label s.content) }) := by
  have hs : s ∈ w.live := hlive ▸ List.mem_append_right _ (List.mem_cons_self ..)
  obtain ⟨row, hrow, hname⟩ := h.find?_row hs
  have hrelease := Session.release_of_stack (h.stack_split hlive) (h.notMem_newer hlive)
  exact delete_sound hrow hname (savepointName_ne_empty _) hrelease

/-- Deleting a snapshot below the newest drops the newest one's savepoint. -/
theorem not_usable_delete (h : Stacked w) (hs : s ∈ w.live.tail) (codec : JsonCodec D Text) :
    ¬Usable (answer codec (.delete s.id) w).2 := by
  intro husable
  obtain ⟨newer, older, htail⟩ := List.append_of_mem hs
  cases hcons : w.live with
  | nil => rw [hcons] at hs; cases hs
  | cons s₀ rest =>
    rw [hcons, List.tail_cons] at htail
    subst htail
    have hs₀ : s₀ ∈ w.live := hcons ▸ List.mem_cons_self ..
    have horder := h.order
    rw [hcons, List.pairwise_cons] at horder
    have hlt : ∀ s' ∈ s :: older, s'.id < s₀.id :=
      fun s' hs' => horder.1 s' (List.mem_append_right _ hs')
    have hne : s₀.id ≠ s.id := by
      have := hlt s (List.mem_cons_self ..)
      omega
    have heq := h.delete_eq (s₀ :: newer) older hcons
    have hleft : s₀ ∈ (answer codec (.delete s.id) w).2.live := by
      simp only [answer, heq, hasValue_ok, if_true, List.mem_filter, decide_eq_true_eq]
      exact ⟨hs₀, hne⟩
    have hagain := (husable.restorable s₀ hleft).1
    simp only [answer, heq] at hagain
    obtain ⟨row₀, hrow₀, hid₀⟩ := h.found s₀ hs₀
    obtain ⟨row, hrow, hname⟩ := find?_of_named (removeRow s.id w.db.content).snapshots
      (fun row hrow => h.named row (List.mem_filter.mp hrow).1)
      ⟨row₀, List.mem_filter.mpr ⟨hrow₀, by simp [hid₀, hne]⟩, hid₀⟩
    refine restore_gone hrow hname (Session.rollbackTo_of_notMem ?_) hagain
    intro hmem
    simp only [List.map_map, List.mem_map, Function.comp_apply] at hmem
    obtain ⟨s', hs', hname'⟩ := hmem
    have hmem' : s' ∈ w.live := hcons ▸ List.mem_cons_of_mem _
      (List.mem_append_right _ (List.mem_cons_of_mem _ hs'))
    have hpos := (h.bounds s' hmem').1
    have hpos₀ := (h.bounds s₀ hs₀).1
    have hid := savepointName_inj (by omega) (by omega) hname'
    have := hlt s' (List.mem_cons_of_mem _ hs')
    omega

/-- A write keeps the rows of the snapshots and their ids. -/
theorem write (h : Stacked w) {t : Tables Text} (hrows : t.snapshots = w.db.content.snapshots)
    (hlast : t.lastSnapshotId = w.db.content.lastSnapshotId) :
    Stacked ⟨w.db.set t, w.live⟩ where
  stack := h.stack
  named := by
    simp only [Session.set_content, hrows]
    exact h.named
  owned := by
    simp only [Session.set_content, hrows]
    exact h.owned
  found := by
    simp only [Session.set_content, hrows]
    exact h.found
  order := h.order
  bounds := by
    simp only [Session.set_content, hlast]
    exact h.bounds
  last := by
    simp only [Session.set_content, hlast]
    exact h.last
  taken := h.taken

theorem mem_named {label : String} {t : Tables Text} {row : SnapshotRow}
    (hrow : row ∈ (Snapshot.named label t).snapshots) :
    (row.snapshotId = t.lastSnapshotId + 1 ∧
        row.savepointName = savepointName (t.lastSnapshotId + 1)) ∨ row ∈ t.snapshots := by
  obtain ⟨row', hrow', rfl⟩ := List.mem_map.mp hrow
  split_ifs with hid
  · exact .inl ⟨hid, rfl⟩
  · rcases List.mem_append.mp hrow' with hold | hnew
    · exact .inr hold
    · obtain rfl := List.mem_singleton.mp hnew
      exact absurd rfl hid

theorem exists_mem_named {label : String} {t : Tables Text} {id : ℤ}
    (h : id = t.lastSnapshotId + 1 ∨ ∃ row ∈ t.snapshots, row.snapshotId = id) :
    ∃ row ∈ (Snapshot.named label t).snapshots, row.snapshotId = id := by
  have hkeep : ∀ row ∈ (addRow label t).snapshots, ∃ row' ∈ (Snapshot.named label t).snapshots,
      row'.snapshotId = row.snapshotId := by
    intro row hrow
    refine ⟨_, List.mem_map.mpr ⟨row, hrow, rfl⟩, ?_⟩
    split_ifs <;> rfl
  rcases h with rfl | ⟨row, hrow, rfl⟩
  · exact hkeep ⟨t.lastSnapshotId + 1, label, "", 0, 0⟩
      (List.mem_append_right _ (List.mem_singleton.mpr rfl))
  · exact hkeep row (List.mem_append_left _ hrow)

theorem create (h : Stacked w) (label : String) (begun : Bool) :
    Stacked ⟨{ content := Snapshot.named label w.db.content
               begun := begun
               savepoints := (savepointName (w.db.content.lastSnapshotId + 1),
                 addRow label w.db.content) :: w.db.savepoints },
      ⟨w.db.content.lastSnapshotId + 1, label, w.db.content⟩ :: w.live⟩ where
  stack := by rw [h.stack, List.map_cons]
  named row hrow := by
    rcases mem_named hrow with ⟨hid, hname⟩ | hold
    · rw [hname, hid]
    · exact h.named row hold
  owned row hrow := by
    rcases mem_named hrow with ⟨hid, -⟩ | hold
    · exact ⟨_, List.mem_cons_self .., hid.symm⟩
    · obtain ⟨s, hs, hid⟩ := h.owned row hold
      exact ⟨s, List.mem_cons_of_mem _ hs, hid⟩
  found s hs := by
    rcases List.mem_cons.mp hs with rfl | hs
    · exact exists_mem_named (.inl rfl)
    · exact exists_mem_named (.inr (h.found s hs))
  order := by
    refine List.pairwise_cons.mpr ⟨fun s hs => ?_, h.order⟩
    have := (h.bounds s hs).2
    show s.id < w.db.content.lastSnapshotId + 1
    omega
  bounds s hs := by
    show 0 < s.id ∧ s.id ≤ w.db.content.lastSnapshotId + 1
    have hlast := h.last
    rcases List.mem_cons.mp hs with rfl | hs
    · exact ⟨by show 0 < w.db.content.lastSnapshotId + 1; omega, Int.le_refl _⟩
    · have := h.bounds s hs
      omega
  last := by
    have hlast := h.last
    show 0 ≤ w.db.content.lastSnapshotId + 1
    omega
  taken s hs := by
    rcases List.mem_cons.mp hs with rfl | hs
    · exact ⟨rfl, h.row_le⟩
    · exact h.taken s hs

/-- Deleting the newest snapshot. -/
theorem delete (h : Stacked w) {s : Taken Text} {older : List (Taken Text)}
    (hlive : w.live = s :: older) :
    Stacked ⟨{ w.db with
        content := removeRow s.id w.db.content
        savepoints := older.map fun s => (savepointName s.id, addRow s.label s.content) },
      older⟩ where
  stack := rfl
  named row hrow := h.named row (List.mem_filter.mp hrow).1
  owned row hrow := by
    obtain ⟨hmem, hne⟩ := List.mem_filter.mp hrow
    obtain ⟨s', hs', hid⟩ := h.owned row hmem
    rw [hlive] at hs'
    rcases List.mem_cons.mp hs' with rfl | hs'
    · exact absurd hid.symm (by simpa using hne)
    · exact ⟨s', hs', hid⟩
  found s' hs' := by
    obtain ⟨row, hrow, hid⟩ := h.found s' (hlive ▸ List.mem_cons_of_mem _ hs')
    have horder := h.order
    rw [hlive, List.pairwise_cons] at horder
    have := horder.1 s' hs'
    refine ⟨row, List.mem_filter.mpr ⟨hrow, ?_⟩, hid⟩
    simp only [decide_eq_true_eq]
    omega
  order := by
    have horder := h.order
    rw [hlive, List.pairwise_cons] at horder
    exact horder.2
  bounds s' hs' := h.bounds s' (hlive ▸ List.mem_cons_of_mem _ hs')
  last := h.last
  taken s' hs' := h.taken s' (hlive ▸ List.mem_cons_of_mem _ hs')

/-- A call that restores nothing and deletes at most the newest snapshot. -/
theorem answer (h : Stacked w) (codec : JsonCodec D Text) (c : SnapshotCall D)
    (hc : LeavesStack (exchange (SnapshotRuns.answer codec) w c)) :
    Stacked (SnapshotRuns.answer codec c w).2 := by
  cases c with
  | write req =>
    obtain ⟨hrows, hlast⟩ := serve_snapshots codec w.db.inTransaction req w.db.content
    exact h.write hrows hlast
  | create label =>
    have heq := h.create_eq label
    simp only [SnapshotRuns.answer, heq]
    exact h.create label _
  | restore id =>
    have hsame := restore_missing (h.find?_none hc)
    simp only [SnapshotRuns.answer, hsame]
    exact h
  | delete id =>
    by_cases hid : ∀ s ∈ w.live, s.id ≠ id
    · obtain ⟨hvalue, hsame⟩ := delete_missing (h.find?_none hid)
      simp only [SnapshotRuns.answer, hsame, hvalue]
      exact h
    · cases hlive : w.live with
      | nil => simp [hlive] at hid
      | cons s older =>
        have htail : ∀ s' ∈ older, s'.id ≠ id := by
          intro s' hs'
          exact hc s' (by simpa [exchange, hlive] using hs')
        have hs : s.id = id := by
          by_contra hne
          refine hid fun s' hs' => ?_
          rw [hlive] at hs'
          rcases List.mem_cons.mp hs' with rfl | hs'
          · exact hne
          · exact htail s' hs'
        subst hs
        have heq := h.delete_eq [] older hlive
        have hlast := h.delete hlive
        have hfilter : (w.live.filter fun s' => s'.id ≠ s.id) = older := by
          rw [hlive, List.filter_cons_of_neg (by simp)]
          exact List.filter_eq_self.mpr fun s' hs' => by simpa using htail s' hs'
        simp only [SnapshotRuns.answer, heq, hasValue_ok, if_true, hfilter]
        exact hlast

/-- After one call every snapshot left is usable exactly if the call restores none of them
and deletes at most the newest. -/
theorem usable_iff (codec : JsonCodec D Text) (w : Watched Text) (c : SnapshotCall D)
    (h : Stacked w) :
    Usable (exchange (SnapshotRuns.answer codec) w c).after ↔
      LeavesStack (exchange (SnapshotRuns.answer codec) w c) := by
  constructor
  · intro husable
    cases c with
    | write | create => trivial
    | restore id =>
      rintro s hs rfl
      exact h.not_usable_restore hs codec husable
    | delete id =>
      rintro s hs rfl
      exact h.not_usable_delete hs codec husable
  · exact fun hc => (h.answer codec c hc).usable

end Stacked

/-- In every run on a new store each snapshot that was created and not deleted can be
restored, and another can be taken, after every call exactly if none of them is restored
and each deletion is of the newest one left. -/
theorem snapshots_usable_iff (codec : JsonCodec D Text) (calls : List (SnapshotCall D)) :
    (∀ x ∈ exchanges (answer codec) opened calls, Usable x.after) ↔
      ∀ x ∈ exchanges (answer codec) opened calls, LeavesStack x :=
  forall_iff (fun w c h => Stacked.usable_iff codec w c h)
    (fun w c h husable => h.answer codec c ((Stacked.usable_iff codec w c h).mp husable))
    stacked_opened calls

/-- Restoring the one snapshot there is makes it, and every later one, impossible. -/
theorem snapshots_not_usable :
    ¬∀ x ∈ exchanges (answer (JsonCodec.plain fun _ : ℤ => true)) opened
      [.create "before", .restore 1], Usable x.after := by
  intro h
  have hlast := (h _ (List.mem_cons_of_mem _ (List.mem_cons_self ..))).creatable "after"
  exact absurd hlast (by decide)

end SurfaceAi.Knowledge.SnapshotRuns
