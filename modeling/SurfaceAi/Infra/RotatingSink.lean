import Mathlib.Algebra.GroupWithZero.Nat
import Mathlib.Data.List.Infix
import Mathlib.Data.List.Induction
import Mathlib.Logic.Function.Basic

/-! The log sink that rotates its files when the day changes or the active file would grow too
large. The log directory holds a file or none under each index; index 0 is the active file. -/

namespace SurfaceAi.Infra

/-- What the sink compares of a time: `tm_yday` and `tm_year`. -/
structure Day where
  yday : ℤ
  year : ℤ
  deriving DecidableEq

/-- A formatted message and the day it is written on. -/
structure Record where
  text : List UInt8
  day : Day
  deriving DecidableEq

/-- A piece of a file: what stood there at start-up, or a record written since. -/
inductive Entry where
  | found (text : List UInt8)
  | written (record : Record)
  deriving DecidableEq

def Entry.size : Entry → ℕ
  | .found text => text.length
  | .written record => record.text.length

def fileSize (file : List Entry) : ℕ := (file.map Entry.size).sum

abbrev Directory := ℕ → Option (List Entry)

namespace Directory
variable (files : Directory)

def pathExists (i : ℕ) : Bool := (files i).isSome

def remove (i : ℕ) : Directory := Function.update files i none

def rename (src target : ℕ) : Directory :=
  Function.update (Function.update files src none) target (files src)

/-- The files of the indices up to `n` behind one another, the highest index first. -/
def contents : ℕ → List Entry
  | 0 => (files 0).getD []
  | n + 1 => (files (n + 1)).getD [] ++ contents n

/-- The renames of `Rotate_`: for `i` from `max_files` down to 1, file `i - 1` takes the
place of file `i`. -/
def cascade : ℕ → Directory → Directory
  | 0, files => files
  | i + 1, files =>
    if files.pathExists i then cascade i ((files.remove (i + 1)).rename i (i + 1))
    else cascade i files

theorem contents_congr {files files' : Directory} {n : ℕ} (h : ∀ i ≤ n, files i = files' i) :
    files.contents n = files'.contents n := by
  induction n with
  | zero => rw [contents, contents, h 0 (Nat.le_refl 0)]
  | succ n ih =>
    rw [contents, contents, h (n + 1) (Nat.le_refl _), ih fun i hi => h i (Nat.le_succ_of_le hi)]

/-- The active file stands behind the others. -/
theorem contents_update_zero (n : ℕ) :
    ∃ older, ∀ file : Option (List Entry),
      contents (Function.update files 0 file) n = older ++ file.getD [] := by
  induction n with
  | zero => exact ⟨[], fun file => by rw [contents, Function.update_self, List.nil_append]⟩
  | succ n ih =>
    obtain ⟨older, holder⟩ := ih
    refine ⟨(files (n + 1)).getD [] ++ older, fun file => ?_⟩
    rw [contents, holder, Function.update_of_ne (Nat.succ_ne_zero n), List.append_assoc]

section Moved

/-- One turn of the cascade. -/
def moved (i : ℕ) : Directory := (files.remove (i + 1)).rename i (i + 1)

theorem moved_target (i : ℕ) : files.moved i (i + 1) = files i := by
  rw [moved, rename, Function.update_self, remove, Function.update_of_ne (Nat.ne_of_lt i.lt_succ_self)]

theorem moved_src (i : ℕ) : files.moved i i = none := by
  rw [moved, rename, Function.update_of_ne (Nat.ne_of_lt i.lt_succ_self), Function.update_self]

theorem moved_other {i j : ℕ} (hsrc : j ≠ i) (htarget : j ≠ i + 1) :
    files.moved i j = files j := by
  rw [moved, rename, Function.update_of_ne htarget, Function.update_of_ne hsrc, remove,
    Function.update_of_ne htarget]

theorem cascade_none {i : ℕ} (h : files i = none) : files.cascade (i + 1) = files.cascade i := by
  rw [cascade, pathExists, h]
  rfl

theorem cascade_some {i : ℕ} {file : List Entry} (h : files i = some file) :
    files.cascade (i + 1) = (files.moved i).cascade i := by
  rw [cascade, pathExists, h]
  rfl

end Moved

/-- The files behind the cascade's range stay. -/
theorem cascade_of_lt {n i : ℕ} (h : n < i) : files.cascade n i = files i := by
  induction n generalizing files with
  | zero => rfl
  | succ n ih =>
    have hother : n < i := Nat.lt_of_succ_lt h
    cases hsrc : files n with
    | none => rw [files.cascade_none hsrc, ih files hother]
    | some file =>
      rw [files.cascade_some hsrc, ih _ hother,
        files.moved_other (Nat.ne_of_gt hother) (Nat.ne_of_gt h)]

/-- Every file of the cascade was one before. -/
theorem cascade_mem {n i : ℕ} {file : List Entry} (h : files.cascade n i = some file) :
    ∃ j, files j = some file := by
  induction n generalizing files with
  | zero => exact ⟨i, h⟩
  | succ n ih =>
    cases hsrc : files n with
    | none =>
      rw [files.cascade_none hsrc] at h
      exact ih files h
    | some src =>
      rw [files.cascade_some hsrc] at h
      obtain ⟨j, hj⟩ := ih _ h
      rcases eq_or_ne j (n + 1) with rfl | htarget
      · exact ⟨n, (files.moved_target n).symm.trans hj⟩
      · rcases eq_or_ne j n with rfl | hne
        · rw [files.moved_src] at hj
          cases hj
        · exact ⟨j, (files.moved_other hne htarget).symm.trans hj⟩

/-- The active file is moved away, unless there is nowhere to move it. -/
theorem cascade_zero (n : ℕ) : files.cascade (n + 1) 0 = none := by
  induction n generalizing files with
  | zero =>
    cases hsrc : files 0 with
    | none => rw [files.cascade_none hsrc, cascade, hsrc]
    | some file => rw [files.cascade_some hsrc, cascade, files.moved_src]
  | succ n ih =>
    cases hsrc : files (n + 1) with
    | none => rw [files.cascade_none hsrc, ih]
    | some file => rw [files.cascade_some hsrc, ih]

/-- A turn moves the files up to its source by one place. -/
theorem contents_moved (n : ℕ) : (files.moved n).contents (n + 1) = files.contents n := by
  rw [contents, files.moved_target]
  cases n with
  | zero => rw [contents, files.moved_src, contents, Option.getD_none, List.append_nil]
  | succ n =>
    have hbelow : (files.moved (n + 1)).contents n = files.contents n :=
      contents_congr fun i hi => files.moved_other (by omega) (by omega)
    rw [contents, files.moved_src, contents, hbelow, Option.getD_none, List.nil_append]

/-- A gap at the top takes up the file below it, and nothing is lost. -/
theorem contents_cascade_of_none {n : ℕ} (h : files n = none) :
    (files.cascade n).contents n = files.contents n := by
  induction n generalizing files with
  | zero => rfl
  | succ n ih =>
    cases hsrc : files n with
    | none =>
      rw [files.cascade_none hsrc, contents, contents, files.cascade_of_lt n.lt_succ_self,
        ih files hsrc]
    | some file =>
      rw [files.cascade_some hsrc, contents, cascade_of_lt _ n.lt_succ_self,
        ih _ (files.moved_src n), ← contents, files.contents_moved, contents, h,
        Option.getD_none, List.nil_append]

/-- The cascade loses the file of the highest index at most. -/
theorem contents_cascade_suffix (n : ℕ) :
    (files.cascade n).contents n <:+ files.contents n := by
  cases n with
  | zero => exact List.suffix_refl _
  | succ n =>
    cases hsrc : files n with
    | none =>
      rw [files.cascade_none hsrc, contents, contents, files.cascade_of_lt n.lt_succ_self,
        files.contents_cascade_of_none hsrc]
    | some file =>
      rw [files.cascade_some hsrc, contents, cascade_of_lt _ n.lt_succ_self,
        contents_cascade_of_none _ (files.moved_src n), ← contents, files.contents_moved]
      exact List.suffix_append _ _

end Directory

structure RotatingSink where
  maxSize : ℕ
  maxFiles : ℕ
  files : Directory
  currentSize : ℕ
  currentDay : Day

namespace RotatingSink

/-- What the directory holds before start-up. -/
def foundFiles (initial : ℕ → Option (List UInt8)) : Directory :=
  fun i => (initial i).map fun text => [.found text]

/-- Opening for appending creates the file if it is missing. -/
def opened (files : Directory) : Directory :=
  Function.update files 0 (some ((files 0).getD []))

def create (maxSize maxFiles : ℕ) (initial : ℕ → Option (List UInt8)) (now : Day) :
    RotatingSink where
  maxSize := maxSize
  maxFiles := maxFiles
  files := opened (foundFiles initial)
  currentSize := fileSize ((foundFiles initial 0).getD [])
  currentDay := now

variable (s : RotatingSink)

/-- The cascade, and then a fresh, truncated active file. -/
def rotate : RotatingSink :=
  { s with files := Function.update (s.files.cascade s.maxFiles) 0 (some []) }

/-- The file helper appends to the active file. -/
def write (record : Record) : RotatingSink :=
  { s with
    files := Function.update s.files 0 (some ((s.files 0).getD [] ++ [.written record]))
    currentSize := s.currentSize + record.text.length }

/-- `sink_it_`, where `record.day` is the time read for it. -/
def sinkIt (record : Record) : RotatingSink :=
  if record.day ≠ s.currentDay ∨ s.currentSize + record.text.length > s.maxSize then
    RotatingSink.write { s.rotate with currentDay := record.day, currentSize := 0 } record
  else s.write record

def sinkAll (records : List Record) : RotatingSink := records.foldl sinkIt s

theorem create_files (maxSize maxFiles : ℕ) (initial : ℕ → Option (List UInt8)) (now : Day) :
    (create maxSize maxFiles initial now).files =
      Function.update (foundFiles initial) 0 (some ((foundFiles initial 0).getD [])) := rfl

theorem rotate_files :
    s.rotate.files = Function.update (s.files.cascade s.maxFiles) 0 (some []) := rfl

theorem write_files (record : Record) :
    (s.write record).files =
      Function.update s.files 0 (some ((s.files 0).getD [] ++ [.written record])) := rfl

theorem rotate_contents_suffix :
    s.rotate.files.contents s.maxFiles <:+ s.files.contents s.maxFiles := by
  have hsuffix := s.files.contents_cascade_suffix s.maxFiles
  have hactive := s.files.cascade_zero (s.maxFiles - 1)
  obtain ⟨older, holder⟩ := (s.files.cascade s.maxFiles).contents_update_zero s.maxFiles
  have hcascade := holder (s.files.cascade s.maxFiles 0)
  rw [Function.update_eq_self] at hcascade
  rw [rotate_files, holder, Option.getD_some, List.append_nil]
  cases hmax : s.maxFiles with
  | zero =>
    -- There is one file only, and it is truncated.
    rw [hmax, Directory.contents, List.self_eq_append_left] at hcascade
    rw [hcascade]
    exact List.nil_suffix
  | succ n =>
    rw [hmax, Nat.add_sub_cancel] at hactive
    rw [hmax, hactive, Option.getD_none, List.append_nil] at hcascade
    rwa [hmax, hcascade] at hsuffix

theorem write_contents (record : Record) :
    (s.write record).files.contents s.maxFiles =
      s.files.contents s.maxFiles ++ [.written record] := by
  obtain ⟨older, holder⟩ := s.files.contents_update_zero s.maxFiles
  have hbefore := holder (s.files 0)
  rw [Function.update_eq_self] at hbefore
  rw [write_files, holder, hbefore, Option.getD_some, List.append_assoc]

/-- The sink rotated if it has to be, before it writes. -/
def prepared (record : Record) : RotatingSink :=
  if record.day ≠ s.currentDay ∨ s.currentSize + record.text.length > s.maxSize then
    { s.rotate with currentDay := record.day, currentSize := 0 }
  else s

theorem sinkIt_eq (record : Record) : s.sinkIt record = (s.prepared record).write record := by
  rw [sinkIt, prepared]
  split_ifs <;> rfl

/-- A file that the sink wrote to is small enough or a single record, and of one day. -/
structure Sound (maxSize : ℕ) (file : List Entry) : Prop where
  size : (∃ r, .written r ∈ file) → fileSize file ≤ maxSize ∨ ∃ r, file = [.written r]
  day : ∀ r r', .written r ∈ file → .written r' ∈ file → r.day = r'.day

theorem Sound.of_found {maxSize : ℕ} {file : List Entry} (h : ∀ r, .written r ∉ file) :
    Sound maxSize file where
  size := fun ⟨r, hr⟩ => absurd hr (h r)
  day r _ hr := absurd hr (h r)

/-- The active file is open, its size is known, and its records are of the current day. -/
structure Running (maxSize maxFiles : ℕ) (s : RotatingSink) : Prop where
  maxSize_eq : s.maxSize = maxSize
  maxFiles_eq : s.maxFiles = maxFiles
  sound : ∀ i file, s.files i = some file → Sound maxSize file
  active : ∃ file, s.files 0 = some file ∧ fileSize file = s.currentSize ∧
    ∀ r, .written r ∈ file → r.day = s.currentDay

theorem create_running (maxSize maxFiles : ℕ) (initial : ℕ → Option (List UInt8)) (now : Day) :
    (create maxSize maxFiles initial now).Running maxSize maxFiles := by
  have hfound : ∀ i file, foundFiles initial i = some file → ∀ r, .written r ∉ file := by
    intro i file hfile r hr
    obtain ⟨text, -, rfl⟩ := Option.map_eq_some_iff.mp hfile
    simp at hr
  have hactive : ∀ r, .written r ∉ (foundFiles initial 0).getD [] := by
    intro r hr
    cases hzero : foundFiles initial 0 with
    | none => simp [hzero] at hr
    | some file => exact hfound 0 file hzero r (by simpa [hzero] using hr)
  have hzero : (create maxSize maxFiles initial now).files 0 =
      some ((foundFiles initial 0).getD []) := by
    rw [create_files, Function.update_self]
  refine ⟨rfl, rfl, ?_, _, hzero, rfl, fun r hr => absurd hr (hactive r)⟩
  intro i file hfile
  rcases eq_or_ne i 0 with rfl | hne
  · obtain rfl := Option.some.inj (hzero.symm.trans hfile)
    exact Sound.of_found hactive
  · rw [create_files, Function.update_of_ne hne] at hfile
    exact Sound.of_found (hfound i file hfile)

variable {maxSize maxFiles : ℕ} {s}

/-- After the preparation the record is of the current day, and fits or comes first. -/
theorem Running.prepared (h : s.Running maxSize maxFiles) (record : Record) :
    (s.prepared record).Running maxSize maxFiles ∧
      (s.prepared record).currentDay = record.day ∧
      ((s.prepared record).currentSize + record.text.length ≤ maxSize ∨
        (s.prepared record).files 0 = some []) := by
  rw [RotatingSink.prepared]
  split_ifs with hrotate
  · have hactive : s.rotate.files 0 = some [] := by rw [rotate_files, Function.update_self]
    have hnone : ∀ r : Record, .written r ∉ ([] : List Entry) := fun r => List.not_mem_nil
    refine ⟨⟨h.maxSize_eq, h.maxFiles_eq, ?_, [], hactive, rfl,
      fun r hr => absurd hr (hnone r)⟩, rfl, .inr hactive⟩
    intro i file hfile
    rcases eq_or_ne i 0 with rfl | hne
    · obtain rfl := Option.some.inj (hactive.symm.trans hfile)
      exact Sound.of_found hnone
    · change s.rotate.files i = some file at hfile
      rw [rotate_files, Function.update_of_ne hne] at hfile
      obtain ⟨j, hj⟩ := s.files.cascade_mem hfile
      exact h.sound j file hj
  · obtain ⟨hday, hsize⟩ := not_or.mp hrotate
    rw [h.maxSize_eq] at hsize
    exact ⟨h, (not_not.mp hday).symm, .inl (Nat.le_of_not_gt hsize)⟩

theorem Running.write (h : s.Running maxSize maxFiles) {record : Record}
    (hday : s.currentDay = record.day)
    (hroom : s.currentSize + record.text.length ≤ maxSize ∨ s.files 0 = some []) :
    (s.write record).Running maxSize maxFiles := by
  obtain ⟨file, hfile, hsize, hdays⟩ := h.active
  have hactive : (s.write record).files 0 = some (file ++ [.written record]) := by
    rw [write_files, Function.update_self, hfile, Option.getD_some]
  have hsize' : fileSize (file ++ [.written record]) = s.currentSize + record.text.length := by
    rw [← hsize]
    simp [fileSize, Entry.size]
  have hdays' : ∀ r, .written r ∈ file ++ [.written record] → r.day = s.currentDay := by
    intro r hr
    rcases List.mem_append.mp hr with hr | hr
    · exact hdays r hr
    · obtain rfl := Entry.written.inj (List.mem_singleton.mp hr)
      exact hday.symm
  refine ⟨h.maxSize_eq, h.maxFiles_eq, ?_, _, hactive, hsize', hdays'⟩
  intro i other hother
  rcases eq_or_ne i 0 with rfl | hne
  · obtain rfl := Option.some.inj (hactive.symm.trans hother)
    refine ⟨fun _ => ?_, fun r r' hr hr' => (hdays' r hr).trans (hdays' r' hr').symm⟩
    rcases hroom with hroom | hempty
    · exact .inl (hsize'.trans_le hroom)
    · obtain rfl := Option.some.inj (hfile.symm.trans hempty)
      exact .inr ⟨record, rfl⟩
  · rw [write_files, Function.update_of_ne hne] at hother
    exact h.sound i other hother

theorem Running.sinkIt (h : s.Running maxSize maxFiles) (record : Record) :
    (s.sinkIt record).Running maxSize maxFiles := by
  obtain ⟨hprepared, hday, hroom⟩ := h.prepared record
  rw [sinkIt_eq]
  exact hprepared.write hday hroom

theorem sinkIt_contents_suffix (h : s.Running maxSize maxFiles) (record : Record) :
    (s.sinkIt record).files.contents maxFiles <:+
      s.files.contents maxFiles ++ [.written record] := by
  have hwrite := (s.prepared record).write_contents record
  rw [(h.prepared record).1.maxFiles_eq] at hwrite
  rw [sinkIt_eq, hwrite, List.suffix_append_self_iff, RotatingSink.prepared]
  split_ifs
  · exact h.maxFiles_eq ▸ s.rotate_contents_suffix
  · exact List.suffix_refl _

theorem sinkAll_append (s : RotatingSink) (records : List Record) (record : Record) :
    s.sinkAll (records ++ [record]) = (s.sinkAll records).sinkIt record := by
  rw [sinkAll, List.foldl_append]
  rfl

/-- Opening the active file adds nothing to the files. -/
theorem opened_contents (files : Directory) (n : ℕ) :
    (opened files).contents n = files.contents n := by
  obtain ⟨older, holder⟩ := files.contents_update_zero n
  have hbefore := holder (files 0)
  rw [Function.update_eq_self] at hbefore
  rw [opened, holder, hbefore, Option.getD_some]

theorem sinkAll_running (maxSize maxFiles : ℕ) (initial : ℕ → Option (List UInt8)) (now : Day)
    (records : List Record) :
    ((create maxSize maxFiles initial now).sinkAll records).Running maxSize maxFiles := by
  induction records using List.reverseRecOn with
  | nil => exact create_running maxSize maxFiles initial now
  | append_singleton records record ih =>
    rw [sinkAll_append]
    exact ih.sinkIt record

/-- Over every run the files hold the last of what they held at start-up followed by what was
written, in this order; a file the sink wrote to is small enough or holds a single record, and
its records are of one day. -/
theorem rotation_loses_oldest (maxSize maxFiles : ℕ) (initial : ℕ → Option (List UInt8))
    (now : Day) (records : List Record) :
    let s := (create maxSize maxFiles initial now).sinkAll records
    s.files.contents maxFiles <:+
        (foundFiles initial).contents maxFiles ++ records.map .written ∧
      (∀ i file, s.files i = some file → (∃ r, .written r ∈ file) →
        fileSize file ≤ maxSize ∨ ∃ r, file = [.written r]) ∧
      ∀ i file, s.files i = some file → ∀ r r', .written r ∈ file → .written r' ∈ file →
        r.day = r'.day := by
  intro s
  have hrunning := sinkAll_running maxSize maxFiles initial now records
  refine ⟨?_, fun i file hfile => (hrunning.sound i file hfile).size,
    fun i file hfile => (hrunning.sound i file hfile).day⟩
  subst s
  clear hrunning
  induction records using List.reverseRecOn with
  | nil =>
    have hstart : ((create maxSize maxFiles initial now).sinkAll []).files.contents maxFiles =
        (foundFiles initial).contents maxFiles := opened_contents _ maxFiles
    rw [List.map_nil, List.append_nil, hstart]
  | append_singleton records record ih =>
    have hrunning := sinkAll_running maxSize maxFiles initial now records
    rw [sinkAll_append, List.map_append, ← List.append_assoc]
    exact (sinkIt_contents_suffix hrunning record).trans (List.suffix_append_self_iff.mpr ih)

/-- The file of index 1 moves into the gap behind it, and the one of index 3 stays. -/
example : ((create 2 3 (fun i => if i = 1 ∨ i = 3 then some [0] else none) ⟨0, 0⟩).sinkAll
    [⟨[1, 2], ⟨0, 0⟩⟩, ⟨[3], ⟨0, 0⟩⟩]).files.contents 3 =
      [.found [0], .found [0], .written ⟨[1, 2], ⟨0, 0⟩⟩, .written ⟨[3], ⟨0, 0⟩⟩] := by decide

end RotatingSink

end SurfaceAi.Infra
