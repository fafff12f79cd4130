import Mathlib.Data.List.Basic
import Mathlib.Data.List.Induction
import Mathlib.Data.List.TakeWhile

/-! File paths as texts with a separator, after the filesystem library of the C++ standard on a
system without root names: joining, the parent, the last name, and the comparison by elements. -/

namespace Paths

variable {α : Type*} [DecidableEq α] (sep : α)

def IsAbsolute (p : List α) : Prop := p.head? = some sep

instance : DecidablePred (IsAbsolute sep) := fun p => inferInstanceAs (Decidable (p.head? = _))

/-- What is behind the last separator. -/
def filename (p : List α) : List α := (p.reverse.takeWhile (· ≠ sep)).reverse

/-- `p / q`. -/
def join (p q : List α) : List α :=
  if IsAbsolute sep q then q
  else if p = [] ∨ p.getLast? = some sep then p ++ q
  else p ++ sep :: q

/-- Without the separators at the end. -/
def trim (p : List α) : List α := (p.reverse.dropWhile (· = sep)).reverse

/-- What is before the last name and the separators in front of it, but for the root's. -/
def parentPath (p : List α) : List α :=
  let dir := trim sep (p.reverse.dropWhile (· ≠ sep)).reverse
  if dir = [] ∧ IsAbsolute sep p then [sep] else dir

/-- The names between separators, after the beginning of one. -/
def namesFrom : List α → List α → List (List α)
  | name, [] => if name = [] then [] else [name]
  | name, c :: cs =>
    if c = sep then
      if name = [] then namesFrom [] cs else name :: namesFrom [] cs
    else namesFrom (name ++ [c]) cs

def names (p : List α) : List (List α) := namesFrom sep [] p

/-- The elements a path is compared by: its names, and an empty one when a separator follows. -/
def elements (p : List α) : List (List α) :=
  names sep p ++ if names sep p ≠ [] ∧ p.getLast? = some sep then [[]] else []

/-- `p == q`. -/
def Same (p q : List α) : Prop :=
  (IsAbsolute sep p ↔ IsAbsolute sep q) ∧ elements sep p = elements sep q

instance : DecidableRel (Same sep) := fun _ _ => inferInstanceAs (Decidable (_ ∧ _))

variable {sep} {p q d f base : List α}

/-! ### Names -/

@[simp] theorem names_nil : names sep ([] : List α) = [] := rfl

theorem namesFrom_append (name xs ys : List α) :
    namesFrom sep name (xs ++ sep :: ys) = namesFrom sep name xs ++ names sep ys := by
  induction xs generalizing name with
  | nil =>
    simp only [List.nil_append, namesFrom, if_true]
    split_ifs
    · rfl
    · rfl
  | cons c cs ih =>
    rw [List.cons_append, namesFrom, namesFrom]
    split_ifs
    · exact ih []
    · rw [ih, List.cons_append]
    · exact ih _

theorem names_append (xs ys : List α) : names sep (xs ++ sep :: ys) = names sep xs ++ names sep ys :=
  namesFrom_append [] xs ys

theorem namesFrom_of_notMem {name : List α} (hf : sep ∉ f) :
    namesFrom sep name f = if name ++ f = [] then [] else [name ++ f] := by
  induction f generalizing name with
  | nil => rw [namesFrom, List.append_nil]
  | cons c cs ih =>
    rw [List.mem_cons, not_or] at hf
    rw [namesFrom, if_neg (Ne.symm hf.1), ih hf.2, List.append_assoc]
    rfl

theorem names_of_notMem (hf : sep ∉ f) : names sep f = if f = [] then [] else [f] :=
  namesFrom_of_notMem hf

theorem namesFrom_ne_nil {name : List α} (h : name ≠ []) : namesFrom sep name p ≠ [] := by
  induction p generalizing name with
  | nil =>
    rw [namesFrom, if_neg h]
    exact List.cons_ne_nil _ _
  | cons c cs ih =>
    rw [namesFrom, if_neg h]
    split_ifs
    · exact List.cons_ne_nil _ _
    · exact ih (List.append_ne_nil_of_right_ne_nil _ (List.cons_ne_nil _ _))

/-- A path that does not begin with a separator has a name. -/
theorem names_ne_nil (hne : p ≠ []) (h : ¬ IsAbsolute sep p) : names sep p ≠ [] := by
  cases p with
  | nil => exact absurd rfl hne
  | cons c cs =>
    have hc : c ≠ sep := fun hc => h (congrArg some hc)
    rw [names, namesFrom, if_neg hc]
    exact namesFrom_ne_nil (List.cons_ne_nil _ _)

theorem names_trim : names sep (trim sep p) = names sep p := by
  induction p using List.reverseRecOn with
  | nil => rfl
  | append_singleton p c ih =>
    rw [trim, List.reverse_append, List.reverse_singleton, List.singleton_append,
      List.dropWhile_cons]
    by_cases hc : c = sep
    · subst hc
      rw [if_pos (decide_eq_true rfl), names_append, names_nil, List.append_nil]
      exact ih
    · rw [if_neg (by simpa using hc), List.reverse_cons, List.reverse_reverse]

/-! ### The last name -/

omit [DecidableEq α] in
/-- A path with a separator, split at the last one. -/
theorem exists_split (h : sep ∈ p) : ∃ d f, p = d ++ sep :: f ∧ sep ∉ f := by
  obtain ⟨f, d, hrev, hf⟩ := List.eq_append_cons_of_mem (List.mem_reverse.mpr h)
  refine ⟨d.reverse, f.reverse, ?_, fun hmem => hf (List.mem_reverse.mp hmem)⟩
  rw [← List.reverse_reverse p, hrev]
  simp

theorem takeWhile_reverse (hf : sep ∉ f) : f.reverse.takeWhile (· ≠ sep) = f.reverse := by
  rw [List.takeWhile_eq_self_iff]
  intro c hc
  exact decide_eq_true fun h => hf (h ▸ List.mem_reverse.mp hc)

theorem filename_of_notMem (hf : sep ∉ f) : filename sep f = f := by
  rw [filename, takeWhile_reverse hf, List.reverse_reverse]

theorem filename_append (hf : sep ∉ f) : filename sep (d ++ sep :: f) = f := by
  have hrev : (d ++ sep :: f).reverse = f.reverse ++ sep :: d.reverse := by simp
  have hall : ∀ c ∈ f.reverse, decide (c ≠ sep) = true := fun c hc =>
    decide_eq_true fun h => hf (h ▸ List.mem_reverse.mp hc)
  rw [filename, hrev, List.takeWhile_append_of_pos hall, List.takeWhile_cons_of_neg (by simp),
    List.append_nil, List.reverse_reverse]

theorem notMem_filename : sep ∉ filename sep p := by
  intro h
  have hmem := List.mem_takeWhile_imp (List.mem_reverse.mp h)
  simp at hmem

omit [DecidableEq α] in
theorem not_isAbsolute_of_notMem (hf : sep ∉ f) : ¬ IsAbsolute sep f :=
  fun h => hf (List.mem_of_mem_head? h)

/-! ### The parent -/

theorem parentPath_append (hf : sep ∉ f) : parentPath sep (d ++ sep :: f) =
    if trim sep d = [] ∧ IsAbsolute sep (d ++ sep :: f) then [sep] else trim sep d := by
  have hrev : (d ++ sep :: f).reverse = f.reverse ++ sep :: d.reverse := by simp
  have hall : ∀ c ∈ f.reverse, decide (c ≠ sep) = true := fun c hc =>
    decide_eq_true fun h => hf (h ▸ List.mem_reverse.mp hc)
  have hdir : trim sep ((d ++ sep :: f).reverse.dropWhile (· ≠ sep)).reverse = trim sep d := by
    rw [hrev, List.dropWhile_append_of_pos hall, List.dropWhile_cons_of_neg (by simp), trim,
      List.reverse_reverse, List.dropWhile_cons_of_pos (by simp), trim]
  rw [parentPath]
  simp only [hdir]

theorem parentPath_of_notMem (hf : sep ∉ f) : parentPath sep f = [] := by
  have hall : ∀ c ∈ f.reverse, decide (c ≠ sep) = true := fun c hc =>
    decide_eq_true fun h => hf (h ▸ List.mem_reverse.mp hc)
  have hdir : f.reverse.dropWhile (· ≠ sep) = [] := List.dropWhile_eq_nil_iff.mpr hall
  rw [parentPath, hdir]
  exact if_neg fun h => not_isAbsolute_of_notMem hf h.2

theorem getLast?_trim : (trim sep p).getLast? ≠ some sep := by
  intro h
  rw [trim, List.getLast?_reverse] at h
  cases hdrop : p.reverse.dropWhile (· = sep) with
  | nil =>
    rw [hdrop] at h
    cases h
  | cons c cs =>
    rw [hdrop] at h
    have hc := List.head_dropWhile_not (l := p.reverse) (fun x => decide (x = sep))
      (by rw [hdrop]; exact List.cons_ne_nil _ _)
    simp only [hdrop, List.head_cons, decide_eq_false_iff_not] at hc
    exact hc (Option.some.inj h)

theorem elements_parentPath : elements sep (parentPath sep p) = names sep (parentPath sep p) := by
  rw [elements]
  by_cases hmem : sep ∈ p
  · obtain ⟨d, f, rfl, hf⟩ := exists_split hmem
    rw [parentPath_append hf]
    split_ifs with hroot htrailing
    · exact absurd (show names sep [sep] = [] from by rw [names, namesFrom]; simp [namesFrom])
        htrailing.1
    · exact List.append_nil _
    · rename_i htrailing
      exact absurd htrailing.2 getLast?_trim
    · exact List.append_nil _
  · rw [parentPath_of_notMem hmem]
    rfl

theorem names_parentPath (hf : sep ∉ f) :
    names sep (parentPath sep (d ++ sep :: f)) = names sep d := by
  rw [parentPath_append hf]
  split_ifs with hroot
  · rw [← names_trim (p := d), hroot.1]
    simp [names, namesFrom]
  · exact names_trim

theorem isAbsolute_parentPath_iff : IsAbsolute sep (parentPath sep p) ↔ IsAbsolute sep p := by
  by_cases hmem : sep ∈ p
  · obtain ⟨d, f, rfl, hf⟩ := exists_split hmem
    rw [parentPath_append hf]
    split_ifs with hroot
    · exact iff_of_true rfl hroot.2
    · by_cases htrim : trim sep d = []
      · have hrelative := fun h => hroot ⟨htrim, h⟩
        rw [htrim]
        exact iff_of_false (by simp [IsAbsolute]) hrelative
      · -- what is left after trimming starts as the path does
        have hprefix : trim sep d <+: d := by
          have hsuffix := (List.dropWhile_suffix (fun x => decide (x = sep)) (l := d.reverse))
          rw [trim, ← List.reverse_suffix, List.reverse_reverse]
          exact hsuffix
        obtain ⟨rest, hrest⟩ := hprefix
        obtain ⟨c, cs, hcons⟩ := List.exists_cons_of_ne_nil htrim
        have hd : d = c :: (cs ++ rest) := by rw [← hrest, hcons, List.cons_append]
        rw [hcons, hd, IsAbsolute, IsAbsolute]
        rfl
  · rw [parentPath_of_notMem hmem]
    exact iff_of_false (by simp [IsAbsolute]) (not_isAbsolute_of_notMem hmem)

/-! ### Joining -/

theorem join_of_absolute (h : IsAbsolute sep q) : join sep base q = q := if_pos h

/-- The elements of a path with a last name. -/
def close (ns : List (List α)) (f : List α) : List (List α) :=
  if f = [] then if ns = [] then [] else ns ++ [[]] else ns ++ [f]

omit [DecidableEq α] in
theorem close_inj {ns ms : List (List α)} : close ns f = close ms f ↔ ns = ms := by
  constructor
  · intro h
    rw [close, close] at h
    split_ifs at h with hf hn hm hm
    · rw [hn, hm]
    · exact absurd h.symm (List.append_ne_nil_of_right_ne_nil _ (List.cons_ne_nil _ _))
    · exact absurd h (List.append_ne_nil_of_right_ne_nil _ (List.cons_ne_nil _ _))
    · exact List.append_cancel_right h
    · exact List.append_cancel_right h
  · rintro rfl
    rfl

omit [DecidableEq α] in
theorem getLast?_ne_of_notMem (hne : f ≠ []) (hf : sep ∉ f) : (d ++ sep :: f).getLast? ≠ some sep := by
  intro h
  rw [List.getLast?_append_cons, List.getLast?_cons_of_ne_nil hne] at h
  exact hf (List.mem_of_getLast? h)

theorem elements_append (hf : sep ∉ f) : elements sep (d ++ sep :: f) = close (names sep d) f := by
  rw [elements, names_append, names_of_notMem hf, close]
  by_cases hnil : f = []
  · subst hnil
    rw [if_pos rfl, if_pos rfl, List.append_nil, List.getLast?_append_cons]
    by_cases hnames : names sep d = []
    · simp [hnames]
    · simp [hnames]
  · rw [if_neg hnil, if_neg hnil, if_neg fun h => getLast?_ne_of_notMem hnil hf h.2, List.append_nil]

theorem elements_of_notMem (hf : sep ∉ f) : elements sep f = close [] f := by
  rw [elements, names_of_notMem hf, close]
  by_cases hnil : f = []
  · simp [hnil]
  · rw [if_neg hnil, if_neg hnil, if_neg fun h => hf (List.mem_of_getLast? h.2)]
    rfl

/-- A relative path is joined behind a separator, or to nothing. -/
theorem join_cases (base : List α) (hq : ¬ IsAbsolute sep q) :
    base = [] ∧ join sep base q = q ∨
      ∃ b, join sep base q = b ++ sep :: q ∧ names sep b = names sep base := by
  rw [join, if_neg hq]
  by_cases hempty : base = []
  · rw [if_pos (.inl hempty), hempty]
    exact .inl ⟨rfl, rfl⟩
  by_cases hlast : base.getLast? = some sep
  · obtain ⟨b, rfl⟩ := List.getLast?_eq_some_iff.mp hlast
    rw [if_pos (.inr hlast), names_append, names_nil, List.append_nil]
    exact .inr ⟨b, by rw [List.append_assoc]; rfl, rfl⟩
  · rw [if_neg (by simp [hempty, hlast])]
    exact .inr ⟨base, rfl, rfl⟩

theorem isAbsolute_join_iff (hq : ¬ IsAbsolute sep q) :
    IsAbsolute sep (join sep base q) ↔ IsAbsolute sep base := by
  rw [join, if_neg hq]
  cases base with
  | nil =>
    rw [if_pos (.inl rfl), List.nil_append]
    exact iff_of_false hq (by simp [IsAbsolute])
  | cons c cs =>
    by_cases h : c :: cs = [] ∨ (c :: cs).getLast? = some sep
    · rw [if_pos h]
      rfl
    · rw [if_neg h]
      rfl

theorem elements_join (hf : sep ∉ f) : elements sep (join sep base f) = close (names sep base) f := by
  obtain ⟨rfl, hjoin⟩ | ⟨b, hjoin, hnames⟩ := join_cases base (not_isAbsolute_of_notMem hf)
  · rw [hjoin, elements_of_notMem hf]
    rfl
  · rw [hjoin, elements_append hf, hnames]

/-- Keeping the last name alone keeps a path exactly when it is a name in the directory. -/
theorem same_join_filename_iff (hbase : elements sep base = names sep base) :
    Same sep (join sep base (filename sep (join sep base q))) (join sep base q) ↔
      sep ∉ q ∨ IsAbsolute sep q ∧ Same sep (parentPath sep q) base := by
  by_cases hmem : sep ∈ q
  swap
  · have hname : filename sep (join sep base q) = q := by
      obtain ⟨-, hjoin⟩ | ⟨b, hjoin, -⟩ := join_cases base (not_isAbsolute_of_notMem hmem)
      · rw [hjoin, filename_of_notMem hmem]
      · rw [hjoin, filename_append hmem]
    rw [hname]
    exact iff_of_true ⟨Iff.rfl, rfl⟩ (.inl hmem)
  obtain ⟨d, f, rfl, hf⟩ := exists_split hmem
  have hrelative := not_isAbsolute_of_notMem hf
  by_cases habs : IsAbsolute sep (d ++ sep :: f)
  · rw [join_of_absolute habs, filename_append hf, or_iff_right (not_not.mpr hmem),
      and_iff_right habs, Same, Same, isAbsolute_join_iff hrelative, elements_join hf,
      elements_append hf, close_inj, isAbsolute_parentPath_iff, elements_parentPath,
      names_parentPath hf, hbase]
    exact and_congr iff_comm eq_comm
  · refine iff_of_false ?_ (by rw [not_or]; exact ⟨not_not.mpr hmem, fun h => habs h.1⟩)
    -- the directory that the path names is lost
    have hd : names sep d ≠ [] := by
      refine names_ne_nil ?_ ?_
      · rintro rfl
        exact habs rfl
      · intro hd
        cases d with
        | nil => exact habs rfl
        | cons c cs => exact habs hd
    obtain ⟨b, hjoin, hnames⟩ : ∃ b, join sep base (d ++ sep :: f) = b ++ sep :: f ∧
        names sep b = names sep base ++ names sep d := by
      obtain ⟨rfl, hjoin⟩ | ⟨b, hjoin, hnames⟩ := join_cases base habs
      · exact ⟨d, hjoin, rfl⟩
      · refine ⟨b ++ sep :: d, by rw [hjoin, List.append_assoc]; rfl, ?_⟩
        rw [names_append, hnames]
    rintro ⟨-, helements⟩
    rw [hjoin, filename_append hf, elements_join hf, elements_append hf, close_inj, hnames] at helements
    exact hd (List.append_right_eq_self.mp helements.symm)

end Paths
