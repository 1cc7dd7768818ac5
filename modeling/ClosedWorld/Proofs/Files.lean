import ClosedWorld.CommandLine.FileTree
import ClosedWorld.Proofs.Fallible

/-!
# What is written is there to be read

A path is looked up step by step, and each step but the last needs a directory to end
in. So it is not plain that a file can be read under the name it was written under:
with the file the directories could be others, and the name lead elsewhere. They are
not. A file is written into a directory that exists and where no directory is, and
whatever is above a directory is one (`FileTree.isDirectory_of_isAbove`). So the
directories stay what they were (`FileTree.isDirectory_put`), and a name that led
somewhere leads there still.

Nothing else changes. What is at another place is there afterwards as before.
-/

namespace ClosedWorld.CommandLine

/-! ## Places -/

namespace Place

variable {p q r : Place}

theorem isAbove_iff : p.isAbove q = true ↔
    p.origin = q.origin ∧ p.names <+: q.names ∧ p.names.length < q.names.length := by
  simp only [isAbove, Bool.and_eq_true, decide_eq_true_eq, List.isPrefixOf_iff_prefix, and_assoc]

theorem isAbove_trans (h : p.isAbove q = true) (h' : q.isAbove r = true) :
    p.isAbove r = true := by
  rw [isAbove_iff] at h h' ⊢
  exact ⟨h.1.trans h'.1, h.2.1.trans h'.2.1, Nat.lt_trans h.2.2 h'.2.2⟩

/-- What is above an entry of a directory is the directory or above it. -/
theorem isAbove_child {name : String} (h : q.isAbove (p.child name) = true) :
    q = p ∨ q.isAbove p = true := by
  rw [isAbove_iff] at h
  obtain ⟨horigin, hprefix, hlength⟩ := h
  rcases List.prefix_concat_iff.mp hprefix with heq | hprefix
  · rw [heq] at hlength
    exact absurd hlength (Nat.lt_irrefl _)
  · rcases Nat.lt_or_ge q.names.length p.names.length with hlt | hge
    · exact Or.inr (isAbove_iff.mpr ⟨horigin, hprefix, hlt⟩)
    · have hnames : q.names = p.names := hprefix.eq_of_length_le hge
      cases p
      cases q
      exact Or.inl ((mk.injEq ..).mpr ⟨horigin, hnames⟩)

/-- The parent is where names begin, or above. -/
theorem names_parent_eq_nil_or (p : Place) : p.parent.names = [] ∨ p.parent.isAbove p = true := by
  obtain ⟨origin, names⟩ := p
  cases names with
  | nil =>
      cases origin with
      | here | above | root => exact Or.inl rfl
  | cons name names =>
      have hlength : (name :: names).dropLast.length < (name :: names).length := by
        rw [List.length_dropLast, List.length_cons]
        exact Nat.lt_succ_self _
      exact Or.inr (isAbove_iff.mpr ⟨rfl, List.dropLast_prefix _, hlength⟩)

end Place

namespace FileTree

variable {t t' : FileTree} {p q : Place} {name text : String}

/-! ## Directories -/

theorem isDirectory_iff : t.isDirectory p = true ↔
    p.names = [] ∨ (∃ file ∈ t.files, p.isAbove file.1 = true) ∨
      p.origin = .root ∧ ∃ name ∈ rootDirectories, p.names = [name] := by
  simp only [isDirectory, Bool.or_eq_true, Bool.and_eq_true, decide_eq_true_eq, List.any_eq_true,
    or_assoc]

/-- Whatever is above a directory is a directory. -/
theorem isDirectory_of_isAbove (hp : t.isDirectory p = true) (h : q.isAbove p = true) :
    t.isDirectory q = true := by
  rw [isDirectory_iff] at hp ⊢
  rcases hp with hnil | ⟨file, hfile, habove⟩ | ⟨-, name, -, hname⟩
  · have hlt := (Place.isAbove_iff.mp h).2.2
    rw [hnil] at hlt
    exact absurd hlt (Nat.not_lt_zero _)
  · exact Or.inr (Or.inl ⟨file, hfile, Place.isAbove_trans h habove⟩)
  · -- Above a directory of the root there is only the root.
    have hlt := (Place.isAbove_iff.mp h).2.2
    rw [hname] at hlt
    exact Or.inl (List.length_eq_zero_iff.mp (Nat.lt_one_iff.mp hlt))

theorem isDirectory_parent (hp : t.isDirectory p = true) : t.isDirectory p.parent = true := by
  rcases p.names_parent_eq_nil_or with hnil | habove
  · exact isDirectory_iff.mpr (Or.inl hnil)
  · exact isDirectory_of_isAbove hp habove

theorem enter_eq_ok {step : String} : t.enter p step = .ok q ↔
    step = "." ∧ q = p ∨ step = ".." ∧ q = p.parent ∨
      (step ≠ "." ∧ step ≠ ".." ∧ step.utf8ByteSize ≤ Path.longestName) ∧
        t.isDirectory (p.child step) = true ∧ q = p.child step := by
  rw [enter, ← Nat.not_lt]
  grind

theorem isDirectory_enter {step : String} (hp : t.isDirectory p = true)
    (h : t.enter p step = .ok q) : t.isDirectory q = true := by
  rcases enter_eq_ok.mp h with ⟨-, rfl⟩ | ⟨-, rfl⟩ | ⟨-, hdir, rfl⟩
  · exact hp
  · exact isDirectory_parent hp
  · exact hdir

theorem isDirectory_foldlM {steps : List String} (hp : t.isDirectory p = true)
    (h : steps.foldlM t.enter p = .ok q) : t.isDirectory q = true := by
  induction steps generalizing p with
  | nil =>
      cases h
      exact hp
  | cons step steps ih =>
      obtain ⟨r, hr, hsteps⟩ := bind_eq_ok.mp h
      exact ih (isDirectory_enter hp hr) hsteps

/-! ## Names -/

theorem approach_eq_ok {dir : Place} {step : String} :
    t.approach name = .ok (dir, some step) ↔
      name.utf8ByteSize ≤ Path.longest ∧
        (Path.ofString name).steps.dropLast.foldlM t.enter ⟨(Path.ofString name).origin, []⟩ =
          .ok dir ∧
        (Path.ofString name).steps.getLast? = some step ∧ step ≠ "." ∧ step ≠ ".." := by
  rw [← Nat.not_lt, approach]
  by_cases hlong : Path.longest < name.utf8ByteSize
  · simp [hlong]
  · cases hsteps : (Path.ofString name).steps.dropLast.foldlM t.enter
        ⟨(Path.ofString name).origin, []⟩ with
    | error fault => simp [hlong]
    | ok p =>
        cases hlast : (Path.ofString name).steps.getLast? with
        | none => by_cases hname : name = "" <;> simp [hlong, hname]
        | some last => by_cases hdots : last = "." ∨ last = ".." <;> grind

/-- The name leads to the place `p`: that is where the last of its steps ends. -/
def LeadsTo (t : FileTree) (name : String) (p : Place) : Prop :=
  ∃ dir step, t.approach name = .ok (dir, some step) ∧ p = dir.child step

theorem isDirectory_of_approach {dir : Place} {step : String}
    (h : t.approach name = .ok (dir, some step)) : t.isDirectory dir = true :=
  isDirectory_foldlM (isDirectory_iff.mpr (Or.inl rfl)) (approach_eq_ok.mp h).2.1

/-- A step into a directory is one wherever there are the same directories. -/
theorem enter_congr {step : String} (hdirs : ∀ r, t'.isDirectory r = t.isDirectory r)
    (h : t.enter p step = .ok q) : t'.enter p step = .ok q := by
  rw [enter_eq_ok] at h ⊢
  rwa [hdirs]

theorem foldlM_enter_congr {steps : List String}
    (hdirs : ∀ r, t'.isDirectory r = t.isDirectory r) (h : steps.foldlM t.enter p = .ok q) :
    steps.foldlM t'.enter p = .ok q := by
  induction steps generalizing p with
  | nil => exact h
  | cons step steps ih =>
      obtain ⟨r, hr, hsteps⟩ := bind_eq_ok.mp h
      exact bind_eq_ok.mpr ⟨r, enter_congr hdirs hr, ih hsteps⟩

theorem approach_congr {dir : Place} {step : String}
    (hdirs : ∀ r, t'.isDirectory r = t.isDirectory r)
    (h : t.approach name = .ok (dir, some step)) : t'.approach name = .ok (dir, some step) := by
  obtain ⟨hlong, hdir, hlast⟩ := approach_eq_ok.mp h
  exact approach_eq_ok.mpr ⟨hlong, foldlM_enter_congr hdirs hdir, hlast⟩

/-! ## Reading and writing -/

theorem lookup_put_self (files : List (Place × String)) (p : Place) (text : String) :
    (put files p text).lookup p = some text := by
  induction files with
  | nil => simp [put]
  | cons file files ih =>
      rw [put]
      split
      next h => simp [h]
      next h => rw [List.lookup_cons, beq_false_of_ne (Ne.symm h), ih]

theorem lookup_put_of_ne (files : List (Place × String)) (text : String) (h : q ≠ p) :
    (put files p text).lookup q = files.lookup q := by
  induction files with
  | nil => rw [put, List.lookup_cons, beq_false_of_ne h]
  | cons file files ih =>
      rw [put]
      split
      next hp => rw [List.lookup_cons, List.lookup_cons, hp, beq_false_of_ne h]
      next => rw [List.lookup_cons, List.lookup_cons, ih]

/-- The places of files are those there were, and the one that is written to. -/
theorem any_put (files : List (Place × String)) (p : Place) (text : String)
    (test : Place → Bool) :
    (put files p text).any (fun file => test file.1) =
      (files.any (fun file => test file.1) || test p) := by
  induction files with
  | nil => simp [put]
  | cons file files ih =>
      rw [put]
      split
      next h => simp [h, Bool.or_comm]
      next => simp [ih, Bool.or_assoc]

/-- A file that is put into a directory leaves the directories as they are. -/
theorem isDirectory_put {dir : Place} (hdir : t.isDirectory dir = true) (step text : String)
    (q : Place) :
    isDirectory ⟨put t.files (dir.child step) text⟩ q = t.isDirectory q := by
  have habove : q.isAbove (dir.child step) = true → t.isDirectory q = true := by
    intro h
    rcases Place.isAbove_child h with rfl | h
    · exact hdir
    · exact isDirectory_of_isAbove hdir h
  have hput : isDirectory ⟨put t.files (dir.child step) text⟩ q =
      (t.isDirectory q || q.isAbove (dir.child step)) := by
    simp only [isDirectory, any_put]
    ac_rfl
  rw [hput]
  cases hq : q.isAbove (dir.child step) with
  | false => exact Bool.or_false _
  | true => rw [habove hq, Bool.or_true]

theorem read_eq_ok : t.read name = .ok text ↔
    ∃ dir step, t.approach name = .ok (dir, some step) ∧ step.utf8ByteSize ≤ Path.longestName ∧
      t.isDirectory (dir.child step) = false ∧ t.files.lookup (dir.child step) = some text ∧
      (Path.ofString name).trailingSlash = false := by
  rw [read]
  cases happroach : t.approach name with
  | error fault => simp
  | ok found =>
      obtain ⟨dir, step⟩ := found
      cases step with
      | none => simp
      | some step => cases hfile : t.files.lookup (dir.child step) <;> grind

theorem write_eq_ok : t.write name text = .ok t' ↔
    ∃ dir step, t.approach name = .ok (dir, some step) ∧
      (Path.ofString name).trailingSlash = false ∧ step.utf8ByteSize ≤ Path.longestName ∧
      t.isDirectory (dir.child step) = false ∧
      t' = if dir.child step = nullDevice then t
        else ⟨put t.files (dir.child step) text⟩ := by
  rw [write]
  cases happroach : t.approach name with
  | error fault => simp
  | ok found =>
      obtain ⟨dir, step⟩ := found
      cases step with
      | none => simp
      | some step => grind

/-- The second tree is the first after `text` has been written under `name`. The text
can be read there, and the files at all other places are what they were. -/
structure Wrote (t : FileTree) (name text : String) (t' : FileTree) : Prop where
  reads : t'.read name = .ok text
  place : ∃ p, t.LeadsTo name p ∧ t'.files.lookup p = some text ∧
    ∀ q, q ≠ p → t'.files.lookup q = t.files.lookup q

theorem wrote_of_write (hplace : ¬ t.LeadsTo name nullDevice)
    (h : t.write name text = .ok t') : t.Wrote name text t' := by
  obtain ⟨dir, step, happroach, hslash, hlong, hfree, rfl⟩ := write_eq_ok.mp h
  have hplain : dir.child step ≠ nullDevice := fun heq =>
    hplace ⟨dir, step, happroach, heq.symm⟩
  rw [if_neg hplain]
  have hdirs := isDirectory_put (isDirectory_of_approach happroach) step text
  have hlookup := lookup_put_self t.files (dir.child step) text
  refine ⟨?_, dir.child step, ⟨dir, step, happroach, rfl⟩, hlookup, fun q hq => ?_⟩
  · rw [read_eq_ok]
    refine ⟨dir, step, approach_congr hdirs happroach, hlong, ?_, hlookup, hslash⟩
    rw [hdirs, hfree]
  · exact lookup_put_of_ne t.files text hq

/-! ## A tree as a file system -/

theorem system_readAt (t : FileTree) : system.readAt t = t.read := rfl

theorem system_write_run (t : FileTree) (name text : String) :
    (system.write name text).run t =
      match t.write name text with
      | .ok t' => (.ok (), t')
      | .error fault => (.error fault, t) := rfl

theorem system_lawful : system.Lawful where
  read_keeps _ _ := rfl
  write_fails {name text t t' fault} h := by
    rw [system_write_run] at h
    split at h
    next => cases h
    next =>
        cases h
        rfl

/-- Whatever does not lead to the null device stores what is written there. -/
theorem system_stores (hplace : ¬ t.LeadsTo name nullDevice) : system.Stores t name := by
  intro text t' h
  rw [system_write_run] at h
  split at h
  next hwrite =>
      cases h
      exact (wrote_of_write hplace hwrite).reads
  next => cases h

end FileTree

end ClosedWorld.CommandLine
