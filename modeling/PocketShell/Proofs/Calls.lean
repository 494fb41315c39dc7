import PocketShell.Machine.Entering

/-!
# Calls to the machine

What the calls answer, said of their paths: which paths they refuse before they look at the tree,
and what the absolute form of a path is.
-/

namespace PocketShell

namespace Machine

variable {m : Machine} {path : Text}

theorem pathFault?_of_nul (h : '\x00' ∈ path) : pathFault? path = some .nul := by
  simp [pathFault?, h]

theorem pathFault?_ne_nul (h : '\x00' ∉ path) : pathFault? path ≠ some .nul := by
  unfold pathFault?
  split
  · contradiction
  · split <;> simp

/-- Every call refuses a path that holds U+0000, and no other path for that reason. -/
theorem place_eq_nul_iff (m : Machine) (manner : Manner) (path : Text) :
    m.place manner path = .error .nul ↔ '\x00' ∈ path := by
  by_cases h : '\x00' ∈ path
  · simp [place, pathFault?_of_nul h, h]
  · simp only [h, iff_false]
    have hne := pathFault?_ne_nul h
    unfold place
    intro hnul
    split at hnul
    · next fault hf =>
      rw [hf, Except.error.inj hnul] at hne
      exact hne rfl
    · split at hnul
      · simp at hnul
      · simp at hnul
      · simp at hnul

/-- A path that leads to a place holds no U+0000, and all that is walked of it leads there. -/
theorem walk_of_place {manner : Manner} {p : Place} (h : m.place manner path = .ok p) :
    '\x00' ∉ path ∧ m.tree.walk manner FileTree.maxLinks (m.origin path) (Path.way path) =
      .ok (.found p) := by
  constructor
  · intro hnul
    rw [(place_eq_nul_iff m manner path).2 hnul] at h
    simp at h
  · unfold place at h
    split at h
    · simp at h
    · split at h
      · simp at h
      · simp at h
      · next q hq => rw [hq, Except.ok.inj h]

/-- No place has the empty path. -/
theorem place_ne_nil {manner : Manner} {p : Place} (h : m.place manner path = .ok p) :
    path ≠ [] := by
  rintro rfl
  simp [place, pathFault?] at h

theorem place_of_walk {manner : Manner} {p : Place} (hnul : '\x00' ∉ path) (hne : path ≠ [])
    (h : m.tree.walk manner FileTree.maxLinks (m.origin path) (Path.way path) =
      .ok (.found p)) : m.place manner path = .ok p := by
  simp [place, pathFault?, hnul, hne, h]

theorem canRun_iff :
    m.canRun path = true ↔ ∃ p permissions text program, m.place .following path = .ok p ∧
      m.tree.entryAt? p = some (.file permissions text program) ∧ permissions.execute = true := by
  unfold canRun stat entry
  cases m.place .following path with
  | error fault => simp
  | ok p =>
    simp only [Except.ok.injEq, exists_and_left, exists_eq_left']
    rcases m.tree.entryAt? p with _ | (_ | _ | _) <;> simp

theorem no_nul_of_canRun (h : m.canRun path = true) : '\x00' ∉ path := by
  obtain ⟨p, permissions, text, program, hplace, -, -⟩ := canRun_iff.1 h
  obtain ⟨hnul, -⟩ := walk_of_place hplace
  exact hnul

/-- Whether a path can be run is settled by the place that it leads to. -/
theorem canRun_congr {other : Text} (h : m.place .following path = m.place .following other) :
    m.canRun path = m.canRun other := by
  simp [canRun, stat, entry, h]

theorem entry_eq_nul_iff (m : Machine) (manner : Manner) (path : Text) :
    m.entry manner path = .error .nul ↔ '\x00' ∈ path := by
  rw [← place_eq_nul_iff m manner, entry]
  cases m.place manner path with
  | error fault => simp
  | ok p =>
    simp only
    cases m.tree.entryAt? p <;> simp

theorem program_eq_nul_iff (m : Machine) (path : Text) :
    m.program path = .error .nul ↔ '\x00' ∈ path := by
  rw [← entry_eq_nul_iff m .following, program, stat]
  cases m.entry .following path with
  | error fault => simp
  | ok e =>
    simp only [reduceCtorEq, iff_false]
    intro hnul
    split at hnul
    · next hfault => simp at hfault
    · split at hnul <;> simp at hnul
    · split at hnul <;> simp at hnul

/-- The program that a path leads to does this, for its arguments and behind so many starts. -/
def Does (m : Machine) (path : Text) (argv : List Text) (started : Nat) (deed : Deed) : Prop :=
  ∃ program, m.program path = .ok program ∧ program argv started = deed

theorem Does.unique {argv : List Text} {started : Nat} {deed other : Deed}
    (h : m.Does path argv started deed) (h' : m.Does path argv started other) : deed = other := by
  obtain ⟨program, hprogram, rfl⟩ := h
  obtain ⟨program', hprogram', rfl⟩ := h'
  rw [hprogram] at hprogram'
  rw [Except.ok.inj hprogram']

theorem openFile_eq_nul_iff (m : Machine) (path : Text) (writing : Writing) :
    m.openFile path writing = .error .nul ↔ '\x00' ∈ path := by
  by_cases h : '\x00' ∈ path
  · simp [openFile, pathFault?_of_nul h, h]
  · simp only [h, iff_false]
    have hne := pathFault?_ne_nul h
    unfold openFile
    intro hnul
    split at hnul
    · next fault hf =>
      rw [hf, Except.error.inj hnul] at hne
      exact hne rfl
    · repeat' split at hnul
      all_goals simp at hnul

theorem list_eq_nul_iff (m : Machine) (path : Text) :
    m.list path = .error .nul ↔ '\x00' ∈ path := by
  rw [← place_eq_nul_iff m .following, list]
  cases m.place .following path with
  | error fault => simp
  | ok p =>
    simp only [reduceCtorEq, iff_false]
    intro hnul
    split at hnul
    · split at hnul <;> simp at hnul
    · simp at hnul

/-- What is entered is a place that may be searched, and that the path leads to. -/
theorem exists_place_of_enter {entered : Machine} (h : m.enter path = .ok entered) :
    ∃ p, m.place .following path = .ok p ∧ m.tree.searchError? p = none ∧
      entered = { m with cwd := p } := by
  have hchdir : m.chdir path = .ok entered := by
    unfold enter at h
    split at h
    · simp at h
    · split at h
      · next hc => exact hc.trans (congrArg _ (Except.ok.inj h))
      · simp at h
      · simp at h
    · simp at h
  unfold chdir at hchdir
  split at hchdir
  · simp at hchdir
  · next p hp =>
    split at hchdir
    · simp at hchdir
    · next hsearch => exact ⟨p, hp, hsearch, (Except.ok.inj hchdir).symm⟩

theorem absolute_of_isAbsolute (h : Path.isAbsolute path = true) :
    m.absolute path = .ok (Path.normalized path) := by
  simp [absolute, h]

theorem absolute_of_relative (h : Path.isAbsolute path = false) (hcwd : m.cwd.removed = []) :
    m.absolute path =
      .ok (Path.normalized (Path.join (Path.ofLocation m.cwd.location) path)) := by
  simp [absolute, h, getcwd, hcwd, Except.map]

theorem getcwd_ne_nul (m : Machine) : m.getcwd ≠ .error .nul := by
  unfold getcwd
  split <;> simp

/-- Only a relative path is refused, once the directory that it starts from has no path. -/
theorem absolute_eq_error_iff {reason : Fault} :
    m.absolute path = .error reason ↔
      Path.isAbsolute path = false ∧ m.cwd.removed ≠ [] ∧ reason = .errno .noEntry := by
  cases ha : Path.isAbsolute path with
  | true => simp [absolute, ha]
  | false =>
    by_cases hr : m.cwd.removed = []
    · simp [absolute_of_relative ha hr, hr]
    · simp [absolute, ha, getcwd, hr, Except.map, eq_comm]

theorem isAbsolute_of_absolute {p : Text} (h : m.absolute path = .ok p) :
    Path.isAbsolute p = true := by
  cases ha : Path.isAbsolute path with
  | true =>
    rw [absolute_of_isAbsolute ha] at h
    exact Except.ok.inj h ▸ Path.isAbsolute_normalized path
  | false =>
    by_cases hr : m.cwd.removed = []
    · rw [absolute_of_relative ha hr] at h
      exact Except.ok.inj h ▸ Path.isAbsolute_normalized _
    · simp [absolute_eq_error_iff.2 ⟨ha, hr, rfl⟩] at h

end Machine

end PocketShell
