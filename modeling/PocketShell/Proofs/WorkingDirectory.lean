import PocketShell.Path.Home
import PocketShell.Proofs.EnteringDirectories

/-!
# The path of the working directory

The canonical form by which a directory is entered is found on the text. It may keep an endless
link, or a name that nothing has, and go up from there, so that the directory is not always the one
that the text names. But the form is absolute, and it is walked again from the root. Whatever is
entered stands on an open way, and has a path of directories that leads back to it.
-/

namespace PocketShell

namespace FileTree

variable {t : FileTree} {l above : Location} {permissions : Permissions}

theorem OpenAbove.of_suffix (h : t.OpenAbove l) (hsuffix : above <:+ l) : t.OpenAbove above := by
  induction l with
  | nil => exact List.suffix_nil.1 hsuffix ▸ h
  | cons n parent ih =>
    rcases List.suffix_cons_iff.1 hsuffix with rfl | hsuffix
    · exact h
    · exact ih h.tail hsuffix

/-- Above a directory there are directories. -/
theorem exists_directory_of_suffix (hl : t.find? l = some (.directory permissions))
    (hsuffix : above <:+ l) :
    ∃ permissions, t.find? above = some (.directory permissions) := by
  induction l generalizing permissions with
  | nil => exact ⟨permissions, List.suffix_nil.1 hsuffix ▸ hl⟩
  | cons n parent ih =>
    rcases List.suffix_cons_iff.1 hsuffix with rfl | hsuffix
    · exact ⟨permissions, hl⟩
    · obtain ⟨permissions', hparent⟩ := find?_parent hl
      exact ih hparent hsuffix

end FileTree

namespace Path

/-- No tilde stands at the front of an absolute path. -/
theorem withHome_of_isAbsolute {path : Text} (h : isAbsolute path = true) (home : Text) :
    withHome home path = path := by
  cases path with
  | nil => simp [isAbsolute] at h
  | cons c rest =>
    obtain rfl : c = '/' := by simpa [isAbsolute] using h
    simp [withHome]

/-- Below the root, the names of a location stand between the slashes of its path. -/
theorem fields_ofLocation {l : Location} (h : l ≠ []) :
    Text.fields '/' (ofLocation l) = [] :: l.reverse.map Name.text := by
  have hsplit := Text.fields_append '/' [] (Text.joined ['/'] (l.reverse.map Name.text))
  have hnames : ∀ part ∈ l.reverse.map Name.text, '/' ∉ part := by
    intro part hpart
    obtain ⟨n, -, rfl⟩ := List.mem_map.1 hpart
    exact n.no_slash
  rw [Text.fields_joined (by simpa using h) hnames] at hsplit
  rw [ofLocation, ofParts, ← List.map_reverse]
  exact hsplit

end Path

namespace Machine

open FileTree

variable {m entered : Machine} {path p : Text} {above : Location}

theorem isAbsolute_of_canonical (h : m.canonical path = .ok p) : Path.isAbsolute p = true := by
  unfold canonical at h
  split at h
  · simp at h
  · next c _ _ =>
    obtain rfl := Except.ok.inj h
    cases c with
    | resolved l => exact Path.isAbsolute_ofLocation l
    | stuck text => exact Path.isAbsolute_normalized text

theorem isAbsolute_of_destination (h : m.destination path = .ok p) :
    Path.isAbsolute p = true := by
  unfold destination at h
  split at h
  · exact isAbsolute_of_canonical h
  · split at h
    · simp at h
    · exact isAbsolute_of_canonical h

/-- The working directory stands on an open way and may be searched. -/
structure StandsOpen (m : Machine) : Prop where
  live : m.cwd.removed = []
  openAbove : m.tree.OpenAbove m.cwd.location
  searchable : ∃ permissions, m.tree.entryAt? m.cwd = some (.directory permissions) ∧
    permissions.execute = true

/-- A walk from the root is over open ways, so that an absolute path is entered only where it comes
to stand on one. -/
theorem standsOpen_of_enter (habsolute : Path.isAbsolute path = true)
    (h : m.enter path = .ok entered) : entered.StandsOpen := by
  obtain ⟨p, hplace, hsearch, rfl⟩ := exists_place_of_enter h
  obtain ⟨-, hw⟩ := walk_of_place hplace
  rw [origin, if_pos habsolute] at hw
  obtain ⟨hlive, hopen⟩ := (walks_of_walk hw).openAbove rfl (openAbove_nil m.tree)
  exact ⟨hlive, hopen, searchError?_eq_none_iff_directory.1 hsearch⟩

theorem lstat_ofLocation_directory {l : Location} {permissions : Permissions}
    (hopen : m.tree.OpenAbove l) (hl : m.tree.find? l = some (.directory permissions)) :
    m.lstat (Path.ofLocation l) = .ok (.directory permissions) := by
  cases l with
  | nil =>
    have hplace : m.place .keeping (Path.ofLocation []) = .ok .root := rfl
    simp [lstat, entry, hplace, entryAt?, Place.root, hl]
  | cons n above => exact lstat_ofLocation hopen hl

namespace StandsOpen

theorem getcwd (h : m.StandsOpen) : m.getcwd = .ok (Path.ofLocation m.cwd.location) :=
  if_pos h.live

theorem lstat_above (h : m.StandsOpen) (habove : above <:+ m.cwd.location) :
    ∃ permissions, m.lstat (Path.ofLocation above) = .ok (.directory permissions) := by
  obtain ⟨permissions, hcwd, -⟩ := h.searchable
  obtain ⟨permissions', hdirectory⟩ :=
    exists_directory_of_suffix (entryAt?_of_live h.live ▸ hcwd) habove
  exact ⟨permissions', lstat_ofLocation_directory (h.openAbove.of_suffix habove) hdirectory⟩

theorem place (h : m.StandsOpen) :
    m.place .following (Path.ofLocation m.cwd.location) = .ok m.cwd := by
  obtain ⟨permissions, hcwd, -⟩ := h.searchable
  have hplace := place_ofLocation h.openAbove (entryAt?_of_live h.live ▸ hcwd)
  rwa [Place.live_location h.live] at hplace

/-- The path of the working directory is its own canonical form. -/
theorem destination (h : m.StandsOpen) :
    m.destination (Path.ofLocation m.cwd.location) = .ok (Path.ofLocation m.cwd.location) := by
  obtain ⟨permissions, hcwd, -⟩ := h.searchable
  exact (destination_of_place h.live hcwd h.openAbove h.place).1

theorem enter (h : m.StandsOpen) : m.enter (Path.ofLocation m.cwd.location) = .ok m := by
  obtain ⟨permissions, hcwd, hsearch⟩ := h.searchable
  exact enter_ofLocation h.live h.openAbove hcwd hsearch

end StandsOpen

end Machine

namespace Builtin

variable {s t : Session} {args : List Text}

/-- The working directory has the path of a location, which `pwd` prints. It is the path of the root
or made of names, none of which is empty or special. There is no link on the way, and following the
path again changes nothing. -/
structure Settled (s : Session) (l : Location) : Prop where
  printed : runPwd.perform s = (.ok 0, s.print (Path.ofLocation l ++ ['\n']))
  names : Path.ofLocation l = ['/'] ∨
    Text.fields '/' (Path.ofLocation l) = [] :: l.reverse.map Name.text
  directories : ∀ above, above <:+ l →
    ∃ permissions, s.machine.lstat (Path.ofLocation above) = .ok (.directory permissions)
  again : ∀ (later : Session) (rest : List Text), later.machine = s.machine →
    ∃ after, (runCd (Path.ofLocation l :: rest)).perform later = (.ok 0, after) ∧
      after.machine = s.machine

theorem settled_of_standsOpen (h : s.machine.StandsOpen) :
    Settled s s.machine.cwd.location where
  printed := by
    rw [perform_runPwd, h.getcwd]
  names := by
    by_cases hroot : s.machine.cwd.location = []
    · exact .inl (congrArg Path.ofLocation hroot)
    · exact .inr (Path.fields_ofLocation hroot)
  directories above habove := h.lstat_above habove
  again later rest hlater := by
    have habsolute := Path.isAbsolute_ofLocation s.machine.cwd.location
    rw [perform_runCd_cons, Path.withHome_of_isAbsolute habsolute, hlater, h.destination]
    simp only [h.enter]
    exact ⟨_, rfl, rfl⟩

/-- What `cd` succeeds with is the machine after an absolute path was entered. -/
theorem exists_enter_of_runCd (h : (runCd args).perform s = (.ok 0, t)) :
    ∃ path, Path.isAbsolute path = true ∧ s.machine.enter path = .ok t.machine := by
  cases args with
  | nil => simp [perform_runCd_nil] at h
  | cons target rest =>
    rw [perform_runCd_cons] at h
    split at h
    · simp at h
    · simp at h
    · next path hdestination =>
      split at h
      · simp at h
      · next entered henter =>
        obtain ⟨-, rfl⟩ := Prod.mk.inj h
        exact ⟨path, Machine.isAbsolute_of_destination hdestination, henter⟩

/-- Wherever `cd` started from and whatever its target went through, the working directory that it
leaves has a path that names it from then on. -/
theorem settled_of_runCd (h : (runCd args).perform s = (.ok 0, t)) :
    Settled t t.machine.cwd.location := by
  obtain ⟨path, habsolute, henter⟩ := exists_enter_of_runCd h
  exact settled_of_standsOpen (Machine.standsOpen_of_enter habsolute henter)

/-- From a directory that was removed, through a link that leads back to itself, and up again. -/
theorem settled_of_runCd_endless :
    let d : Name := { text := ['d'] }
    let l : Name := { text := ['l'] }
    let tree : FileTree :=
      .cons d (.directory .all) .empty (.cons l (.link { text := ['l'] }) .empty .empty)
    let s := Session.start ⟨tree, ⟨[], [.all]⟩, true⟩ ⟨[]⟩
    ∃ t, (runCd ["/l/../d".toList]).perform s = (.ok 0, t) ∧ Settled t [d] := by
  intro d l tree s
  have hcd : (runCd ["/l/../d".toList]).perform s =
      (.ok 0, { s with machine := ⟨tree, .live [d], true⟩ }.note [.directoryIs ['/', 'd']]) := rfl
  exact ⟨_, hcd, settled_of_runCd hcd⟩

end Builtin

end PocketShell
