import PocketShell.Proofs.FailingWalks
import PocketShell.Proofs.WorkingDirectory

/-!
# The reasons that `cd` reports

Before a directory is entered its path is looked at, and whatever goes wrong with that is reported
as a missing directory. So the reason that is reported is the one for which the system refuses to
enter, unless the walk to the path fails for another reason than a missing name, or the path holds
U+0000: the directory may well be there, behind one that may not be searched.
-/

namespace PocketShell

namespace FileTree

variable {t : FileTree} {p q : Place} {path : List Component} {links : Nat}

/-- The root is a directory of every tree. -/
theorem entryAt?_root (t : FileTree) : t.entryAt? .root = some (.directory .all) := rfl

/-- A walk that starts from something that is there comes to something that is there. -/
theorem Walks.entryAt?_ne_none (h : Walks t links p path (.found q)) (hlive : p.removed = [])
    (hp : t.entryAt? p ≠ none) : t.entryAt? q ≠ none := by
  generalize hspot : Spot.found q = spot at h
  induction h with
  | arrives links p =>
    obtain rfl := Spot.found.inj hspot
    exact hp
  | here searchable _ ih => exact ih hlive hp hspot
  | up searchable _ ih =>
    obtain ⟨held, hs⟩ := searchError?_eq_none_iff.1 searchable
    obtain ⟨permissions, hparent⟩ := hs.entryAt?_parent hlive
    exact ih (Place.removed_parent hlive) (by simp [hparent]) hspot
  | closes _ _ ih => exact ih hlive hp hspot
  | misses => simp at hspot
  | @enters links p n rest spot e searchable present no_link _ ih =>
    refine ih rfl ?_ hspot
    rw [child?, if_pos hlive] at present
    simp [entryAt?, Place.live, present]
  | @follows links p n rest spot target _ _ _ ih =>
    refine ih ?_ ?_ hspot
    · unfold linkOrigin
      split
      · rfl
      · exact hlive
    · unfold linkOrigin
      split
      · simp [entryAt?_root]
      · exact hp

end FileTree

namespace Machine

open FileTree

variable {m : Machine} {path q : Text} {fault : Fault} {reason : Errno} {p : Place}

theorem exists_entry_of_place (habsolute : Path.isAbsolute path = true)
    (h : m.place .following path = .ok p) : ∃ e, m.tree.entryAt? p = some e := by
  obtain ⟨-, hw⟩ := walk_of_place h
  rw [origin, if_pos habsolute] at hw
  have hroot : m.tree.entryAt? .root ≠ none := by simp [entryAt?_root]
  exact Option.ne_none_iff_exists'.1 ((walks_of_walk hw).entryAt?_ne_none rfl hroot)

theorem stat_eq_ok_iff {e : Entry} :
    m.stat path = .ok e ↔ ∃ p, m.place .following path = .ok p ∧ m.tree.entryAt? p = some e := by
  unfold stat entry
  cases m.place .following path with
  | error fault => simp
  | ok p => cases he : m.tree.entryAt? p <;> simp [he]

/-- What cannot be looked at leads to no place, for the same reason. -/
theorem place_of_stat_error (habsolute : Path.isAbsolute path = true)
    (h : m.stat path = .error fault) : m.place .following path = .error fault := by
  cases hplace : m.place .following path with
  | error other => simpa [stat, entry, hplace] using h
  | ok p =>
    obtain ⟨e, he⟩ := exists_entry_of_place habsolute hplace
    rw [stat_eq_ok_iff.2 ⟨p, hplace, he⟩] at h
    simp at h

/-- The reason that is told of a fault. Whatever goes wrong while the path is looked at, something
is said to be missing. -/
def told (m : Machine) (path : Text) (fault : Fault) : Errno :=
  match m.stat path, fault with
  | .ok _, .errno reason => reason
  | _, _ => .noEntry

/-- Entering a path is changing the directory to it, up to the reason that is told. -/
theorem enter_eq (habsolute : Path.isAbsolute path = true) :
    m.enter path = (m.chdir path).mapError (m.told path) := by
  cases hstat : m.stat path with
  | error fault =>
    have hplace := place_of_stat_error habsolute hstat
    simp [enter, chdir, told, hstat, hplace, Except.mapError]
  | ok e =>
    obtain ⟨p, hplace, hentry⟩ := stat_eq_ok_iff.1 hstat
    cases e with
    | directory permissions =>
      cases hx : permissions.execute <;>
        simp [enter, chdir, told, hstat, hplace, searchError?, hentry, hx, Except.mapError]
    | file permissions text program =>
      simp [enter, chdir, told, hstat, hplace, searchError?, hentry, Except.mapError]
    | link target =>
      simp [enter, chdir, told, hstat, hplace, searchError?, hentry, Except.mapError]

/-- The path cannot be walked to its end, and not because a name is missing. -/
def Hidden (m : Machine) (path : Text) : Prop :=
  '\x00' ∈ path ∨ ∃ reason, m.tree.Fails maxLinks .root (Path.way path) reason ∧
    reason ≠ .noEntry

/-- A destination is hidden if it cannot be looked at, and not because something is missing. -/
theorem hidden_iff (h : m.destination path = .ok q) :
    m.Hidden q ↔ ∃ fault, m.stat q = .error fault ∧ fault ≠ .errno .noEntry := by
  have habsolute := isAbsolute_of_destination h
  by_cases hnul : '\x00' ∈ q
  · have hstat : m.stat q = .error .nul := (entry_eq_nul_iff m .following q).2 hnul
    simp [Hidden, hnul, hstat]
  have hfault : pathFault? q = none := by
    have hne : q ≠ [] := by
      rintro rfl
      simp [Path.isAbsolute] at habsolute
    simp [pathFault?, hnul, hne]
  have horigin : m.origin q = .root := if_pos habsolute
  constructor
  · rintro (hnul' | ⟨reason, hfails, hne⟩)
    · exact absurd hnul' hnul
    · refine ⟨.errno reason, ?_, by simpa using hne⟩
      simp [stat, entry, place, hfault, horigin, walk_eq_error_iff.2 hfails]
  · rintro ⟨fault, hstat, hne⟩
    have hplace := place_of_stat_error habsolute hstat
    rw [place, hfault] at hplace
    simp only [horigin] at hplace
    split at hplace
    · next reason hw =>
      refine .inr ⟨reason, walk_eq_error_iff.1 hw, fun hmissing => hne ?_⟩
      rw [← Except.error.inj hplace, hmissing]
    · exact absurd (Except.error.inj hplace).symm hne
    · simp at hplace

/-- The reason that is told is the system's unless the destination is hidden. -/
theorem told_eq_iff (h : m.destination path = .ok q) (hchdir : m.chdir q = .error fault) :
    fault = .errno (m.told q fault) ↔ ¬ m.Hidden q := by
  rw [hidden_iff h]
  cases hstat : m.stat q with
  | error other =>
    have hplace := place_of_stat_error (isAbsolute_of_destination h) hstat
    obtain rfl : other = fault := by simpa [chdir, hplace] using hchdir
    simp [told, hstat]
  | ok e =>
    obtain ⟨p, hplace, -⟩ := stat_eq_ok_iff.1 hstat
    simp only [chdir, hplace] at hchdir
    split at hchdir
    · next reason _ =>
      obtain rfl := Except.error.inj hchdir
      simp [told, hstat]
    · simp at hchdir

theorem told_of_hidden (h : m.destination path = .ok q) (hhidden : m.Hidden q) (fault : Fault) :
    m.told q fault = .noEntry := by
  obtain ⟨other, hstat, -⟩ := (hidden_iff h).1 hhidden
  simp [told, hstat]

end Machine

namespace Builtin

open PocketShell.Action

/-- When `cd` fails with a destination that it has made out, the system refuses to change to it. The
reason that is reported is the system's unless the destination is hidden, and then it is said to be
missing. -/
theorem reason_of_runCd {s t : Session} {target path : Text} {rest : List Text}
    (hpath : s.machine.destination (Path.withHome (s.value Environment.homeName) target) = .ok path)
    (h : (runCd (target :: rest)).perform s = (.ok 1, t)) :
    ∃ fault reason, s.machine.chdir path = .error fault ∧
      t = s.complain (.cannotEnter target reason) ∧
      (fault = .errno reason ↔ ¬ s.machine.Hidden path) ∧
      (s.machine.Hidden path → reason = .noEntry) := by
  have henter : s.machine.enter path = _ :=
    Machine.enter_eq (Machine.isAbsolute_of_destination hpath)
  simp only [perform_runCd_cons, hpath, henter] at h
  cases hchdir : s.machine.chdir path with
  | ok entered => simp [hchdir, Except.mapError] at h
  | error fault =>
    simp only [hchdir, Except.mapError, Prod.mk.injEq, true_and] at h
    exact ⟨fault, s.machine.told path fault, rfl, h.symm, Machine.told_eq_iff hpath hchdir,
      fun hhidden => Machine.told_of_hidden hpath hhidden fault⟩

/-- The directory `/a/b` is there, but `/a` may not be searched: the system denies access, and `cd`
reports that the directory is missing. -/
theorem reason_of_runCd_locked :
    let a : Name := { text := ['a'] }
    let b : Name := { text := ['b'] }
    let tree : FileTree :=
      .cons a (.directory ⟨true, true, false⟩) (.cons b (.directory .all) .empty .empty) .empty
    let s := Session.start ⟨tree, .live [], true⟩ ⟨[]⟩
    let target := "/a/b".toList
    s.machine.destination (Path.withHome (s.value Environment.homeName) target) = .ok target ∧
      s.machine.chdir target = .error (.errno .accessDenied) ∧
      ∃ t reason, (runCd [target]).perform s = (.ok 1, t) ∧
        t = s.complain (.cannotEnter target reason) ∧ reason ≠ .accessDenied := by
  intro a b tree s target
  have hpath : s.machine.destination (Path.withHome (s.value Environment.homeName) target) =
      .ok target := by rfl
  have henter : s.machine.enter target = .error .noEntry := by rfl
  have hchdir : s.machine.chdir target = .error (.errno .accessDenied) := by rfl
  have hcd : (runCd [target]).perform s = (.ok 1, s.complain (.cannotEnter target .noEntry)) := by
    simp only [perform_runCd_cons, hpath, henter]
  have hhidden : s.machine.Hidden target :=
    .inr ⟨.accessDenied, .enters rfl rfl (by simp) (.barred _ (by simp) rfl), by decide⟩
  obtain ⟨fault, reason, hfault, hsaid, hreal, -⟩ := reason_of_runCd hpath hcd
  refine ⟨hpath, hchdir, _, reason, hcd, hsaid, fun hdenied => ?_⟩
  rw [hchdir] at hfault
  exact hreal.1 (by rw [hdenied, ← Except.error.inj hfault]) hhidden

end Builtin

end PocketShell
