import PocketShell.Machine.Entering
import PocketShell.Proofs.CanonicalPaths
import PocketShell.Proofs.Outcomes

/-!
# Entering directories

A path is not entered as it is given. It is joined to the path of the working directory, brought to
its canonical form on the text, looked at, and entered in that form. Whenever the path itself leads
to a directory that may be searched, this enters the same directory.
-/

namespace PocketShell

namespace Machine

open FileTree

variable {m : Machine} {path : Text} {d : Place} {permissions : Permissions} {budget : Nat}

/-- The canonical form of a path is the path of the place that it leads to. -/
theorem canonical_of_walk (hnul : '\x00' ∉ path)
    (hw : m.tree.walk .following budget .root (Path.way path) = .ok (.found d)) :
    m.canonical path = .ok (Path.ofLocation d.location) := by
  obtain ⟨after, hresolve, -⟩ := Canonical.agrees m budget (Text.not_mem_field hnul)
    (walk_components_of_way hw) (openAbove_nil m.tree)
    (Canonical.pending_nil m.tree budget) (Canonical.remembers_nil m.tree) (Nat.zero_add _)
  simp only [canonical, hresolve, Canonical.path]

/-- From an open working directory a path has a canonical form whenever it leads to a place, and
that place stands on an open way. -/
theorem destination_of_place (hlive : m.cwd.removed = [])
    (hcwd : m.tree.entryAt? m.cwd = some (.directory permissions))
    (hopen : m.tree.OpenAbove m.cwd.location) (hplace : m.place .following path = .ok d) :
    m.destination path = .ok (Path.ofLocation d.location) ∧ d.removed = [] ∧
      m.tree.OpenAbove d.location := by
  obtain ⟨hnul, hw⟩ := walk_of_place hplace
  unfold destination
  cases habsolute : Path.isAbsolute path with
  | true =>
    rw [origin, if_pos habsolute] at hw
    rw [if_pos rfl]
    exact ⟨canonical_of_walk hnul hw, (walks_of_walk hw).openAbove rfl (openAbove_nil m.tree)⟩
  | false =>
    rw [origin, habsolute, if_neg Bool.false_ne_true] at hw
    rw [entryAt?_of_live hlive] at hcwd
    have hjoined := hopen.leads hcwd .following maxLinks (Path.way path) (.inl rfl)
    rw [Place.live_location hlive, hw, Nat.zero_add, ← Path.components_ofLocation,
      ← Path.way_join habsolute (place_ne_nil hplace)] at hjoined
    have hnuljoined := Path.not_mem_join (by decide) (Path.no_nul_ofLocation m.cwd.location) hnul
    rw [if_neg Bool.false_ne_true, getcwd, if_pos hlive]
    exact ⟨canonical_of_walk hnuljoined hjoined, (walks_of_walk hw).openAbove hlive hopen⟩

/-- A directory that stands on an open way and may be searched is entered by its path. -/
theorem enter_ofLocation (hlive : d.removed = [])
    (hopen : m.tree.OpenAbove d.location) (hd : m.tree.entryAt? d = some (.directory permissions))
    (hsearch : permissions.execute = true) :
    m.enter (Path.ofLocation d.location) = .ok { m with cwd := d } := by
  have hplace := place_ofLocation hopen (entryAt?_of_live hlive ▸ hd)
  rw [Place.live_location hlive] at hplace
  have herror : m.tree.searchError? d = none := by simp [searchError?, hd, hsearch]
  simp [enter, stat, entry, chdir, hplace, hd, herror]

end Machine

namespace Builtin

open PocketShell.Action

/-- If the path that the target stands for leads to a directory that may be searched, then that is
the working directory afterwards, and nothing is printed. The working directory from which the path
is walked must exist, and the directories above it must be open. -/
theorem perform_runCd_of_place {s : Session} {target : Text} {d : Place}
    {standing permissions : Permissions} (hlive : s.machine.cwd.removed = [])
    (hcwd : s.machine.tree.entryAt? s.machine.cwd = some (.directory standing))
    (hopen : s.machine.tree.OpenAbove s.machine.cwd.location)
    (hplace : s.machine.place .following
      (Path.withHome (s.value Environment.homeName) target) = .ok d)
    (hd : s.machine.tree.entryAt? d = some (.directory permissions))
    (hsearch : permissions.execute = true) (rest : List Text) :
    ∃ after, (runCd (target :: rest)).perform s = (.ok 0, after) ∧
      after.machine = { s.machine with cwd := d } ∧ after.environment = s.environment ∧
      after.transcript.out = s.transcript.out ∧
      after.transcript.err false = s.transcript.err false ∧
      after.transcript.spawns = s.transcript.spawns := by
  obtain ⟨hdestination, hremoved, hopend⟩ :=
    Machine.destination_of_place hlive hcwd hopen hplace
  have henter := Machine.enter_ofLocation hremoved hopend hd hsearch
  refine ⟨{ s with machine := { s.machine with cwd := d } }.note
    [.directoryIs (Path.ofLocation d.location)], ?_, rfl, rfl, ?_⟩
  · rw [perform_runCd_cons, hdestination]
    simp only [henter]
  · simp [Session.note, Transcript.out, Transcript.err, Transcript.spawns]

/-- Behind the link `/l` to `/a/b`, going up leads to `/a`. -/
theorem perform_runCd_of_place_link :
    let a : Name := { text := ['a'] }
    let b : Name := { text := ['b'] }
    let l : Name := { text := ['l'] }
    let tree : FileTree := .cons a (.directory .all) (.cons b (.directory .all) .empty .empty)
      (.cons l (.link { text := "a/b".toList }) .empty .empty)
    let s := Session.start ⟨tree, .live [], true⟩ ⟨[]⟩
    ∃ after, (runCd ["l/..".toList]).perform s = (.ok 0, after) ∧
      after.machine = ⟨tree, .live [a], true⟩ ∧ after.environment = s.environment ∧
      after.transcript.out = [] ∧ after.transcript.err false = [] ∧
      after.transcript.spawns = [] := by
  intro a b l tree s
  exact perform_runCd_of_place rfl rfl (FileTree.openAbove_nil tree) rfl rfl rfl []

end Builtin

end PocketShell
