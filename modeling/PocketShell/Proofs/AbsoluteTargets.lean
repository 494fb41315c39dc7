import PocketShell.Proofs.WorkingDirectory

/-!
# Absolute targets

Two machines that differ in their working directories only answer alike about an absolute path,
wherever those are and even if they were removed. The canonical form of an absolute path is found by
looking at absolute paths only, relative targets of links included, and it is entered from the root.
So `cd` to an absolute path does the same from everywhere.
-/

namespace PocketShell

namespace Machine

open FileTree

variable {m other : Machine} {path : Text}

theorem place_congr (htree : m.tree = other.tree) (habsolute : Path.isAbsolute path = true)
    (manner : Manner) : m.place manner path = other.place manner path := by
  simp [place, origin, habsolute, htree]

theorem entry_congr (htree : m.tree = other.tree) (habsolute : Path.isAbsolute path = true)
    (manner : Manner) : m.entry manner path = other.entry manner path := by
  simp [entry, place_congr htree habsolute, htree]

/-- The working directory that is left does not count. -/
theorem chdir_congr (h : other = { m with cwd := other.cwd })
    (habsolute : Path.isAbsolute path = true) : m.chdir path = other.chdir path := by
  obtain ⟨cwd, rfl⟩ : ∃ cwd, other = { m with cwd } := ⟨other.cwd, h⟩
  have htree : m.tree = Machine.tree { m with cwd } := rfl
  simp [chdir, place_congr htree habsolute]

theorem enter_congr (h : other = { m with cwd := other.cwd })
    (habsolute : Path.isAbsolute path = true) : m.enter path = other.enter path := by
  have htree : m.tree = other.tree := (congrArg tree h).symm
  simp [enter, stat, entry_congr htree habsolute, chdir_congr h habsolute]

namespace Canonical

/-- Links are looked at by their locations, whose paths are absolute. -/
theorem linkTarget?_congr (htree : m.tree = other.tree) (l : Location) :
    linkTarget? m l = linkTarget? other l := by
  simp [linkTarget?, lstat, entry_congr htree (Path.isAbsolute_ofLocation l)]

theorem resolveWith_congr (htree : m.tree = other.tree)
    (enter : Location → List Text → Links → Except Fault (Canonical × Links)) :
    resolveWith enter m = resolveWith enter other := by
  funext l fields links
  induction fields generalizing l links with
  | nil => rfl
  | cons field rest ih => simp only [resolveWith, linkTarget?_congr htree, ih]

theorem resolve_congr (htree : m.tree = other.tree) (depth : Nat) :
    resolve m depth = resolve other depth := by
  induction depth with
  | zero => exact resolveWith_congr htree _
  | succ depth ih =>
    rw [resolve, resolve, ih]
    exact resolveWith_congr htree _

end Canonical

theorem canonical_congr (htree : m.tree = other.tree) (path : Text) :
    m.canonical path = other.canonical path := by
  rw [canonical, canonical, Canonical.resolve_congr htree, htree]

theorem destination_congr (htree : m.tree = other.tree) (habsolute : Path.isAbsolute path = true) :
    m.destination path = other.destination path := by
  simp [destination, habsolute, canonical_congr htree]

end Machine

namespace Builtin

/-- Two outcomes, from two sessions, in which the same is shown on top of what was shown before.
They give one value or break off alike. With success they leave one machine, and otherwise each
leaves its own machine as it was. -/
structure Alike (s t : Session) (here there : Except Abort Int × Session) : Prop where
  result_eq : here.1 = there.1
  shown : ∃ shown, here.2.transcript = s.transcript ++ shown ∧
    there.2.transcript = t.transcript ++ shown
  moved : here.1 = .ok 0 → here.2.machine = there.2.machine
  stayed : here.1 ≠ .ok 0 → here.2.machine = s.machine ∧ there.2.machine = t.machine

variable {s t : Session}

theorem alike_complain (s t : Session) (c : Complaint) {status : Int} (h : status ≠ 0) :
    Alike s t (.ok status, s.complain c) (.ok status, t.complain c) where
  result_eq := rfl
  shown := ⟨[.err (c.message ++ ['\n'])], rfl, rfl⟩
  moved hzero := absurd (Except.ok.inj hzero) h
  stayed _ := ⟨rfl, rfl⟩

/-- To one absolute path `cd` does the same from two working directories, and also from one that was
removed. -/
theorem alike_runCd {target : Text}
    (hmachine : t.machine = { s.machine with cwd := t.machine.cwd })
    (henvironment : s.environment = t.environment)
    (habsolute : Path.isAbsolute (Path.withHome (s.value Environment.homeName) target) = true)
    (rest : List Text) :
    Alike s t ((runCd (target :: rest)).perform s) ((runCd (target :: rest)).perform t) := by
  have hvalue : t.value Environment.homeName = s.value Environment.homeName := by
    rw [Session.value, Session.value, henvironment]
  have htree : s.machine.tree = t.machine.tree := (congrArg Machine.tree hmachine).symm
  have hdestination := Machine.destination_congr htree habsolute
  rw [perform_runCd_cons, perform_runCd_cons, hvalue, ← hdestination]
  rcases hpath : s.machine.destination (Path.withHome (s.value Environment.homeName) target) with
    (reason | _) | path
  · exact alike_complain s t _ (by decide)
  · exact ⟨rfl, ⟨[], by simp⟩, by simp, fun _ => ⟨rfl, rfl⟩⟩
  · have henter := Machine.enter_congr hmachine (Machine.isAbsolute_of_destination hpath)
    simp only [← henter]
    cases s.machine.enter path with
    | error reason => exact alike_complain s t _ (by decide)
    | ok entered =>
      exact ⟨rfl, ⟨[.remark (.directoryIs path)], rfl, rfl⟩, fun _ => rfl, by simp⟩

/-- Home is behind the relative link `/l` to `/d`: it is entered from a directory that was removed
as it is from `/e`. -/
theorem alike_runCd_home :
    let d : Name := { text := ['d'] }
    let e : Name := { text := ['e'] }
    let l : Name := { text := ['l'] }
    let tree : FileTree := .cons d (.directory .all) .empty (.cons e (.directory .all) .empty
      (.cons l (.link { text := ['d'] }) .empty .empty))
    let environment : Environment := ⟨[(Environment.homeName, "/l".toList)]⟩
    let s := Session.start ⟨tree, ⟨[], [.all]⟩, true⟩ environment
    let t := Session.start ⟨tree, .live [e], true⟩ environment
    Path.isAbsolute (Path.withHome (s.value Environment.homeName) ['~']) = true ∧
      ((runCd [['~']]).perform s).1 = .ok 0 ∧ ((runCd [['~']]).perform t).1 = .ok 0 ∧
      ((runCd [['~']]).perform s).2.machine = ((runCd [['~']]).perform t).2.machine := by
  intro d e l tree environment s t
  have habsolute : Path.isAbsolute (Path.withHome (s.value Environment.homeName) ['~']) = true := by
    rfl
  have halike : Alike s t ((runCd [['~']]).perform s) ((runCd [['~']]).perform t) :=
    alike_runCd (s := s) (t := t) rfl rfl habsolute []
  have hok : ((runCd [['~']]).perform s).1 = .ok 0 := by rfl
  exact ⟨habsolute, hok, halike.result_eq ▸ hok, halike.moved hok⟩

end Builtin

end PocketShell
