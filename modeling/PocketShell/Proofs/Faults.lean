import PocketShell.Proofs.NulFreePaths
import PocketShell.Proofs.Outcomes

/-!
# Faults that nothing answers for

A line breaks off with a fault in four ways only: a name is found below a relative directory of the
search path after the working directory was removed; the way to the directory that `cd` is given
meets U+0000; the target of a redirection holds U+0000; or an argument of a program that is about to
be started holds it. Each of them is said here of the machine and the environment before the line,
and is shown to be what running the line comes to.
-/

namespace PocketShell

namespace Action

variable {α : Type}

/-- The action breaks off with a fault. -/
def Faults (a : Action α) (s : Session) (reason : Fault) : Prop :=
  (a.perform s).1 = .error (.fault reason)

end Action

namespace Faults

open Execution SearchPath

variable {m : Machine} {e : Environment} {s : Session} {c : Command} {reason : Fault}

/-- The name is found below a relative directory, and the working directory was removed. -/
def LosesDirectory (m : Machine) (e : Environment) (name : Text) : Prop :=
  isName name = true ∧ m.cwd.removed ≠ [] ∧
    ∃ directory, IsFirstHolder m (e.value Environment.pathName) name directory ∧
      Path.isAbsolute directory = false

/-- The name of a command is found, and its target, if it has one, can be opened. -/
def Opens (m : Machine) (c : Command) : Prop :=
  ∀ r, c.redirection = some r → ∃ opened, m.openFile r.target r.kind.writing = .ok opened

/-- A program that is found breaks off at U+0000 in its target; once that is open, at U+0000 in an
argument. -/
def MeetsNul (m : Machine) (e : Environment) (c : Command) : Prop :=
  ∃ path, find m (e.value Environment.pathName) c.name = .ok (some path) ∧
    ((∃ r, c.redirection = some r ∧ '\x00' ∈ r.target) ∨
      (Opens m c ∧ ∃ arg ∈ c.argv, '\x00' ∈ arg))

/-- A command breaks off with a fault. -/
def CommandBreaks (m : Machine) (e : Environment) (c : Command) (reason : Fault) : Prop :=
  match builtin? c with
  | some .type => reason = .errno .noEntry ∧
      ∃ name rest, c.args = name :: rest ∧ Builtin.ofName? name = none ∧ LosesDirectory m e name
  | some .cd => reason = .nul ∧
      ∃ target rest, c.args = target :: rest ∧
        m.destination (Path.withHome (e.value Environment.homeName) target) = .error .nul
  | some _ => False
  | none =>
    (reason = .errno .noEntry ∧ LosesDirectory m e c.name) ∨ (reason = .nul ∧ MeetsNul m e c)

/-- A line breaks off with a fault. -/
def LineBreaks (s : Session) (line : Text) (reason : Fault) : Prop :=
  ∃ ws c, Line.words line = .ok ws ∧ Command.ofWords? ws = some c ∧
    CommandBreaks s.machine s.environment c reason

theorem find_eq_error_iff_losesDirectory {name : Text} :
    find m (e.value Environment.pathName) name = .error reason ↔
      reason = .errno .noEntry ∧ LosesDirectory m e name := by
  rw [find_eq_error_iff]
  constructor
  · rintro ⟨hn, hd, hr, rfl⟩
    exact ⟨rfl, hn, hr, hd⟩
  · rintro ⟨rfl, hn, hr, hd⟩
    exact ⟨hn, hd, hr, rfl⟩

theorem faults_runType {args : List Text} :
    (Builtin.runType args).Faults s reason ↔ reason = .errno .noEntry ∧
      ∃ name rest, args = name :: rest ∧ Builtin.ofName? name = none ∧
        LosesDirectory s.machine s.environment name := by
  cases args with
  | nil => simp [Action.Faults, Builtin.perform_runType_nil]
  | cons name rest =>
    cases hb : Builtin.ofName? name with
    | some b => simp [Action.Faults, Builtin.perform_runType_builtin hb, hb]
    | none =>
      have hiff : (Builtin.runType (name :: rest)).Faults s reason ↔
          find s.machine (s.value Environment.pathName) name = .error reason := by
        rw [Action.Faults, Builtin.perform_runType_lookUp hb]
        cases find s.machine (s.value Environment.pathName) name with
        | error reason => simp
        | ok answer => cases answer <;> simp
      rw [hiff, Session.value, find_eq_error_iff_losesDirectory]
      simp [hb]

theorem faults_runCd {args : List Text} :
    (Builtin.runCd args).Faults s reason ↔ reason = .nul ∧
      ∃ target rest, args = target :: rest ∧ s.machine.destination
        (Path.withHome (s.environment.value Environment.homeName) target) = .error .nul := by
  cases args with
  | nil => simp [Action.Faults, Builtin.perform_runCd_nil]
  | cons target rest =>
    rw [Action.Faults, Builtin.perform_runCd_cons, Session.value]
    cases hd : s.machine.destination
      (Path.withHome (s.environment.value Environment.homeName) target) with
    | error fault => cases fault <;> simp [hd, eq_comm]
    | ok path =>
      simp only
      cases s.machine.enter path <;> simp [hd]

theorem not_faults_runPwd : ¬ Builtin.runPwd.Faults s reason := by
  rw [Action.Faults, Builtin.perform_runPwd]
  cases hc : s.machine.getcwd with
  | ok path => simp
  | error fault =>
    cases fault with
    | errno reason => simp
    | nul => exact absurd hc s.machine.getcwd_ne_nul

theorem not_faults_runExit {args : List Text} : ¬ (Builtin.runExit args).Faults s reason := by
  rw [Action.Faults, Builtin.perform_runExit]
  cases Builtin.exitStatus? args <;> simp

theorem not_faults_await {name : Text} {target : Option Target} {deed : Deed} :
    ¬ (await name target deed).Faults s reason := by
  cases deed <;> simp [Action.Faults, perform_await_refuses, perform_await_interrupted,
    perform_await_completes]

theorem faults_launch {path : Text} {target : Option Target} :
    (launch c path target).Faults s reason ↔
      reason = .nul ∧ ('\x00' ∈ path ∨ ∃ arg ∈ c.argv, '\x00' ∈ arg) := by
  rw [Action.Faults, perform_launch]
  by_cases hargs : ∃ arg ∈ c.argv, '\x00' ∈ arg
  · have hany : c.argv.any ('\x00' ∈ ·) = true := by simpa using hargs
    simp [hany, hargs, eq_comm]
  · have hany : c.argv.any ('\x00' ∈ ·) = false := by simpa using hargs
    have hpath := Machine.program_eq_nul_iff s.machine path
    simp only [hany, Bool.false_eq_true, if_false, hargs, or_false]
    cases hp : s.machine.program path with
    | ok program =>
      simp only [← hpath, hp, reduceCtorEq, and_false, iff_false]
      exact not_faults_await
    | error fault => cases fault <;> simp [← hpath, hp, eq_comm]

/-- Of a program whose target is open, only the arguments are left to be refused: the path that is
found for it holds no U+0000. -/
theorem meetsNul_iff {path : Text}
    (hf : find m (e.value Environment.pathName) c.name = .ok (some path)) (ho : Opens m c) :
    MeetsNul m e c ↔ '\x00' ∈ path ∨ ∃ arg ∈ c.argv, '\x00' ∈ arg := by
  constructor
  · rintro ⟨other, -, ⟨r, hr, hnul⟩ | ⟨-, hnul⟩⟩
    · obtain ⟨opened, hopened⟩ := ho r hr
      rw [← Machine.openFile_eq_nul_iff m r.target r.kind.writing, hopened] at hnul
      simp at hnul
    · exact .inr hnul
  · rintro (hnul | hnul)
    · exact absurd hnul (Machine.not_mem_of_find hf)
    · exact ⟨path, hf, .inr ⟨ho, hnul⟩⟩

theorem faults_runProgram :
    (runProgram c).Faults s reason ↔
      (reason = .errno .noEntry ∧ LosesDirectory s.machine s.environment c.name) ∨
        (reason = .nul ∧ MeetsNul s.machine s.environment c) := by
  rw [← find_eq_error_iff_losesDirectory, Action.Faults, perform_runProgram, Session.value]
  cases hf : find s.machine (s.environment.value Environment.pathName) c.name with
  | error fault => simp [MeetsNul, hf]
  | ok answer =>
    cases answer with
    | none => simp [MeetsNul, hf]
    | some path =>
      simp only [reduceCtorEq, false_or]
      cases hr : c.redirection with
      | none =>
        rw [meetsNul_iff hf fun r h => by simp [hr] at h]
        exact faults_launch
      | some r =>
        simp only
        cases ho : s.machine.openFile r.target r.kind.writing with
        | ok opened =>
          have hopens : Opens s.machine c := by
            intro other h
            rw [hr] at h
            exact ⟨opened, Option.some.inj h ▸ ho⟩
          rw [meetsNul_iff hf hopens]
          exact faults_launch
        | error fault =>
          have htarget := Machine.openFile_eq_nul_iff s.machine r.target r.kind.writing
          cases fault <;> simp [MeetsNul, Opens, hf, hr, ho, ← htarget, eq_comm]

theorem faults_runCommand :
    (runCommand c).Faults s reason ↔ CommandBreaks s.machine s.environment c reason := by
  unfold runCommand CommandBreaks
  cases hb : builtin? c with
  | none => exact faults_runProgram
  | some b =>
    cases b with
    | echo => simp [Builtin.run, Action.Faults, Builtin.perform_runEcho]
    | type => exact faults_runType
    | pwd => simpa [Builtin.run] using not_faults_runPwd
    | cd => exact faults_runCd
    | exit => simpa [Builtin.run] using not_faults_runExit

/-- A line breaks off with a fault exactly if its words ask for a command that does. -/
theorem faults_evaluate {line : Text} :
    (Line.evaluate line).Faults s reason ↔ LineBreaks s line reason := by
  have hstatus : (Line.evaluate line).Faults s reason ↔ (Line.status line).Faults s reason := by
    rw [Action.Faults, Action.Faults, Line.perform_evaluate]
    rcases (Line.status line).perform s with ⟨_ | _, after⟩ <;> simp
  rw [hstatus, Action.Faults, Line.perform_status, LineBreaks]
  cases hw : Line.words line with
  | error mark => simp
  | ok ws =>
    simp only [perform_runWords]
    cases hc : Command.ofWords? ws with
    | none => simp [hc]
    | some c =>
      simp only [Except.ok.injEq, exists_and_left, exists_eq_left', hc, Option.some.injEq]
      exact faults_runCommand

end Faults

end PocketShell
