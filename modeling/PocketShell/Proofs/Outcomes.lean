import PocketShell.Line.Evaluation

/-!
# Outcomes

What each action of the shell comes to, said without the steps that it takes: its value or why it
broke off, and the session that it leaves. One equation for each action; what is proved of whole
lines is proved from these.
-/

namespace PocketShell

namespace Session

@[simp] theorem machine_note (s : Session) (remarks : List Remark) :
    (s.note remarks).machine = s.machine := rfl

@[simp] theorem note_nil (s : Session) : s.note [] = s := by simp [note]

/-- Remarks are no starts. -/
@[simp] theorem started_note (s : Session) (remarks : List Remark) :
    (s.note remarks).started = s.started := by
  have hnone : Transcript.spawns (remarks.map .remark) = [] := by
    simp [Transcript.spawns, List.filterMap_map]
  simp [started, note, hnone]

end Session

namespace Action

variable {α : Type}

theorem perform_note (remarks : List Remark) (s : Session) :
    perform (note remarks) s = (.ok (), s.note remarks) := rfl

theorem perform_uncaught (answer : Except Fault α) (s : Session) :
    perform (uncaught answer) s = (answer.mapError .fault, s) := by
  cases answer <;> rfl

end Action

namespace Builtin

open PocketShell.Action

theorem perform_lookUp (name : Text) (s : Session) :
    (lookUp name).perform s =
      match SearchPath.find s.machine (s.value Environment.pathName) name with
      | .ok answer => (.ok answer, s.note (SearchPath.remarks name answer))
      | .error reason => (.error (.fault reason), s) := by
  simp only [lookUp, perform_bind, perform_get, perform_uncaught]
  cases SearchPath.find s.machine (s.value Environment.pathName) name with
  | ok answer => rfl
  | error reason => rfl

theorem perform_runEcho (args : List Text) (s : Session) :
    (runEcho args).perform s = (.ok 0, s.print (Text.joined [' '] args ++ ['\n'])) := rfl

theorem perform_runType_nil (s : Session) : (runType []).perform s = (.ok 1, s.complain .noName) :=
  rfl

theorem perform_runType_builtin {name : Text} {b : Builtin} (h : ofName? name = some b)
    (rest : List Text) (s : Session) :
    (runType (name :: rest)).perform s =
      (.ok 0, s.print (name ++ " is a shell builtin".toList ++ ['\n'])) := by
  simp only [runType, h, Option.isSome_some, if_true, perform_bind]
  rfl

theorem perform_runType_lookUp {name : Text} (h : ofName? name = none) (rest : List Text)
    (s : Session) :
    (runType (name :: rest)).perform s =
      match SearchPath.find s.machine (s.value Environment.pathName) name with
      | .ok (some path) =>
        (.ok 0, (s.note [.resolved name path]).print (name ++ " is ".toList ++ path ++ ['\n']))
      | .ok none =>
        (.ok 1, (s.note (SearchPath.remarks name none)).print
          (name ++ ": not found".toList ++ ['\n']))
      | .error reason => (.error (.fault reason), s) := by
  simp only [runType, h, Option.isSome_none, Bool.false_eq_true, if_false, perform_bind,
    perform_lookUp]
  cases SearchPath.find s.machine (s.value Environment.pathName) name with
  | ok answer => cases answer <;> rfl
  | error reason => rfl

theorem perform_runPwd (s : Session) :
    runPwd.perform s =
      match s.machine.getcwd with
      | .ok path => (.ok 0, s.print (path ++ ['\n']))
      | .error (.errno reason) => (.ok 1, s.complain (.noWorkingDirectory reason))
      | .error .nul => (.error (.fault .nul), s) := by
  simp only [runPwd, perform_bind, perform_get]
  cases s.machine.getcwd with
  | ok path => rfl
  | error reason => cases reason <;> rfl

theorem perform_runCd_nil (s : Session) : (runCd []).perform s = (.ok 1, s.complain .noDirectory) :=
  rfl

theorem perform_runCd_cons (target : Text) (rest : List Text) (s : Session) :
    (runCd (target :: rest)).perform s =
      match s.machine.destination (Path.withHome (s.value Environment.homeName) target) with
      | .error .nul => (.error (.fault .nul), s)
      | .error (.errno reason) => (.ok 1, s.complain (.cannotEnter target reason))
      | .ok path =>
        match s.machine.enter path with
        | .error reason => (.ok 1, s.complain (.cannotEnter target reason))
        | .ok machine => (.ok 0, { s with machine := machine }.note [.directoryIs path]) := by
  simp only [runCd, perform_bind, perform_get]
  cases s.machine.destination (Path.withHome (s.value Environment.homeName) target) with
  | error reason => cases reason <;> rfl
  | ok path =>
    simp only
    cases s.machine.enter path <;> rfl

theorem perform_runExit (args : List Text) (s : Session) :
    (runExit args).perform s =
      match exitStatus? args with
      | some status => (.error (.exit status), s)
      | none => (.error (.exit 2), s.complain .notNumeric) := by
  unfold runExit
  cases exitStatus? args <;> rfl

end Builtin

namespace Execution

open PocketShell.Action

/-- The text of one stream goes to the end of the target, and the text of the other is shown. -/
theorem deliverBoth_some (kind : Redirection.Kind) (l : Location) (out err : Text) (s : Session) :
    deliverBoth (some (kind, l)) out err s =
      match kind.stream with
      | .stdout => { s with machine := s.machine.append l out }.record (.err err)
      | .stderr => { s with machine := s.machine.append l err }.record (.out out) := by
  obtain ⟨stream, writing⟩ := kind
  cases stream <;> rfl

theorem perform_await_refuses (name : Text) (target : Option Target) (reason : Refusal)
    (s : Session) :
    (await name target (.refuses reason)).perform s =
      (.ok statusCannotStart, s.complain (.cannotStart name reason)) := rfl

theorem perform_await_interrupted (name : Text) (target : Option Target) (out err : Text)
    (s : Session) :
    (await name target (.interrupted out err)).perform s =
      (.error .interrupted, deliverBoth target out err s) := rfl

theorem perform_await_completes (name : Text) (target : Option Target) (out err : Text) (code : Int)
    (s : Session) :
    (await name target (.completes out err code)).perform s =
      (.ok code, deliverBoth target out err s) := rfl

theorem perform_launch (c : Command) (path : Text) (target : Option Target) (s : Session) :
    (launch c path target).perform s =
      if c.argv.any ('\x00' ∈ ·) then (.error (.fault .nul), s.note [.running path c.argv])
      else match s.machine.program path with
        | .error .nul => (.error (.fault .nul), s.note [.running path c.argv])
        | .error (.errno reason) =>
          (.ok statusCannotStart,
            (s.note [.running path c.argv]).complain (.cannotStart c.name (.errno reason)))
        | .ok program =>
          (await c.name target (program c.argv s.started)).perform
            ((s.note [.running path c.argv]).record
              (.spawn ⟨path, c.argv, target.map Prod.fst⟩)) := by
  simp only [launch, perform_bind, perform_note]
  split
  · rfl
  · simp only [perform_bind, perform_get, Session.machine_note]
    cases s.machine.program path with
    | ok program =>
      rw [← Session.started_note s [.running path c.argv]]
      rfl
    | error reason => cases reason <;> rfl

theorem perform_runProgram (c : Command) (s : Session) :
    (runProgram c).perform s =
      match SearchPath.find s.machine (s.value Environment.pathName) c.name with
      | .error reason => (.error (.fault reason), s)
      | .ok none =>
        (.ok statusNotFound,
          (s.note (SearchPath.remarks c.name none)).complain (.commandNotFound c.name))
      | .ok (some path) =>
        match c.redirection with
        | none => (launch c path none).perform (s.note [.resolved c.name path])
        | some r =>
          match s.machine.openFile r.target r.kind.writing with
          | .error .nul => (.error (.fault .nul), s.note [.resolved c.name path])
          | .error (.errno reason) =>
            (.ok 1, (s.note [.resolved c.name path]).complain
              (.cannotOpen c.name r.target reason))
          | .ok (machine, l) =>
            (launch c path (some (r.kind, l))).perform
              ({ s.note [.resolved c.name path] with machine := machine }.note
                [.redirected r.kind r.target]) := by
  simp only [runProgram, perform_bind, Builtin.perform_lookUp]
  cases SearchPath.find s.machine (s.value Environment.pathName) c.name with
  | error reason => rfl
  | ok answer =>
    cases answer with
    | none => rfl
    | some path =>
      cases c.redirection with
      | none => rfl
      | some r =>
        simp only [perform_bind, perform_get, Session.machine_note]
        cases s.machine.openFile r.target r.kind.writing with
        | error reason => cases reason <;> rfl
        | ok opened => rfl

theorem perform_runWords (ws : List Word) (s : Session) :
    (runWords ws).perform s =
      match Command.ofWords? ws with
      | some c => (runCommand c).perform (s.note (remarks ws (Clause.ofWords ws)))
      | none => (.ok 0, s.note (remarks ws (Clause.ofWords ws))) := by
  simp only [runWords, Command.ofWords?, perform_bind, perform_note]
  cases (Clause.ofWords ws).command? <;> rfl

end Execution

namespace Line

open PocketShell.Action

/-- No words ask for no command, so the empty line needs no case of its own. -/
theorem perform_status (line : Text) (s : Session) :
    (status line).perform s =
      match words line with
      | .error mark => (.ok statusUnclosed, s.complain (.unclosed mark))
      | .ok ws => (Execution.runWords ws).perform (s.note [.words ws]) := by
  unfold status
  cases words line with
  | error mark => rfl
  | ok ws =>
    simp only [perform_bind, perform_note]
    split
    · next h =>
      subst h
      simp [Execution.perform_runWords, Command.ofWords?, Clause.ofWords, Clause.command?,
        Execution.remarks]
    · rfl

theorem perform_evaluate (line : Text) (s : Session) :
    (evaluate line).perform s =
      match (status line).perform s with
      | (.ok status, after) => (.ok status, after.withStatus (some status))
      | (.error reason, after) => (.error reason, after) := by
  simp only [evaluate, perform_bind]
  cases (status line).perform s with
  | mk result after => cases result <;> rfl

end Line

end PocketShell
