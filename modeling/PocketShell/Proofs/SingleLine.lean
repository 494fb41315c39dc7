import PocketShell.Launch
import PocketShell.Proofs.AcceptedArguments
import PocketShell.Proofs.LoopHistory
import PocketShell.Proofs.ShownBefore

/-!
# A single line

A line can be given as an argument, or be the only one that the read loop reads. It comes to the
same in both ways: the loop shows its prompt before the line, and another one with a line end when
the input is over, which it only sees if the line neither leaves the shell nor breaks off.
-/

namespace PocketShell.Launch

open ReadLoop

variable {terminal : Terminal} {line : Text} {m : Machine} {e : Environment} {s u : Session}

/-- A line that is accepted as an argument is run, and nothing is read. -/
theorem run_command {o : Options} (h : Arguments.read ["-c".toList, line] = .options o)
    (reads : List Read) :
    run terminal ["-c".toList, line] s reads =
      ⟨[s, (oneLine line s).2], (oneLine line s).1, [], reads.length, false⟩ := by
  obtain rfl := Arguments.eq_of_read_command h
  simp only [run, h]
  rfl

/-- Without arguments and without a terminal there is only the read loop. -/
theorem run_no_arguments (h : terminal.isTerminal = false) (reads : List Read) :
    run terminal [] s reads =
      ⟨s :: (ReadLoop.run s reads).stages, endingOf (ReadLoop.run s reads).ending, [],
        (ReadLoop.run s reads).unread, false⟩ := by
  have hnone : Arguments.read [] = .options ⟨none, false, false⟩ := rfl
  have hcompletion : wantsCompletion terminal ⟨none, false, false⟩ = false := by
    simp [wantsCompletion, h]
  simp only [run, hnone, withOptions, interactive, hcompletion]
  rfl

/-- A fresh shell has shown nothing before its first prompt. -/
theorem prompted_start (m : Machine) (e : Environment) :
    prompted (.start m e) = (Session.start m e).behind [.out prompt] := rfl

/-- The loop reads a line that comes to a status, and then sees the end of its input. -/
theorem run_line_of_ok {status : Int}
    (h : (Line.evaluate line).perform (.start m e) = (.ok status, u)) :
    ReadLoop.run (.start m e) [.line line] =
      ⟨[.start m e, u.behind [.out prompt], newline (prompted (u.behind [.out prompt]))],
        .ok status, 0⟩ := by
  have hnone : Transcript.spawns [.out prompt] = [] := rfl
  have hheedless := (Line.heedless_evaluate line).perform_behind hnone (.start m e)
  rw [h, ← prompted_start] at hheedless
  have hstatus : u.status = status := status_of_ok h
  simp only [ReadLoop.run, await, respond, hheedless, Prod.map, id]
  rw [← hstatus]
  rfl

/-- A line that ends the loop is the last thing that the loop reads. -/
theorem run_line_of_ends {ending : Except Fault Int}
    (h : respond (.start m e) (.line line) = .ends u ending) :
    ReadLoop.run (.start m e) [.line line] = ⟨[.start m e, u.behind [.out prompt]], ending, 0⟩ := by
  have hcount : (Transcript.spawns [.out prompt]).length = (Transcript.spawns []).length := rfl
  obtain ⟨reply, hbehind, hplain⟩ := exists_respond_behind hcount (.start m e) (.line line)
  rw [Session.behind_nil, h, Reply.behind_nil] at hplain
  rw [← hplain, ← prompted_start] at hbehind
  simp only [ReadLoop.run, await, hbehind]
  rfl

/-- The session in which the loop ends goes on from the one in which the line ends: another prompt
and a line end are shown if the line comes to a status, and nothing more otherwise. -/
def lastOfLoop (line : Text) (s u : Session) : Session :=
  match ((Line.evaluate line).perform s).1 with
  | .ok _ => newline (prompted (u.behind [.out prompt]))
  | .error _ => u.behind [.out prompt]

/-- Unless an interrupt arrives, the loop and the line end in the same way. -/
theorem run_line (h : (oneLine line (.start m e)).1 ≠ .aborts .interrupted) :
    let course := ReadLoop.run (.start m e) [.line line]
    endingOf course.ending = (oneLine line (.start m e)).1 ∧
      course.stages.getLast? =
        some (lastOfLoop line (.start m e) (oneLine line (.start m e)).2) := by
  intro course
  rcases hline : (Line.evaluate line).perform (.start m e) with
    ⟨(status | _ | reason) | status, u⟩
  · have hends : respond (.start m e) (.line line) = .ends u (.ok status) := by
      simp [respond, hline]
    simp only [course, run_line_of_ends hends, oneLine, lastOfLoop, hline]
    exact ⟨rfl, rfl⟩
  · simp [oneLine, hline] at h
  · have hends : respond (.start m e) (.line line) = .ends u (.error reason) := by
      simp [respond, hline]
    simp only [course, run_line_of_ends hends, oneLine, lastOfLoop, hline]
    exact ⟨rfl, rfl⟩
  · simp only [course, run_line_of_ok hline, oneLine, lastOfLoop, hline]
    exact ⟨rfl, rfl⟩

/-- What is shown behind a prompt, and possibly before another one. -/
theorem shown_lastOfLoop (line : Text) (s u : Session) :
    let v := lastOfLoop line s u
    v.machine = u.machine ∧ v.environment = u.environment ∧
      v.transcript.err false = u.transcript.err false ∧
      v.transcript.spawns = u.transcript.spawns ∧
      v.transcript.out = prompt ++ u.transcript.out ++
        if ((Line.evaluate line).perform s).1.isOk then prompt ++ ['\n'] else [] := by
  unfold lastOfLoop
  cases ((Line.evaluate line).perform s).1 with
  | ok status =>
    simp [newline, prompted, Session.print, Session.record, Session.behind, Transcript.out,
      Transcript.err, Transcript.spawns, Except.isOk, Except.toBool]
  | error reason =>
    simp [Session.behind, Transcript.out, Transcript.err, Transcript.spawns, Except.isOk,
      Except.toBool]

/-- A line that is accepted as an argument, and that no interrupt ends, comes to the same as when it
is the only line of the loop: the ending, the error text, the files, the working directory and the
programs started are the same. The loop shows a prompt before the line, and another one with a line
end exactly if the line comes to a status. -/
theorem agrees_with_loop {o : Options} (m : Machine) (e : Environment) (anywhere : Terminal)
    (hasLineEditor : Bool) (reads : List Read)
    (haccepted : Arguments.read ["-c".toList, line] = .options o)
    (hcalm : (run anywhere ["-c".toList, line] (.start m e) reads).ending ≠ .aborts .interrupted) :
    let once := run anywhere ["-c".toList, line] (.start m e) reads
    let loop := run ⟨false, hasLineEditor⟩ [] (.start m e) [.line line]
    loop.ending = once.ending ∧
      ∃ u v, once.stages.getLast? = some u ∧ loop.stages.getLast? = some v ∧
        v.machine = u.machine ∧ v.environment = u.environment ∧
        v.transcript.err loop.showRemarks = u.transcript.err once.showRemarks ∧
        v.transcript.spawns = u.transcript.spawns ∧
        ((∃ status, ((Line.evaluate line).perform (.start m e)).1 = .ok status) →
          v.transcript.out = "$ ".toList ++ u.transcript.out ++ "$ \n".toList) ∧
        ((¬ ∃ status, ((Line.evaluate line).perform (.start m e)).1 = .ok status) →
          v.transcript.out = "$ ".toList ++ u.transcript.out) := by
  intro once loop
  have honce : once = _ := run_command haccepted reads
  have hloop : loop = _ := run_no_arguments rfl [.line line]
  rw [show run anywhere ["-c".toList, line] (.start m e) reads = once from rfl, honce] at hcalm
  obtain ⟨hending, hlast⟩ := run_line hcalm
  obtain ⟨hmachine, henvironment, herr, hspawns, hout⟩ :=
    shown_lastOfLoop line (.start m e) (oneLine line (.start m e)).2
  rw [honce, hloop]
  refine ⟨hending, (oneLine line (.start m e)).2, lastOfLoop line (.start m e)
    (oneLine line (.start m e)).2, rfl, ?_, hmachine, henvironment, herr, hspawns, ?_, ?_⟩
  · rw [List.getLast?_cons, hlast]
    rfl
  · rintro ⟨status, hstatus⟩
    rw [hout, hstatus]
    rfl
  · intro hnone
    have hfails : ((Line.evaluate line).perform (.start m e)).1.isOk = false := by
      cases hresult : ((Line.evaluate line).perform (.start m e)).1 with
      | ok status => exact absurd ⟨status, hresult⟩ hnone
      | error reason => rfl
    rw [hout, hfails]
    exact List.append_nil _

/-- A program whose errors go to a file comes to 3, as an argument and in the loop. -/
theorem agrees_with_loop_redirected :
    let x : Name := { text := ['x'] }
    let f : Name := { text := ['f'] }
    let program : Entry := .file .all [] (.always (.completes "out".toList "err".toList 3))
    let m : Machine := ⟨.cons x program .empty .empty, .root, true⟩
    let e : Environment := ⟨[(Environment.pathName, ['/'])]⟩
    let line := "x 2> f".toList
    let once := run ⟨true, true⟩ ["-c".toList, line] (.start m e) []
    let loop := run ⟨false, true⟩ [] (.start m e) [.line line]
    Arguments.read ["-c".toList, line] = .options ⟨some line, false, false⟩ ∧
      once.ending ≠ .aborts .interrupted ∧ once.ending = .returns 3 ∧ loop.ending = .returns 3 ∧
      ∃ v, loop.stages.getLast? = some v ∧ v.machine.tree.text? [f] = some "err".toList ∧
        v.transcript.out = "$ out$ \n".toList := by
  intro x f program m e line once loop
  have haccepted : Arguments.read ["-c".toList, line] = .options ⟨some line, false, false⟩ := rfl
  have honce : once.ending = .returns 3 := rfl
  have hcalm : once.ending ≠ .aborts .interrupted := by simp [honce]
  have hstatus : ((Line.evaluate line).perform (.start m e)).1 = .ok 3 := rfl
  obtain ⟨hending, u, v, hu, hv, hmachine, -, -, -, hout, -⟩ :=
    agrees_with_loop m e ⟨true, true⟩ true [] haccepted hcalm
  obtain rfl := Option.some.inj hu
  refine ⟨haccepted, hcalm, honce, hending.trans honce, v, hv, ?_, ?_⟩
  · rw [hmachine]
    rfl
  · rw [hout ⟨3, hstatus⟩]
    rfl

end PocketShell.Launch
