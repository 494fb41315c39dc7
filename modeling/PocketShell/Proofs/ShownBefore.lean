import PocketShell.Proofs.Outcomes
import PocketShell.ReadLoop

/-!
# What was shown before

Of what was shown before, an action only heeds how many programs were started, for that is what a
program may go by; it adds to the end of the transcript. An action that is performed behind one
transcript therefore comes to what it comes to behind another one with as many starts, and so do a
line and a whole read loop: every session on the way is the same but for what was shown before.
-/

namespace PocketShell

namespace Session

/-- The session with more shown before all that it has shown. -/
def behind (shown : Transcript) (s : Session) : Session :=
  { s with transcript := shown ++ s.transcript }

variable (shown : Transcript) (s : Session)

@[simp] theorem machine_behind : (s.behind shown).machine = s.machine := rfl

@[simp] theorem status_behind : (s.behind shown).status = s.status := rfl

@[simp] theorem transcript_behind : (s.behind shown).transcript = shown ++ s.transcript := rfl

@[simp] theorem value_behind (name : Text) : (s.behind shown).value name = s.value name := rfl

@[simp] theorem behind_nil : s.behind [] = s := rfl

@[simp] theorem started_behind :
    (s.behind shown).started = shown.spawns.length + s.started := by
  simp [started]

@[simp] theorem record_behind (e : Event) :
    (s.behind shown).record e = (s.record e).behind shown := by
  simp [record, behind]

@[simp] theorem note_behind (remarks : List Remark) :
    (s.behind shown).note remarks = (s.note remarks).behind shown := by
  simp [note, behind]

@[simp] theorem print_behind (text : Text) :
    (s.behind shown).print text = (s.print text).behind shown :=
  record_behind shown s (.out text)

@[simp] theorem complain_behind (c : Complaint) :
    (s.behind shown).complain c = (s.complain c).behind shown :=
  record_behind shown s (.err (c.message ++ ['\n']))

@[simp] theorem withStatus_behind (status : Option Int) :
    (s.behind shown).withStatus status = (s.withStatus status).behind shown := rfl

@[simp] theorem change_behind (c : Change) :
    (s.behind shown).change c = (s.change c).behind shown := by
  cases c <;> rfl

end Session

open Session

/-- The action takes no notice of what was shown before, but for the number of starts. -/
def Action.Heedless {α : Type} (a : Action α) : Prop :=
  ∀ (shown other : Transcript) (s : Session), shown.spawns.length = other.spawns.length →
    ∃ outcome, a.perform (s.behind shown) = Prod.map id (behind shown) outcome ∧
      a.perform (s.behind other) = Prod.map id (behind other) outcome

namespace Action.Heedless

variable {α : Type} {a : Action α}

theorem of_perform
    (h : ∀ (shown : Transcript) (s : Session),
      a.perform (s.behind shown) = Prod.map id (behind shown) (a.perform s)) : a.Heedless :=
  fun shown other s _ => ⟨a.perform s, h shown s, h other s⟩

/-- Where nothing was started before, all goes as it would go if nothing had been shown. -/
theorem perform_behind (h : a.Heedless) {shown : Transcript} (hshown : shown.spawns = [])
    (s : Session) : a.perform (s.behind shown) = Prod.map id (behind shown) (a.perform s) := by
  obtain ⟨outcome, hbehind, hplain⟩ := h shown [] s (by rw [hshown]; rfl)
  rw [behind_nil] at hplain
  rw [hbehind, hplain]
  rfl

end Action.Heedless

namespace Builtin

theorem heedless_runType (args : List Text) : (runType args).Heedless := by
  refine .of_perform fun shown s => ?_
  cases args with
  | nil => simp [perform_runType_nil]
  | cons name rest =>
    cases hb : ofName? name with
    | some b => simp [perform_runType_builtin hb]
    | none =>
      simp only [perform_runType_lookUp hb, machine_behind, value_behind]
      rcases SearchPath.find s.machine (s.value Environment.pathName) name with
        reason | _ | path <;> simp

theorem heedless_runPwd : runPwd.Heedless := by
  refine .of_perform fun shown s => ?_
  simp only [perform_runPwd, machine_behind]
  rcases s.machine.getcwd with (reason | _) | path <;> simp

theorem heedless_runCd (args : List Text) : (runCd args).Heedless := by
  refine .of_perform fun shown s => ?_
  cases args with
  | nil => simp [perform_runCd_nil]
  | cons target rest =>
    simp only [perform_runCd_cons, machine_behind, value_behind]
    rcases s.machine.destination (Path.withHome (s.value Environment.homeName) target) with
      (reason | _) | path
    · simp
    · simp
    · simp only
      cases s.machine.enter path with
      | error reason => simp
      | ok machine =>
        have hnoted := note_behind shown { s with machine := machine } [.directoryIs path]
        exact congrArg (Prod.mk _) hnoted

theorem heedless_runExit (args : List Text) : (runExit args).Heedless := by
  refine .of_perform fun shown s => ?_
  simp only [perform_runExit]
  cases exitStatus? args <;> simp

theorem heedless_run (b : Builtin) (args : List Text) : (b.run args).Heedless := by
  cases b with
  | echo => exact .of_perform fun shown s => by simp [run, perform_runEcho]
  | type => exact heedless_runType args
  | pwd => exact heedless_runPwd
  | cd => exact heedless_runCd args
  | exit => exact heedless_runExit args

end Builtin

namespace Execution

theorem deliver_behind (target : Option Target) (stream : Stream) (text : Text)
    (shown : Transcript) (s : Session) :
    deliver target stream text (s.behind shown) = (deliver target stream text s).behind shown := by
  have htold : deliver none stream text (s.behind shown) =
      (deliver none stream text s).behind shown := by
    cases stream <;> simp [deliver]
  cases target with
  | none => exact htold
  | some opened =>
    by_cases hstream : opened.1.stream = stream
    · simp only [deliver, if_pos hstream]
      rfl
    · simp only [deliver, if_neg hstream]
      exact htold

theorem heedless_await (name : Text) (target : Option Target) (deed : Deed) :
    (await name target deed).Heedless := by
  refine .of_perform fun shown s => ?_
  cases deed with
  | refuses reason => simp [perform_await_refuses]
  | interrupted out err =>
    simp [perform_await_interrupted, deliverBoth, deliver_behind]
  | completes out err code =>
    simp [perform_await_completes, deliverBoth, deliver_behind]

theorem heedless_launch (c : Command) (path : Text) (target : Option Target) :
    (launch c path target).Heedless := by
  intro shown other s hcount
  simp only [perform_launch, machine_behind, note_behind, started_behind, hcount]
  cases c.argv.any ('\x00' ∈ ·) with
  | true => exact ⟨(.error (.fault .nul), s.note [.running path c.argv]), by simp, by simp⟩
  | false =>
    simp only [Bool.false_eq_true, if_false]
    rcases s.machine.program path with (reason | _) | program
    · exact ⟨(.ok statusCannotStart, (s.note [.running path c.argv]).complain
        (.cannotStart c.name (.errno reason))), by simp, by simp⟩
    · exact ⟨(.error (.fault .nul), s.note [.running path c.argv]), by simp, by simp⟩
    · simp only [record_behind]
      exact heedless_await c.name target _ shown other _ hcount

theorem heedless_runProgram (c : Command) : (runProgram c).Heedless := by
  intro shown other s hcount
  simp only [perform_runProgram, machine_behind, value_behind]
  rcases SearchPath.find s.machine (s.value Environment.pathName) c.name with reason | _ | path
  · exact ⟨(.error (.fault reason), s), by simp, by simp⟩
  · exact ⟨(.ok statusNotFound, (s.note (SearchPath.remarks c.name none)).complain
      (.commandNotFound c.name)), by simp, by simp⟩
  · simp only [note_behind]
    cases c.redirection with
    | none => exact heedless_launch c path none shown other _ hcount
    | some r =>
      simp only
      rcases s.machine.openFile r.target r.kind.writing with (reason | _) | ⟨machine, l⟩
      · exact ⟨(.ok 1, (s.note [.resolved c.name path]).complain
          (.cannotOpen c.name r.target reason)), by simp, by simp⟩
      · exact ⟨(.error (.fault .nul), s.note [.resolved c.name path]), by simp, by simp⟩
      · have hopened (shown : Transcript) :
            { (s.note [.resolved c.name path]).behind shown with machine := machine } =
              { s.note [.resolved c.name path] with machine := machine }.behind shown := rfl
        simp only [hopened, note_behind]
        exact heedless_launch c path (some (r.kind, l)) shown other _ hcount

theorem heedless_runCommand (c : Command) : (runCommand c).Heedless := by
  unfold runCommand
  cases builtin? c with
  | some b => exact Builtin.heedless_run b c.args
  | none => exact heedless_runProgram c

theorem heedless_runWords (ws : List Word) : (runWords ws).Heedless := by
  intro shown other s hcount
  simp only [perform_runWords, note_behind]
  cases Command.ofWords? ws with
  | some c => exact heedless_runCommand c shown other _ hcount
  | none => exact ⟨(.ok 0, s.note (remarks ws (Clause.ofWords ws))), rfl, rfl⟩

end Execution

namespace Line

theorem heedless_status (line : Text) : (status line).Heedless := by
  intro shown other s hcount
  simp only [perform_status]
  cases words line with
  | error mark => exact ⟨(.ok statusUnclosed, s.complain (.unclosed mark)), by simp, by simp⟩
  | ok ws =>
    simp only [note_behind]
    exact Execution.heedless_runWords ws shown other _ hcount

theorem heedless_evaluate (line : Text) : (evaluate line).Heedless := by
  intro shown other s hcount
  obtain ⟨⟨reason | status, after⟩, hshown, hother⟩ := heedless_status line shown other s hcount
  · refine ⟨(.error reason, after), ?_, ?_⟩ <;> simp [perform_evaluate, hshown, hother]
  · refine ⟨(.ok status, after.withStatus (some status)), ?_, ?_⟩ <;>
      simp [perform_evaluate, hshown, hother]

end Line

namespace ReadLoop

/-- What becomes of a read, with more shown before. -/
def Reply.behind (shown : Transcript) : Reply → Reply
  | .waits s => .waits (s.behind shown)
  | .proceeds s => .proceeds (s.behind shown)
  | .ends s ending => .ends (s.behind shown) ending

@[simp] theorem Reply.behind_nil (reply : Reply) : reply.behind [] = reply := by
  cases reply <;> rfl

def Course.behind (shown : Transcript) (c : Course) : Course :=
  { c with stages := c.stages.map (Session.behind shown) }

variable {shown other : Transcript}

@[simp] theorem prompted_behind (s : Session) :
    prompted (s.behind shown) = (prompted s).behind shown := print_behind shown s prompt

@[simp] theorem newline_behind (s : Session) :
    newline (s.behind shown) = (newline s).behind shown := print_behind shown s ['\n']

@[simp] theorem undecoded_behind (s : Session) (reason : Text) :
    undecoded (s.behind shown) reason = (undecoded s reason).behind shown := by
  simp [undecoded]

theorem Course.after_behind (c : Course) (s : Session) :
    (c.behind shown).after (s.behind shown) = (c.after s).behind shown := rfl

/-- Behind two transcripts with as many starts a read becomes the same. -/
theorem exists_respond_behind (hcount : shown.spawns.length = other.spawns.length) (s : Session)
    (r : Read) : ∃ reply : Reply, respond (s.behind shown) r = reply.behind shown ∧
      respond (s.behind other) r = reply.behind other := by
  cases r with
  | change c =>
    refine ⟨.waits (s.change c), ?_, ?_⟩ <;> simp [respond, Reply.behind]
  | interrupt =>
    refine ⟨.proceeds (newline s), ?_, ?_⟩ <;> simp [respond, Reply.behind]
  | undecodable reason =>
    refine ⟨.proceeds (undecoded s reason), ?_, ?_⟩ <;> simp [respond, Reply.behind]
  | line text =>
    obtain ⟨⟨(status | _ | reason) | status, after⟩, hshown, hother⟩ :=
      Line.heedless_evaluate text shown other s hcount
    · refine ⟨.ends after (.ok status), ?_, ?_⟩ <;> simp [respond, hshown, hother, Reply.behind]
    · refine ⟨.proceeds (newline after), ?_, ?_⟩ <;> simp [respond, hshown, hother, Reply.behind]
    · refine ⟨.ends after (.error reason), ?_, ?_⟩ <;>
        simp [respond, hshown, hother, Reply.behind]
    · refine ⟨.proceeds after, ?_, ?_⟩ <;> simp [respond, hshown, hother, Reply.behind]

theorem exists_await_behind (hcount : shown.spawns.length = other.spawns.length) (s : Session)
    (reads : List Read) : ∃ course : Course, await (s.behind shown) reads = course.behind shown ∧
      await (s.behind other) reads = course.behind other := by
  induction reads generalizing s with
  | nil =>
    refine ⟨⟨[newline s], .ok s.status, 0⟩, ?_, ?_⟩ <;> simp [await, Course.behind]
  | cons r rest ih =>
    obtain ⟨reply, hshown, hother⟩ := exists_respond_behind hcount s r
    simp only [await, hshown, hother]
    cases reply with
    | waits t => exact ih t
    | proceeds t =>
      obtain ⟨course, hshown, hother⟩ := ih (prompted t)
      simp only [Reply.behind, prompted_behind, hshown, hother, Course.after_behind]
      exact ⟨course.after t, rfl, rfl⟩
    | ends t ending => exact ⟨⟨[t], ending, rest.length⟩, rfl, rfl⟩

/-- Behind two transcripts with as many starts a read loop goes the same way. -/
theorem exists_run_behind (hcount : shown.spawns.length = other.spawns.length) (s : Session)
    (reads : List Read) : ∃ course : Course, run (s.behind shown) reads = course.behind shown ∧
      run (s.behind other) reads = course.behind other := by
  obtain ⟨course, hshown, hother⟩ := exists_await_behind hcount (prompted s) reads
  simp only [run, prompted_behind, hshown, hother, Course.after_behind]
  exact ⟨course.after s, rfl, rfl⟩

end ReadLoop

end PocketShell
