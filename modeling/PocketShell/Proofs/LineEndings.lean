import PocketShell.Proofs.KeptCharacters
import PocketShell.Proofs.LoopHistory
import PocketShell.Proofs.NulFreePaths
import PocketShell.Proofs.ProgramStages

/-!
# How lines end

A line comes to a status, which is kept, or it breaks off, and then the status from before is kept.
It breaks off in four ways: it leaves the shell, a program that it has started is interrupted, the
working directory has no path while a name is looked up, or a text that it hands to the machine
holds U+0000, which was in the line or in the home directory.
-/

namespace PocketShell

namespace Line

variable {line : Text} {ws : List Word} {w : Word} {c : Char}

/-- What is in a word was in the line. -/
theorem mem_of_mem_words (h : words line = .ok ws) (hw : w ∈ ws) (hc : c ∈ w.text) : c ∈ line :=
  (leftOf_words h).sublist.mem (List.mem_flatMap.2 ⟨w, hw, hc⟩)

end Line

/-- What a command is made of are words of its line. -/
theorem Clause.exists_word {clause : Clause} {c : Command} {t : Text}
    (h : clause.command? = some c) (ht : t ∈ c.argv ∨ c.target? = some t) :
    ∃ w ∈ clause.words, w.text = t := by
  cases clause with
  | empty => simp [command?] at h
  | headless operator rest => simp [command?] at h
  | plain name args =>
    cases h
    simpa [words, Command.argv, Command.target?, eq_comm] using ht
  | dangling name args operator =>
    cases h
    simpa [words, Command.argv, Command.target?, eq_comm] using ht
  | redirected name args operator target rest =>
    cases h
    rcases ht with ht | ht
    · have hmem : ∃ w ∈ name :: args, w.text = t := by simpa [Command.argv, eq_comm] using ht
      obtain ⟨w, hw, rfl⟩ := hmem
      exact ⟨w, List.mem_append_left _ hw, rfl⟩
    · refine ⟨target, by simp [words], ?_⟩
      cases hkind : Redirection.Kind.ofOperator? operator.text <;>
        simp_all [Command.target?]

namespace Line

open Execution SearchPath

variable {line : Text} {s t : Session} {c : Command} {outcome : Outcome}

theorem mem_of_asks {text : Text} {ch : Char} (h : Asks line c)
    (ht : text ∈ c.argv ∨ c.target? = some text) (hch : ch ∈ text) : ch ∈ line := by
  obtain ⟨ws, hwords, hc⟩ := h
  obtain ⟨w, hw, rfl⟩ := Clause.exists_word hc ht
  rw [Clause.words_ofWords] at hw
  exact mem_of_mem_words hwords hw hch

/-- The name is looked up on the search path when the command is carried out: a program is to be run
for it, or it is asked about. -/
def Resolves (c : Command) (name : Text) : Prop :=
  (builtin? c = none ∧ name = c.name) ∨
    (builtin? c = some .type ∧ Builtin.ofName? name = none ∧ ∃ rest, c.args = name :: rest)

/-- How a line ends, and the status that is kept then. -/
inductive Ending (line : Text) (s : Session) : Outcome → Prop where
  /-- The line comes to a status. -/
  | completed {status : Int} {t : Session} (status_eq : t.status = status) :
      Ending line s (.ok status, t)
  /-- It leaves the shell. -/
  | left {status : Int} {t : Session} {c : Command} (status_eq : t.status = s.status)
      (asks : Asks line c) (internal : c.external = false) (name : c.name = Builtin.exit.name) :
      Ending line s (.error (.exit status), t)
  /-- The program that it has started is interrupted. -/
  | interrupted {t : Session} {c : Command} {path : Text} {prepared : Machine}
      {target : Option Target} {out err : Text} (status_eq : t.status = s.status)
      (asks : Asks line c) (no_builtin : builtin? c = none)
      (found : find s.machine (s.value Environment.pathName) c.name = .ok (some path))
      (prepares : Prepared c s.machine prepared target)
      (interrupts : prepared.Does path c.argv s.started (.interrupted out err))
      (spawned : t.transcript.spawns = s.transcript.spawns ++ [⟨path, c.argv, c.kind?⟩]) :
      Ending line s (.error .interrupted, t)
  /-- The working directory has no path, a directory of the search path is relative, and a name is
  looked up. -/
  | lost {t : Session} {c : Command} {name directory : Text} {reason : Errno}
      (status_eq : t.status = s.status) (asks : Asks line c) (resolves : Resolves c name)
      (no_path : s.machine.getcwd = .error (.errno reason))
      (mem : directory ∈ directories (s.value Environment.pathName))
      (relative : Path.isAbsolute directory = false) :
      Ending line s (.error (.fault (.errno reason)), t)
  /-- The line holds U+0000, or the home directory does, and the line asks for cd. -/
  | nul {t : Session} (status_eq : t.status = s.status)
      (holds : '\x00' ∈ line ∨ ('\x00' ∈ s.value Environment.homeName ∧
        ∃ c, Asks line c ∧ c.external = false ∧ c.name = Builtin.cd.name)) :
      Ending line s (.error (.fault .nul), t)

/-- What a line comes to is settled by its words; the command that they ask for is carried out in a
session in which no more than remarks were written. -/
theorem exists_perform_of_asks (h : Asks line c) (s : Session) :
    ∃ remarks, (status line).perform s = (runCommand c).perform (s.note remarks) := by
  obtain ⟨ws, hwords, hc⟩ := h
  refine ⟨.words ws :: remarks ws (Clause.ofWords ws), ?_⟩
  rw [perform_status, hwords]
  simp only [perform_runWords, hc]
  simp [Session.note]

theorem perform_status_of_error {reason : Abort}
    (h : (evaluate line).perform s = (.error reason, t)) :
    (status line).perform s = (.error reason, t) := by
  rw [perform_evaluate] at h
  rcases hperform : (status line).perform s with ⟨other | value, after⟩
  · rw [hperform] at h
    exact h
  · simp [hperform] at h

theorem exists_asks_of_error {reason : Abort} (h : ((status line).perform s).1 = .error reason) :
    ∃ c, Asks line c := by
  rw [perform_status] at h
  cases hwords : words line with
  | error mark => simp [hwords] at h
  | ok ws =>
    simp only [hwords, perform_runWords] at h
    cases hc : Command.ofWords? ws with
    | none => simp [hc] at h
    | some c => exact ⟨c, ws, hwords, hc⟩

/-- A line that asks for `exit` comes to what `exit` comes to with its arguments. -/
theorem exists_perform_exit (h : Asks line c) (hinternal : c.external = false)
    (hname : c.name = Builtin.exit.name) (s : Session) :
    ∃ remarks, (evaluate line).perform s = (Builtin.runExit c.args).perform (s.note remarks) := by
  obtain ⟨remarks, hperform⟩ := exists_perform_of_asks h s
  have hbuiltin : builtin? c = some .exit := builtin?_eq_some_iff.2 ⟨hinternal, hname⟩
  refine ⟨remarks, ?_⟩
  rw [perform_evaluate, hperform]
  simp only [runCommand, hbuiltin, Builtin.run, Builtin.perform_runExit]
  cases Builtin.exitStatus? c.args <;> rfl

theorem exit_of_asks (h : Asks line c) (hinternal : c.external = false)
    (hname : c.name = Builtin.exit.name) (s : Session) :
    ∃ status, ((evaluate line).perform s).1 = .error (.exit status) := by
  obtain ⟨remarks, hperform⟩ := exists_perform_exit h hinternal hname s
  rw [hperform, Builtin.perform_runExit]
  cases Builtin.exitStatus? c.args with
  | some status => exact ⟨status, rfl⟩
  | none => exact ⟨2, rfl⟩

theorem not_interrupted_builtin (b : Builtin) (args : List Text) (s : Session) :
    ((b.run args).perform s).1 ≠ .error .interrupted := by
  cases b with
  | echo => simp [Builtin.run, Builtin.perform_runEcho]
  | type =>
    rcases args with _ | ⟨name, rest⟩
    · simp [Builtin.run, Builtin.perform_runType_nil]
    · rcases hb : Builtin.ofName? name with _ | b
      · simp only [Builtin.run, Builtin.perform_runType_lookUp hb]
        rcases find s.machine (s.value Environment.pathName) name with _ | _ | _ <;> simp
      · simp [Builtin.run, Builtin.perform_runType_builtin hb]
  | pwd =>
    simp only [Builtin.run, Builtin.perform_runPwd]
    rcases s.machine.getcwd with (_ | _) | _ <;> simp
  | cd =>
    rcases args with _ | ⟨target, rest⟩
    · simp [Builtin.run, Builtin.perform_runCd_nil]
    · simp only [Builtin.run, Builtin.perform_runCd_cons]
      rcases s.machine.destination (Path.withHome (s.value Environment.homeName) target) with
        (_ | _) | path
      · simp
      · simp
      · simp only
        cases s.machine.enter path <;> simp
  | exit =>
    simp only [Builtin.run, Builtin.perform_runExit]
    cases Builtin.exitStatus? args <;> simp

/-- Only a program that a line has started can be interrupted. -/
theorem ending_of_interrupted (h : (evaluate line).perform s = (.error .interrupted, t)) :
    Ending line s (.error .interrupted, t) := by
  have hstatus := ReadLoop.status_of_error h
  have hperform := perform_status_of_error h
  obtain ⟨c, hasks⟩ := exists_asks_of_error (congrArg Prod.fst hperform)
  obtain ⟨remarks, hrun⟩ := exists_perform_of_asks hasks s
  rw [hrun, runCommand] at hperform
  cases hbuiltin : builtin? c with
  | some b =>
    rw [hbuiltin] at hperform
    exact absurd (congrArg Prod.fst hperform) (not_interrupted_builtin b c.args _)
  | none =>
    rw [hbuiltin] at hperform
    rcases ends_or_faults c (s.note remarks) with ⟨stage, hends⟩ | ⟨reason, hfaults⟩
    · simp only [hperform] at hends
      cases hends with
      | run found prepares runs ends leaves shows =>
        rcases ends with ⟨code, -, hcode⟩ | ⟨rfl, -⟩
        · simp at hcode
        · obtain ⟨shown, ht, -, -, hspawns⟩ := shows
          rw [Session.started_note] at runs
          refine .interrupted hstatus hasks hbuiltin found prepares runs ?_
          rw [ht, Transcript.spawns_append, hspawns]
          simp [Session.note, Transcript.spawns, List.filterMap_map, Command.argv]
    · rw [Action.Faults, hperform] at hfaults
      simp at hfaults

theorem ending_of_errno {reason : Errno}
    (h : (evaluate line).perform s = (.error (.fault (.errno reason)), t)) :
    Ending line s (.error (.fault (.errno reason)), t) := by
  have hfaults : (evaluate line).Faults s (.errno reason) := congrArg Prod.fst h
  obtain ⟨ws, c, hwords, hc, hbreaks⟩ := Faults.faults_evaluate.1 hfaults
  have lost {name : Text} (hresolves : Resolves c name)
      (hreason : Fault.errno reason = .errno .noEntry)
      (hlost : Faults.LosesDirectory s.machine s.environment name) :
      Ending line s (.error (.fault (.errno reason)), t) := by
    obtain ⟨-, hremoved, directory, hholder, hrelative⟩ := hlost
    have hcwd : s.machine.getcwd = .error (.errno reason) := by
      rw [Machine.getcwd, if_neg hremoved, hreason]
    exact .lost (ReadLoop.status_of_error h) ⟨ws, hwords, hc⟩ hresolves hcwd
      (mem_of_isFirstHolder hholder) hrelative
  unfold Faults.CommandBreaks at hbreaks
  split at hbreaks
  · next hbuiltin =>
    obtain ⟨hreason, name, rest, hargs, hname, hlost⟩ := hbreaks
    exact lost (.inr ⟨hbuiltin, hname, rest, hargs⟩) hreason hlost
  · simp at hbreaks
  · exact hbreaks.elim
  · next hbuiltin =>
    rcases hbreaks with ⟨hreason, hlost⟩ | ⟨hreason, -⟩
    · exact lost (.inl ⟨hbuiltin, rfl⟩) hreason hlost
    · simp at hreason

theorem ending_of_nul (h : (evaluate line).perform s = (.error (.fault .nul), t)) :
    Ending line s (.error (.fault .nul), t) := by
  have hfaults : (evaluate line).Faults s .nul := congrArg Prod.fst h
  obtain ⟨ws, c, hwords, hc, hbreaks⟩ := Faults.faults_evaluate.1 hfaults
  have hasks : Asks line c := ⟨ws, hwords, hc⟩
  have hmem {text : Text} (ht : text ∈ c.argv ∨ c.target? = some text) (hnul : '\x00' ∈ text) :
      '\x00' ∈ line := mem_of_asks hasks ht hnul
  refine .nul (ReadLoop.status_of_error h) ?_
  unfold Faults.CommandBreaks at hbreaks
  split at hbreaks
  · simp at hbreaks
  · next hbuiltin =>
    obtain ⟨-, target, rest, hargs, hdestination⟩ := hbreaks
    rcases Path.mem_of_mem_withHome (Machine.mem_of_destination_eq_nul hdestination) with
      hnul | hnul
    · exact .inr ⟨hnul, c, hasks, builtin?_eq_some_iff.1 hbuiltin⟩
    · exact .inl (hmem (.inl (by simp [Command.argv, hargs])) hnul)
  · exact hbreaks.elim
  · rcases hbreaks with ⟨hreason, -⟩ | ⟨-, path, hfound, hnul⟩
    · simp at hreason
    · rcases hnul with ⟨r, hr, hnul⟩ | ⟨-, arg, harg, hnul⟩
      · exact .inl (hmem (.inr (by simp [Command.target?, hr])) hnul)
      · exact .inl (hmem (.inl harg) hnul)

/-- Whatever the line, it comes to a status, which is kept, or breaks off in one of four ways, and
then the status from before is kept. It leaves the shell exactly if its words ask for the builtin
that does. -/
theorem ending_evaluate (line : Text) (s : Session) :
    Ending line s ((evaluate line).perform s) ∧
      ((∃ status, ((evaluate line).perform s).1 = .error (.exit status)) ↔
        ∃ c, Asks line c ∧ c.external = false ∧ c.name = Builtin.exit.name) := by
  have hexit := (effects_evaluate line s).exit
  constructor
  · rcases h : (evaluate line).perform s with ⟨(status | _ | (reason | _)) | status, t⟩
    · obtain ⟨c, hasks, hinternal, hname⟩ := hexit status (congrArg Prod.fst h)
      exact .left (ReadLoop.status_of_error h) hasks hinternal hname
    · exact ending_of_interrupted h
    · exact ending_of_errno h
    · exact ending_of_nul h
    · exact .completed (ReadLoop.status_of_ok h)
  · constructor
    · rintro ⟨status, h⟩
      exact hexit status h
    · rintro ⟨c, hasks, hinternal, hname⟩
      exact exit_of_asks hasks hinternal hname s

/-- A working directory that was removed has no path, but still leads up to `/w/x`. -/
theorem ending_evaluate_lost :
    let w : Name := { text := ['w'] }
    let x : Name := { text := ['x'] }
    let tree : FileTree :=
      .cons w (.directory .all) (.cons x (.file .all [] .idle) .empty .empty) .empty
    let s := Session.start ⟨tree, ⟨[w], [.all]⟩, true⟩ ⟨[(Environment.pathName, ['.', '.'])]⟩
    let line := "type x".toList
    Ending line s ((evaluate line).perform s) ∧
      ((evaluate line).perform s).1 = .error (.fault (.errno .noEntry)) ∧
      ¬ ∃ c, Asks line c ∧ c.external = false ∧ c.name = Builtin.exit.name := by
  intro w x tree s line
  have hresult : ((evaluate line).perform s).1 = .error (.fault (.errno .noEntry)) := by rfl
  obtain ⟨hending, hexit⟩ := ending_evaluate line s
  refine ⟨hending, hresult, fun hasks => ?_⟩
  obtain ⟨status, hstatus⟩ := hexit.2 hasks
  simp [hresult] at hstatus

end Line

end PocketShell
