import PocketShell.Proofs.Clauses
import PocketShell.Proofs.Faults
import PocketShell.Proofs.Writing

/-!
# What a line can change

Each action is followed from the session before it to the session behind it, whether it gives a
value or breaks off. The environment and the kept status stay, the transcript grows, and at most one
program is started. Only `cd` moves the working directory, only the target of a redirection is
written to, and only `exit` leaves the shell.
-/

namespace PocketShell

namespace Session

/-- The second session goes on from the first one: it has shown more, and has started some programs
on the way. -/
structure GoesOn (s t : Session) (spawned : List Spawn) : Prop where
  environment_eq : t.environment = s.environment
  status_eq : t.status = s.status
  shown : ∃ shown, t.transcript = s.transcript ++ shown ∧ Transcript.spawns shown = spawned

variable {s t u : Session} {a b : List Spawn}

theorem GoesOn.refl (s : Session) : s.GoesOn s [] :=
  ⟨rfl, rfl, [], (List.append_nil _).symm, rfl⟩

theorem GoesOn.trans (h : s.GoesOn t a) (h' : t.GoesOn u b) : s.GoesOn u (a ++ b) := by
  obtain ⟨shown, ht, hshown⟩ := h.shown
  obtain ⟨shown', hu, hshown'⟩ := h'.shown
  refine ⟨h'.environment_eq.trans h.environment_eq, h'.status_eq.trans h.status_eq,
    shown ++ shown', ?_, ?_⟩
  · rw [hu, ht, List.append_assoc]
  · rw [Transcript.spawns_append, hshown, hshown']

theorem goesOn_note (s : Session) (remarks : List Remark) : s.GoesOn (s.note remarks) [] := by
  refine ⟨rfl, rfl, remarks.map .remark, rfl, ?_⟩
  simp [Transcript.spawns, List.filterMap_map]

theorem goesOn_print (s : Session) (text : Text) : s.GoesOn (s.print text) [] :=
  ⟨rfl, rfl, [.out text], rfl, rfl⟩

theorem goesOn_complain (s : Session) (c : Complaint) : s.GoesOn (s.complain c) [] :=
  ⟨rfl, rfl, [.err (c.message ++ ['\n'])], rfl, rfl⟩

theorem goesOn_spawn (s : Session) (spawn : Spawn) : s.GoesOn (s.record (.spawn spawn)) [spawn] :=
  ⟨rfl, rfl, [.spawn spawn], rfl, rfl⟩

theorem goesOn_machine (s : Session) (m : Machine) : s.GoesOn { s with machine := m } [] :=
  ⟨rfl, rfl, [], (List.append_nil _).symm, rfl⟩

end Session

open Session

/-- A result and the session that is left with it. -/
abbrev Outcome := Except Abort Int × Session

namespace Builtin

/-- What a builtin can change. -/
structure Effects (b : Builtin) (s : Session) (outcome : Outcome) : Prop where
  goesOn : s.GoesOn outcome.2 []
  machine_eq : outcome.2.machine = { s.machine with cwd := outcome.2.machine.cwd }
  cwd_eq : outcome.2.machine.cwd = s.machine.cwd ∨ b = .cd ∧ outcome.1 = .ok 0
  exit : ∀ status, outcome.1 = .error (.exit status) → b = .exit

variable {b : Builtin} {s : Session}

theorem Effects.tree_eq {outcome : Outcome} (h : Effects b s outcome) :
    outcome.2.machine.tree = s.machine.tree := by
  rw [h.machine_eq]

/-- What is only shown changes nothing else. -/
theorem effects_of_shown {result : Except Abort Int} {t : Session} (h : s.GoesOn t [])
    (hm : t.machine = s.machine) (hresult : ∀ status, result ≠ .error (.exit status)) :
    Effects b s (result, t) where
  goesOn := h
  machine_eq := by rw [hm]
  cwd_eq := .inl (by rw [hm])
  exit status hexit := absurd hexit (hresult status)

theorem effects_runType (args : List Text) : Effects .type s ((runType args).perform s) := by
  cases args with
  | nil =>
    rw [perform_runType_nil]
    exact effects_of_shown (goesOn_complain s _) rfl (by simp)
  | cons name rest =>
    cases hb : ofName? name with
    | some b =>
      rw [perform_runType_builtin hb]
      exact effects_of_shown (goesOn_print s _) rfl (by simp)
    | none =>
      rw [perform_runType_lookUp hb]
      rcases SearchPath.find s.machine (s.value Environment.pathName) name with reason | _ | path
      · exact effects_of_shown (.refl s) rfl (by simp)
      · exact effects_of_shown ((goesOn_note s _).trans (goesOn_print _ _)) rfl (by simp)
      · exact effects_of_shown ((goesOn_note s _).trans (goesOn_print _ _)) rfl (by simp)

theorem effects_runPwd : Effects .pwd s (runPwd.perform s) := by
  rw [perform_runPwd]
  rcases s.machine.getcwd with (reason | _) | path
  · exact effects_of_shown (goesOn_complain s _) rfl (by simp)
  · exact effects_of_shown (.refl s) rfl (by simp)
  · exact effects_of_shown (goesOn_print s _) rfl (by simp)

end Builtin

namespace Machine

theorem eq_of_enter {m entered : Machine} {path : Text} (h : m.enter path = .ok entered) :
    entered = { m with cwd := entered.cwd } := by
  obtain ⟨p, -, -, rfl⟩ := exists_place_of_enter h
  rfl

end Machine

namespace Builtin

variable {s : Session}

theorem effects_runCd (args : List Text) : Effects .cd s ((runCd args).perform s) := by
  cases args with
  | nil =>
    rw [perform_runCd_nil]
    exact effects_of_shown (goesOn_complain s _) rfl (by simp)
  | cons target rest =>
    rw [perform_runCd_cons]
    rcases s.machine.destination (Path.withHome (s.value Environment.homeName) target) with
      (reason | _) | path
    · exact effects_of_shown (goesOn_complain s _) rfl (by simp)
    · exact effects_of_shown (.refl s) rfl (by simp)
    · simp only
      cases hm : s.machine.enter path with
      | error reason => exact effects_of_shown (goesOn_complain s _) rfl (by simp)
      | ok machine =>
        exact {
          goesOn := (goesOn_machine s machine).trans (goesOn_note _ _)
          machine_eq := Machine.eq_of_enter hm
          cwd_eq := .inr ⟨rfl, rfl⟩
          exit := by simp }

theorem effects_runExit (args : List Text) : Effects .exit s ((runExit args).perform s) := by
  rw [perform_runExit]
  cases exitStatus? args with
  | some status => exact ⟨.refl s, rfl, .inl rfl, fun _ _ => rfl⟩
  | none => exact ⟨goesOn_complain s _, rfl, .inl rfl, fun _ _ => rfl⟩

theorem effects_run (b : Builtin) (args : List Text) (s : Session) :
    Effects b s ((b.run args).perform s) := by
  cases b with
  | echo => exact effects_of_shown (goesOn_print s _) rfl (by simp)
  | type => exact effects_runType args
  | pwd => exact effects_runPwd
  | cd => exact effects_runCd args
  | exit => exact effects_runExit args

end Builtin

namespace Execution

open SearchPath

variable {m : Machine} {s t : Session} {c : Command} {target : Option Target}

/-- What a program may do to the machine: only its target is written to, if it has one. -/
def Keeps : Option Target → Machine → Machine → Prop
  | none, m, written => written = m
  | some (_, l), m, written =>
    ∀ (before : Machine) path, before.WritesTo m path l → before.WritesTo written path l

theorem Keeps.refl (target : Option Target) (m : Machine) : Keeps target m m := by
  cases target with
  | none => rfl
  | some opened => exact fun _ _ h => h

theorem Keeps.trans {a b c : Machine} (h : Keeps target a b) (h' : Keeps target b c) :
    Keeps target a c := by
  cases target with
  | none => exact h'.trans h
  | some opened => exact fun before path hw => h' before path (h before path hw)

theorem effects_deliver (target : Option Target) (stream : Stream) (text : Text) (s : Session) :
    s.GoesOn (deliver target stream text s) [] ∧
      Keeps target s.machine (deliver target stream text s).machine := by
  have hshown : s.GoesOn (deliver none stream text s) [] := by
    cases stream with
    | stdout => exact ⟨rfl, rfl, [.out text], rfl, rfl⟩
    | stderr => exact ⟨rfl, rfl, [.err text], rfl, rfl⟩
  cases target with
  | none => exact ⟨hshown, rfl⟩
  | some opened =>
    obtain ⟨kind, l⟩ := opened
    by_cases hstream : kind.stream = stream
    · simp only [deliver, if_pos hstream]
      exact ⟨goesOn_machine s _, fun before path hw => hw.append text⟩
    · simp only [deliver, if_neg hstream]
      exact ⟨hshown, .refl _ _⟩

theorem effects_deliverBoth (target : Option Target) (out err : Text) (s : Session) :
    s.GoesOn (deliverBoth target out err s) [] ∧
      Keeps target s.machine (deliverBoth target out err s).machine := by
  obtain ⟨hout, hkeeps⟩ := effects_deliver target .stdout out s
  obtain ⟨herr, hkeeps'⟩ := effects_deliver target .stderr err (deliver target .stdout out s)
  exact ⟨hout.trans herr, hkeeps.trans hkeeps'⟩

/-- What running a program can change, whether or not it is started. -/
structure ProgramEffects (spawn : Spawn) (target : Option Target) (s : Session)
    (outcome : Outcome) : Prop where
  goesOn : s.GoesOn outcome.2 [] ∨ s.GoesOn outcome.2 [spawn]
  keeps : Keeps target s.machine outcome.2.machine
  stays : ∀ status, outcome.1 ≠ .error (.exit status)

theorem effects_await (name : Text) (target : Option Target) (deed : Deed) (s : Session) :
    s.GoesOn ((await name target deed).perform s).2 [] ∧
      Keeps target s.machine ((await name target deed).perform s).2.machine ∧
      ∀ status, ((await name target deed).perform s).1 ≠ .error (.exit status) := by
  cases deed with
  | refuses reason =>
    rw [perform_await_refuses]
    exact ⟨goesOn_complain s _, .refl _ _, by simp⟩
  | interrupted out err =>
    rw [perform_await_interrupted]
    obtain ⟨hgoes, hkeeps⟩ := effects_deliverBoth target out err s
    exact ⟨hgoes, hkeeps, by simp⟩
  | completes out err code =>
    rw [perform_await_completes]
    obtain ⟨hgoes, hkeeps⟩ := effects_deliverBoth target out err s
    exact ⟨hgoes, hkeeps, by simp⟩

theorem effects_launch (c : Command) (path : Text) (target : Option Target) (s : Session) :
    ProgramEffects ⟨path, c.argv, target.map Prod.fst⟩ target s
      ((launch c path target).perform s) := by
  have hnoted := goesOn_note s [.running path c.argv]
  rw [perform_launch]
  split
  · exact ⟨.inl hnoted, .refl _ _, by simp⟩
  · rcases s.machine.program path with (reason | _) | program
    · exact ⟨.inl (hnoted.trans (goesOn_complain _ _)), .refl _ _, by simp⟩
    · exact ⟨.inl hnoted, .refl _ _, by simp⟩
    · let spawned := (s.note [.running path c.argv]).record
        (.spawn ⟨path, c.argv, target.map Prod.fst⟩)
      obtain ⟨hgoes, hkeeps, hstays⟩ :=
        effects_await c.name target (program c.argv s.started) spawned
      exact ⟨.inr ((hnoted.trans (goesOn_spawn _ _)).trans hgoes), hkeeps, hstays⟩

/-- What a command can change. -/
structure CommandEffects (c : Command) (s : Session) (outcome : Outcome) : Prop where
  cwd : outcome.2.machine.cwd = s.machine.cwd ∨ outcome.1 = .ok 0 ∧ builtin? c = some .cd
  tree : outcome.2.machine.tree = s.machine.tree ∨ ∃ r path opened l, c.redirection = some r ∧
    find s.machine (s.value Environment.pathName) c.name = .ok (some path) ∧
    s.machine.openFile r.target r.kind.writing = .ok (opened, l) ∧
    s.machine.WritesTo outcome.2.machine r.target l
  goesOn : s.GoesOn outcome.2 [] ∨ ∃ path, builtin? c = none ∧
    find s.machine (s.value Environment.pathName) c.name = .ok (some path) ∧
    Faults.Opens s.machine c ∧ s.GoesOn outcome.2 [⟨path, c.argv, c.kind?⟩]
  exit : ∀ status, outcome.1 = .error (.exit status) → builtin? c = some .exit

/-- What is only shown before a command makes no difference to what it can change. -/
theorem CommandEffects.of_note {outcome : Outcome} {remarks : List Remark}
    (h : CommandEffects c (s.note remarks) outcome) : CommandEffects c s outcome where
  cwd := h.cwd
  tree := h.tree
  goesOn := by
    rcases h.goesOn with hgoes | ⟨path, hbuiltin, hfind, hopens, hgoes⟩
    · exact .inl ((goesOn_note s remarks).trans hgoes)
    · exact .inr ⟨path, hbuiltin, hfind, hopens, (goesOn_note s remarks).trans hgoes⟩
  exit := h.exit

theorem CommandEffects.of_shown {result : Except Abort Int} (h : s.GoesOn t [])
    (hm : t.machine = s.machine) (hresult : ∀ status, result ≠ .error (.exit status)) :
    CommandEffects c s (result, t) where
  cwd := .inl (by rw [hm])
  tree := .inl (by rw [hm])
  goesOn := .inl h
  exit status hexit := absurd hexit (hresult status)

/-- A program that is run for a command changes what the command can change. -/
theorem CommandEffects.of_program {path : Text} {outcome : Outcome} (hbuiltin : builtin? c = none)
    (hfind : find s.machine (s.value Environment.pathName) c.name = .ok (some path))
    (hopens : Faults.Opens s.machine c) (hgoes : s.GoesOn t [])
    (h : ProgramEffects ⟨path, c.argv, c.kind?⟩ target t outcome)
    (hmachine : outcome.2.machine = s.machine ∨ ∃ r opened l, c.redirection = some r ∧
      s.machine.openFile r.target r.kind.writing = .ok (opened, l) ∧
      s.machine.WritesTo outcome.2.machine r.target l) : CommandEffects c s outcome where
  cwd := by
    rcases hmachine with hmachine | ⟨r, opened, l, -, -, hwrites⟩
    · exact .inl (by rw [hmachine])
    · exact .inl hwrites.cwd_eq
  tree := by
    rcases hmachine with hmachine | ⟨r, opened, l, hr, hopen, hwrites⟩
    · exact .inl (by rw [hmachine])
    · exact .inr ⟨r, path, opened, l, hr, hfind, hopen, hwrites⟩
  goesOn := by
    rcases h.goesOn with hquiet | hstarted
    · exact .inl (hgoes.trans hquiet)
    · exact .inr ⟨path, hbuiltin, hfind, hopens, hgoes.trans hstarted⟩
  exit status hexit := absurd hexit (h.stays status)

theorem effects_runProgram (hbuiltin : builtin? c = none) :
    CommandEffects c s ((runProgram c).perform s) := by
  rw [perform_runProgram]
  rcases hfind : find s.machine (s.value Environment.pathName) c.name with reason | _ | path
  · exact .of_shown (.refl s) rfl (by simp)
  · exact .of_shown ((goesOn_note s _).trans (goesOn_complain _ _)) rfl (by simp)
  have hnoted := goesOn_note s [.resolved c.name path]
  cases hr : c.redirection with
  | none =>
    have h := effects_launch c path none (s.note [.resolved c.name path])
    have hkind : (none : Option Target).map Prod.fst = c.kind? := by simp [Command.kind?, hr]
    rw [hkind] at h
    exact .of_program hbuiltin hfind (by simp [Faults.Opens, hr]) hnoted h (.inl h.keeps)
  | some r =>
    simp only
    rcases hopen : s.machine.openFile r.target r.kind.writing with (reason | _) | ⟨opened, l⟩
    · exact .of_shown (hnoted.trans (goesOn_complain _ _)) rfl (by simp)
    · exact .of_shown hnoted rfl (by simp)
    · have h := effects_launch c path (some (r.kind, l))
        ({ s.note [.resolved c.name path] with machine := opened }.note
          [.redirected r.kind r.target])
      have hkind : (some (r.kind, l)).map Prod.fst = c.kind? := by simp [Command.kind?, hr]
      rw [hkind] at h
      have hwrites := h.keeps s.machine r.target (Machine.writesTo_of_openFile hopen)
      have hgoes := (hnoted.trans (goesOn_machine _ opened)).trans
        (goesOn_note _ [.redirected r.kind r.target])
      exact .of_program hbuiltin hfind (by simp [Faults.Opens, hr, hopen]) hgoes h
        (.inr ⟨r, opened, l, hr, hopen, hwrites⟩)

theorem effects_runCommand (c : Command) (s : Session) :
    CommandEffects c s ((runCommand c).perform s) := by
  unfold runCommand
  cases hbuiltin : builtin? c with
  | none => exact effects_runProgram hbuiltin
  | some b =>
    have h := Builtin.effects_run b c.args s
    refine ⟨h.cwd_eq.imp_right ?_, .inl h.tree_eq, .inl h.goesOn, fun status hexit => ?_⟩
    · rintro ⟨rfl, hresult⟩
      exact ⟨hresult, hbuiltin⟩
    · rw [hbuiltin, h.exit status hexit]

theorem builtin?_eq_some_iff {b : Builtin} :
    builtin? c = some b ↔ c.external = false ∧ c.name = b.name := by
  unfold builtin?
  cases c.external <;> simp [Builtin.ofName?_eq_some_iff]

end Execution

namespace Line

open Execution SearchPath

/-- The words of a line ask for a command. -/
def Asks (line : Text) (c : Command) : Prop :=
  ∃ ws, words line = .ok ws ∧ Command.ofWords? ws = some c

/-- The words of a line are a name with its arguments, the first operator, and behind it its target
and whatever else. -/
def Redirects (line name : Text) (r : Redirection) : Prop :=
  ∃ first args operator target rest,
    words line = .ok (first :: args ++ operator :: target :: rest) ∧
    (∀ w ∈ first :: args, w.isOperator = false) ∧ operator.quoted = false ∧
    Redirection.Kind.ofOperator? operator.text = some r.kind ∧ first.text = name ∧
    target.text = r.target

/-- What evaluating a line can change, and when. -/
structure Effects (line : Text) (s : Session) (outcome : Outcome) : Prop where
  /-- The working directory: a `cd` that succeeds. -/
  cwd : outcome.2.machine.cwd = s.machine.cwd ∨ outcome.1 = .ok 0 ∧
    ∃ c, Asks line c ∧ c.external = false ∧ c.name = Builtin.cd.name
  /-- The tree: the one file to which the target of a redirection leads, if the name is found and
  the target opens. -/
  tree : outcome.2.machine.tree = s.machine.tree ∨ ∃ name r path opened l, Redirects line name r ∧
    find s.machine (s.value Environment.pathName) name = .ok (some path) ∧
    s.machine.openFile r.target r.kind.writing = .ok (opened, l) ∧
    s.machine.WritesTo outcome.2.machine r.target l
  /-- The programs started: one, if the command is no builtin, its name is found and its target, if
  it has one, opens. -/
  spawns : ∃ shown, outcome.2.transcript = s.transcript ++ shown ∧ (Transcript.spawns shown = [] ∨
    ∃ c path, Asks line c ∧ (c.external = true ∨ Builtin.ofName? c.name = none) ∧
      find s.machine (s.value Environment.pathName) c.name = .ok (some path) ∧
      Faults.Opens s.machine c ∧ Transcript.spawns shown = [⟨path, c.argv, c.kind?⟩])
  /-- Leaving the shell: an `exit`. -/
  exit : ∀ status, outcome.1 = .error (.exit status) →
    ∃ c, Asks line c ∧ c.external = false ∧ c.name = Builtin.exit.name
  environment : outcome.2.environment = s.environment

variable {line : Text} {s t : Session} {c : Command} {outcome : Outcome}

theorem redirects_of_asks {r : Redirection} (h : Asks line c) (hr : c.redirection = some r) :
    Redirects line c.name r := by
  obtain ⟨ws, hwords, hc⟩ := h
  obtain ⟨first, args, operator, target, rest, rfl, hbefore, hquoted, hkind, hname, htarget⟩ :=
    Command.exists_of_redirection hc hr
  exact ⟨first, args, operator, target, rest, hwords, hbefore, hquoted, hkind, hname, htarget⟩

theorem effects_of_shown {result : Except Abort Int} (h : s.GoesOn t [])
    (hm : t.machine = s.machine) (hresult : ∀ status, result ≠ .error (.exit status)) :
    Effects line s (result, t) := by
  obtain ⟨shown, htranscript, hshown⟩ := h.shown
  exact ⟨.inl (by rw [hm]), .inl (by rw [hm]), ⟨shown, htranscript, .inl hshown⟩,
    fun status hexit => absurd hexit (hresult status), h.environment_eq⟩

theorem effects_of_command (hasks : Asks line c) (h : CommandEffects c s outcome) :
    Effects line s outcome where
  cwd := h.cwd.imp_right fun ⟨hresult, hcd⟩ => ⟨hresult, c, hasks, builtin?_eq_some_iff.1 hcd⟩
  tree := h.tree.imp_right fun ⟨r, path, opened, l, hr, hfind, hopen, hwrites⟩ =>
    ⟨c.name, r, path, opened, l, redirects_of_asks hasks hr, hfind, hopen, hwrites⟩
  spawns := by
    rcases h.goesOn with hgoes | ⟨path, hbuiltin, hfind, hopens, hgoes⟩
    · obtain ⟨shown, htranscript, hshown⟩ := hgoes.shown
      exact ⟨shown, htranscript, .inl hshown⟩
    · obtain ⟨shown, htranscript, hshown⟩ := hgoes.shown
      have hno : c.external = true ∨ Builtin.ofName? c.name = none := by
        unfold builtin? at hbuiltin
        split at hbuiltin
        · next hx => exact .inl hx
        · exact .inr hbuiltin
      exact ⟨shown, htranscript, .inr ⟨c, path, hasks, hno, hfind, hopens, hshown⟩⟩
  exit status hexit := ⟨c, hasks, builtin?_eq_some_iff.1 (h.exit status hexit)⟩
  environment := by
    rcases h.goesOn with hgoes | ⟨path, -, -, -, hgoes⟩
    · exact hgoes.environment_eq
    · exact hgoes.environment_eq

/-- Running a line leaves the kept status as it is. -/
theorem exists_goesOn_status (line : Text) (s : Session) :
    ∃ spawned, s.GoesOn ((status line).perform s).2 spawned := by
  rw [perform_status]
  cases words line with
  | error mark => exact ⟨[], goesOn_complain s _⟩
  | ok ws =>
    simp only [perform_runWords]
    have hnoted := (goesOn_note s [.words ws]).trans
      (goesOn_note _ (remarks ws (Clause.ofWords ws)))
    cases Command.ofWords? ws with
    | none => exact ⟨[], hnoted⟩
    | some c =>
      rcases (effects_runCommand c _).goesOn with hgoes | ⟨path, -, -, -, hgoes⟩
      · exact ⟨_, hnoted.trans hgoes⟩
      · exact ⟨_, hnoted.trans hgoes⟩

theorem effects_status (line : Text) (s : Session) : Effects line s ((status line).perform s) := by
  rw [perform_status]
  cases hwords : words line with
  | error mark => exact effects_of_shown (goesOn_complain s _) rfl (by simp)
  | ok ws =>
    simp only [perform_runWords]
    cases hc : Command.ofWords? ws with
    | none => exact effects_of_shown ((goesOn_note s _).trans (goesOn_note _ _)) rfl (by simp)
    | some c => exact effects_of_command ⟨ws, hwords, hc⟩ (effects_runCommand c _).of_note.of_note

/-- Whatever the line, the machine and the environment, and whether the line comes to a status or
breaks off: only a `cd` that succeeds moves the working directory, only the file to which an opened
target leads is made or changed, at most one program is started, only `exit` leaves the shell, and
the environment stays. -/
theorem effects_evaluate (line : Text) (s : Session) :
    Effects line s ((evaluate line).perform s) := by
  have h := effects_status line s
  rw [perform_evaluate]
  generalize (status line).perform s = outcome at h ⊢
  obtain ⟨reason | status, after⟩ := outcome
  · exact h
  · exact ⟨h.cwd, h.tree, h.spawns, by simp, h.environment⟩

end Line

end PocketShell
