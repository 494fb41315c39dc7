import PocketShell.Proofs.Faults
import PocketShell.Proofs.Writing
import Mathlib.Logic.ExistsUnique

/-!
# The stages of running a program

A command that is run as a program comes to its end in one of four stages: its name is not found,
its target cannot be opened, its program cannot be started, or its program runs. What an earlier
stage has done is all that is left when a later one fails: a target is touched only once the name is
found, and holds nothing of a program that was not started.
-/

namespace PocketShell.Execution

open SearchPath Redirection

/-- The second session is the first one after some texts on its streams and some programs that it
started; only the machine may be another one. Remarks are not counted among the texts. -/
def Shows (s t : Session) (out err : Text) (spawned : List Spawn) : Prop :=
  ∃ shown : Transcript, t = ⟨t.machine, s.environment, s.status, s.transcript ++ shown⟩ ∧
    shown.out = out ∧ shown.err false = err ∧ shown.spawns = spawned

/-- What is sent to the target, of the texts of a program's two streams. -/
def sentText : Option Kind → Text → Text → Text
  | none, _, _ => []
  | some ⟨.stdout, _⟩, out, _ => out
  | some ⟨.stderr, _⟩, _, err => err

/-- What is left for a stream of the shell of a program's text on that stream. -/
def leftText (kind : Option Kind) (stream : Stream) (text : Text) : Text :=
  if kind.map Kind.stream = some stream then [] else text

/-- The machine in which the program of a command is started. -/
inductive Prepared (c : Command) (m : Machine) : Machine → Option Target → Prop where
  | plain (no_target : c.redirection = none) : Prepared c m m none
  | opened {r : Redirection} {opened : Machine} {l : Location} (target : c.redirection = some r)
      (opens : m.openFile r.target r.kind.writing = .ok (opened, l)) :
      Prepared c m opened (some (r.kind, l))

/-- All that a command has done to the machine: nothing without a target; otherwise the one file to
which the target leads is new or has another text, which is what opening spared and what was
sent. -/
def Leaves (c : Command) (m : Machine) (sent : Text) (after : Machine) : Prop :=
  match c.redirection with
  | none => after = m
  | some r => ∃ l, m.WritesTo after r.target l ∧
      after.tree.text? l = some (r.kind.writing.spared ((m.tree.text? l).getD []) ++ sent)

/-- The program of a path is not started: the path leads to nothing that may be executed, or to what
refuses its arguments. -/
def Refuses (m : Machine) (path : Text) (argv : List Text) (started : Nat) (reason : Refusal) :
    Prop :=
  m.Does path argv started (.refuses reason) ∨
    ∃ errno, m.program path = .error (.errno errno) ∧ reason = .errno errno

/-- Where running a program comes to its end. -/
inductive Stage where
  | notFound
  | notOpened
  | notStarted
  | run
  deriving DecidableEq

/-- How a command ends in a stage. -/
inductive Ends (c : Command) (s : Session) : Stage → Except Abort Int × Session → Prop where
  | notFound {t : Session}
      (unknown : find s.machine (s.value Environment.pathName) c.name = .ok none)
      (machine_eq : t.machine = s.machine)
      (shows : Shows s t [] (c.name ++ ": command not found".toList ++ ['\n']) []) :
      Ends c s .notFound (.ok 127, t)
  | notOpened {t : Session} {path : Text} {r : Redirection} {reason : Errno}
      (found : find s.machine (s.value Environment.pathName) c.name = .ok (some path))
      (target : c.redirection = some r)
      (refused : s.machine.openFile r.target r.kind.writing = .error (.errno reason))
      (machine_eq : t.machine = s.machine)
      (shows : Shows s t []
        (c.name ++ ": ".toList ++ r.target ++ ": ".toList ++ reason.message ++ ['\n']) []) :
      Ends c s .notOpened (.ok 1, t)
  | notStarted {t : Session} {path : Text} {target : Option Target} {reason : Refusal}
      {attempts : List Spawn}
      (found : find s.machine (s.value Environment.pathName) c.name = .ok (some path))
      (prepared : Prepared c s.machine t.machine target)
      (refused : Refuses t.machine path (c.name :: c.args) s.started reason)
      (leaves : Leaves c s.machine [] t.machine)
      (attempted : attempts = [] ∨ attempts = [⟨path, c.name :: c.args, c.kind?⟩])
      (shows : Shows s t [] (c.name ++ ": ".toList ++ reason.message ++ ['\n']) attempts) :
      Ends c s .notStarted (.ok 126, t)
  | run {t : Session} {path : Text} {prepared : Machine} {target : Option Target}
      {deed : Deed} {out err : Text} {result : Except Abort Int}
      (found : find s.machine (s.value Environment.pathName) c.name = .ok (some path))
      (prepares : Prepared c s.machine prepared target)
      (runs : prepared.Does path (c.name :: c.args) s.started deed)
      (ends : (∃ code, deed = .completes out err code ∧ result = .ok code) ∨
        deed = .interrupted out err ∧ result = .error .interrupted)
      (leaves : Leaves c s.machine (sentText c.kind? out err) t.machine)
      (shows : Shows s t (leftText c.kind? .stdout out) (leftText c.kind? .stderr err)
        [⟨path, c.name :: c.args, c.kind?⟩]) :
      Ends c s .run (result, t)

variable {c : Command} {m prepared : Machine} {s t u : Session} {target : Option Target}
variable {path : Text} {out err out' err' : Text} {spawned spawned' : List Spawn}
variable {a b : Stage} {outcome : Except Abort Int × Session}

/-! ## The stages exclude each other -/

theorem Prepared.unique {prepared' : Machine} {target' : Option Target}
    (h : Prepared c m prepared target) (h' : Prepared c m prepared' target') :
    prepared = prepared' := by
  cases h with
  | plain no_target =>
    cases h' with
    | plain => rfl
    | opened target => simp [no_target] at target
  | opened target opens =>
    cases h' with
    | plain no_target => simp [no_target] at target
    | opened target' opens' =>
      rw [target] at target'
      cases target'
      rw [opens] at opens'
      cases opens'
      rfl

theorem Prepared.not_refused {r : Redirection} {reason : Fault} (h : Prepared c m prepared target)
    (hr : c.redirection = some r) : m.openFile r.target r.kind.writing ≠ .error reason := by
  intro hrefused
  cases h with
  | plain no_target => simp [no_target] at hr
  | opened target opens =>
    rw [hr] at target
    cases target
    rw [hrefused] at opens
    simp at opens

theorem not_refuses_of_runs {argv : List Text} {started : Nat} {deed : Deed} {reason : Refusal}
    {result : Except Abort Int} (hruns : m.Does path argv started deed)
    (hends : (∃ code, deed = .completes out err code ∧ result = .ok code) ∨
      deed = .interrupted out err ∧ result = .error .interrupted) :
    ¬ Refuses m path argv started reason := by
  rintro (h | ⟨errno, h, -⟩)
  · obtain rfl := hruns.unique h
    simp at hends
  · obtain ⟨program, hprogram, -⟩ := hruns
    simp [hprogram] at h

theorem Ends.eq_run (hrun : Ends c s .run outcome) (h : Ends c s a outcome) : a = .run := by
  have same {p q : Text} (hp : find s.machine (s.value Environment.pathName) c.name = .ok (some p))
      (hq : find s.machine (s.value Environment.pathName) c.name = .ok (some q)) : p = q := by
    rw [hp] at hq
    exact Option.some.inj (Except.ok.inj hq)
  cases hrun with
  | run found prepares runs ends =>
    cases h with
    | notFound unknown => simp [found] at unknown
    | notOpened _ target refused => exact absurd refused (prepares.not_refused target)
    | notStarted found' prepared refused =>
      obtain rfl := same found found'
      obtain rfl := prepares.unique prepared
      exact absurd refused (not_refuses_of_runs runs ends)
    | run => rfl

/-- The three stages that fail have three statuses, so only a program that runs could be mistaken
for one of them. -/
theorem Ends.unique (ha : Ends c s a outcome) (hb : Ends c s b outcome) : a = b := by
  by_cases hrun : a = .run ∨ b = .run
  · rcases hrun with rfl | rfl
    · exact (ha.eq_run hb).symm
    · exact hb.eq_run ha
  · rw [not_or] at hrun
    cases ha <;> cases hb <;> simp at hrun ⊢

/-! ## What is shown -/

theorem Shows.trans (h : Shows s t out err spawned) (h' : Shows t u out' err' spawned') :
    Shows s u (out ++ out') (err ++ err') (spawned ++ spawned') := by
  obtain ⟨shown, ht, rfl, rfl, rfl⟩ := h
  obtain ⟨shown', hu, rfl, rfl, rfl⟩ := h'
  refine ⟨shown ++ shown', ?_, Transcript.out_append _ _, Transcript.err_append _ _ _,
    Transcript.spawns_append _ _⟩
  rw [hu, ht, List.append_assoc]

theorem Shows.started_eq (h : Shows s t out err []) : t.started = s.started := by
  obtain ⟨shown, ht, -, -, hspawns⟩ := h
  rw [ht]
  simp [Session.started, hspawns]

theorem shows_note (s : Session) (remarks : List Remark) : Shows s (s.note remarks) [] [] [] := by
  refine ⟨remarks.map .remark, rfl, ?_, ?_, ?_⟩
  · simp [Transcript.out, List.flatMap_map]
  · simp [Transcript.err, List.flatMap_map]
  · simp [Transcript.spawns, List.filterMap_map]

theorem shows_complain (s : Session) (complaint : Complaint) :
    Shows s (s.complain complaint) [] (complaint.message ++ ['\n']) [] :=
  ⟨[.err (complaint.message ++ ['\n'])], rfl, rfl, by simp [Transcript.err], rfl⟩

theorem shows_spawn (s : Session) (spawn : Spawn) :
    Shows s (s.record (.spawn spawn)) [] [] [spawn] :=
  ⟨[.spawn spawn], rfl, rfl, rfl, rfl⟩

theorem shows_machine (s : Session) (m : Machine) : Shows s { s with machine := m } [] [] [] :=
  ⟨[], by rw [List.append_nil], rfl, rfl, rfl⟩

/-! ## What is left behind -/

theorem Prepared.kind_eq (h : Prepared c m prepared target) : target.map Prod.fst = c.kind? := by
  cases h with
  | plain no_target => simp [Command.kind?, no_target]
  | opened target opens => simp [Command.kind?, target]

theorem Prepared.leaves (h : Prepared c m prepared target) : Leaves c m [] prepared := by
  cases h with
  | plain no_target => simp [Leaves, no_target]
  | @opened r _ l target opens =>
    simp only [Leaves, target, List.append_nil]
    exact ⟨l, Machine.writesTo_of_openFile opens, Machine.text?_of_openFile opens⟩

/-- A program that runs sends the text of one stream to its target, and the other text is shown. -/
theorem Prepared.deliverBoth (h : Prepared c m s.machine target) (out err : Text) :
    Leaves c m (sentText c.kind? out err) (deliverBoth target out err s).machine ∧
      Shows s (deliverBoth target out err s) (leftText c.kind? .stdout out)
        (leftText c.kind? .stderr err) [] := by
  cases h with
  | plain no_target =>
    refine ⟨by simp [Leaves, no_target, Execution.deliverBoth, deliver, Session.record],
      [.out out, .err err], ?_⟩
    simp [Execution.deliverBoth, deliver, Session.record, Command.kind?, no_target, leftText,
      Transcript.out, Transcript.err, Transcript.spawns]
  | @opened r _ l target opens =>
    have hwrites := Machine.writesTo_of_openFile opens
    have htext := Machine.text?_of_openFile opens
    obtain ⟨⟨stream, writing⟩, file⟩ := r
    cases stream with
    | stdout =>
      refine ⟨?_, [.err err], ?_⟩
      · simp only [Leaves, target, Command.kind?, Option.map_some, sentText]
        exact ⟨l, hwrites.append out, Machine.text?_append htext out⟩
      · simp [deliverBoth_some, Session.record, Command.kind?, target, leftText, Transcript.out,
          Transcript.err, Transcript.spawns]
    | stderr =>
      refine ⟨?_, [.out out], ?_⟩
      · simp only [Leaves, target, Command.kind?, Option.map_some, sentText]
        exact ⟨l, hwrites.append err, Machine.text?_append htext err⟩
      · simp [deliverBoth_some, Session.record, Command.kind?, target, leftText, Transcript.out,
          Transcript.err, Transcript.spawns]

/-! ## Running a program -/

/-- A program that is tried in a prepared machine runs, or refuses to start. -/
theorem Prepared.ends_await {deed : Deed} (h : Prepared c s.machine t.machine target)
    (hfound : find s.machine (s.value Environment.pathName) c.name = .ok (some path))
    (hdoes : t.machine.Does path c.argv s.started deed)
    (hshows : Shows s t [] [] [⟨path, c.argv, c.kind?⟩]) :
    ∃ stage, Ends c s stage ((await c.name target deed).perform t) := by
  cases deed with
  | refuses reason =>
    refine ⟨_, .notStarted hfound h (.inl hdoes) h.leaves (.inr rfl) ?_⟩
    exact hshows.trans (shows_complain t (.cannotStart c.name reason))
  | completes out err code =>
    obtain ⟨hleaves, hdelivered⟩ := h.deliverBoth out err
    exact ⟨_, .run hfound h hdoes (.inl ⟨code, rfl, rfl⟩) hleaves (hshows.trans hdelivered)⟩
  | interrupted out err =>
    obtain ⟨hleaves, hdelivered⟩ := h.deliverBoth out err
    exact ⟨_, .run hfound h hdoes (.inr ⟨rfl, rfl⟩) hleaves (hshows.trans hdelivered)⟩

/-- A program that is to be started in a prepared machine runs, is not started, or breaks off. -/
theorem Prepared.ends_launch (h : Prepared c s.machine t.machine target)
    (hfound : find s.machine (s.value Environment.pathName) c.name = .ok (some path))
    (hshows : Shows s t [] [] []) :
    (∃ stage, Ends c s stage ((launch c path target).perform t)) ∨
      ∃ reason, (launch c path target).Faults t reason := by
  have hnoted := hshows.trans (shows_note t [.running path c.argv])
  have hspawned := hnoted.trans (shows_spawn _ ⟨path, c.argv, target.map Prod.fst⟩)
  rw [h.kind_eq] at hspawned
  simp only [Action.Faults, perform_launch, h.kind_eq]
  split
  · exact .inr ⟨_, rfl⟩
  · rcases hprogram : t.machine.program path with (reason | _) | program
    · refine .inl ⟨_, .notStarted hfound h (.inr ⟨reason, hprogram, rfl⟩) h.leaves (.inl rfl) ?_⟩
      exact hnoted.trans (shows_complain _ (.cannotStart c.name (.errno reason)))
    · exact .inr ⟨_, rfl⟩
    · exact .inl (Prepared.ends_await (t := (t.note _).record _) h hfound
        ⟨program, hprogram, by rw [hshows.started_eq]⟩ hspawned)

/-- A command that is run as a program ends in one of the stages unless it breaks off. -/
theorem ends_or_faults (c : Command) (s : Session) :
    (∃ stage, Ends c s stage ((runProgram c).perform s)) ∨
      ∃ reason, (runProgram c).Faults s reason := by
  simp only [Action.Faults, perform_runProgram]
  rcases hfind : find s.machine (s.value Environment.pathName) c.name with reason | _ | path
  · exact .inr ⟨reason, rfl⟩
  · have hshows := (shows_note s (SearchPath.remarks c.name none)).trans
      (shows_complain _ (.commandNotFound c.name))
    exact .inl ⟨_, .notFound hfind rfl hshows⟩
  have hnoted := shows_note s [.resolved c.name path]
  cases hr : c.redirection with
  | none =>
    have hprepared : Prepared c s.machine (s.note [.resolved c.name path]).machine none := .plain hr
    exact hprepared.ends_launch hfind hnoted
  | some r =>
    simp only
    rcases hopen : s.machine.openFile r.target r.kind.writing with (reason | _) | ⟨opened, l⟩
    · have hshows := hnoted.trans (shows_complain _ (.cannotOpen c.name r.target reason))
      exact .inl ⟨_, .notOpened hfind hr hopen rfl hshows⟩
    · exact .inr ⟨_, rfl⟩
    · have hprepared : Prepared c s.machine opened (some (r.kind, l)) := .opened hr hopen
      have hredirected := (hnoted.trans (shows_machine _ opened)).trans
        (shows_note _ [.redirected r.kind r.target])
      exact Prepared.ends_launch (t := Session.note _ _) hprepared hfind hredirected

theorem no_nul_of_find {name : Text}
    (h : find s.machine (s.value Environment.pathName) name = .ok (some path)) :
    '\x00' ∉ name := by
  obtain ⟨hname, directory, hholder, -⟩ := find_eq_some_iff.1 h
  intro hnul
  refine Machine.no_nul_of_canRun (canRun_of_isFirstHolder hholder) ?_
  exact Path.mem_join (Path.isAbsolute_of_no_slash (no_slash_of_isName hname)) (.inr hnul)

/-- A command ends in exactly one of the stages, whatever its name is, if looking the name up is not
refused and U+0000 is neither in its arguments nor in its target. -/
theorem existsUnique_ends (c : Command) (s : Session) (hargs : ∀ arg ∈ c.args, '\x00' ∉ arg)
    (htarget : ∀ r, c.redirection = some r → '\x00' ∉ r.target)
    (hlookUp : ∀ reason,
      find s.machine (s.value Environment.pathName) c.name ≠ .error reason) :
    ∃! stage, Ends c s stage ((runProgram c).perform s) := by
  rcases ends_or_faults c s with ⟨stage, hends⟩ | ⟨reason, hfaults⟩
  · exact ⟨stage, hends, fun other hother => hother.unique hends⟩
  · exfalso
    rcases Faults.faults_runProgram.1 hfaults with hlost | ⟨-, path, hfound, hnul⟩
    · exact hlookUp reason (Faults.find_eq_error_iff_losesDirectory.2 hlost)
    · rcases hnul with ⟨r, hr, hnul⟩ | ⟨-, arg, harg, hnul⟩
      · exact htarget r hr hnul
      · rcases List.mem_cons.1 harg with rfl | harg
        · exact no_nul_of_find hfound hnul
        · exact hargs arg harg hnul

/-- A program that is not started leaves its target empty. -/
theorem existsUnique_ends_emptied :
    let x : Name := { text := ['x'] }
    let f : Name := { text := ['f'] }
    let program : Program := .always (.refuses (.errno .notExecutable))
    let tree : FileTree := .cons x (.file .all [] program) .empty
      (.cons f (.file .newFile ['o'] .idle) .empty .empty)
    let s := Session.start ⟨tree, .root, true⟩ ⟨[(Environment.pathName, ['/'])]⟩
    let c : Command := ⟨['x'], [], some ⟨⟨.stdout, .truncate⟩, ['f']⟩, true⟩
    (∃! stage, Ends c s stage ((runProgram c).perform s)) ∧
      ((runProgram c).perform s).1 = .ok 126 ∧
      ((runProgram c).perform s).2.machine.tree.text? [f] = some [] := by
  intro x f program tree s c
  have hfind : find s.machine (s.value Environment.pathName) ['x'] = .ok (some "/x".toList) := by
    rfl
  refine ⟨existsUnique_ends c s (by simp [c]) ?_ (by simp [c, hfind]), by rfl, by rfl⟩
  intro r hr
  cases hr
  decide

-- The path that is answered for `/a/../x`, behind the link `/a` to `/w/v`, leads to a directory.
example :
    let m : Machine := .ofEntries [([{ text := ['a'] }], .link { text := "/w/v".toList }),
      ([{ text := ['v'] }, { text := ['w'] }], .directory .all),
      ([{ text := ['x'] }, { text := ['w'] }], .file .all [] .idle),
      ([{ text := ['x'] }], .directory .all)] []
    let s := Session.start m ⟨[(Environment.pathName, "/a/..".toList)]⟩
    let outcome := (runProgram ⟨['x'], [], none, true⟩).perform s
    outcome.1 = .ok 126 ∧ outcome.2.transcript.err false = "x: Permission denied\n".toList :=
  ⟨rfl, rfl⟩

end PocketShell.Execution
