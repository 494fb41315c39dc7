import PocketShell.Proofs.Effects
import PocketShell.Proofs.ProgramStages

/-!
# Names that are asked about

What `type` says of a name is what running a command of that name does in the same state. It is said
to be a builtin if a builtin is carried out, a path is said if a program of that path is tried,
nothing is said to be found if the command is not found, and what breaks off the one breaks off the
other. A program that is tried need not be started: the path that is said can be one at which
nothing is.
-/

namespace PocketShell

open Session

namespace Transcript

/-- The programs that were tried: the path and the arguments of each. They are remarked on right
before they are started, so those that cannot be started are among them. -/
def attempts (t : Transcript) : List (Text × List Text) :=
  t.filterMap fun
    | .remark (.running path argv) => some (path, argv)
    | _ => none

end Transcript

namespace Execution

open SearchPath Transcript

variable {c : Command} {s : Session} {path line : Text} {status : Int}
variable {outcome told ran : Outcome}

/-! ## What is tried -/

theorem attempts_complain (s : Session) (complaint : Complaint) :
    attempts (s.complain complaint).transcript = attempts s.transcript := by
  simp [complain, record, attempts]

theorem attempts_spawn (s : Session) (spawn : Spawn) :
    attempts (s.record (.spawn spawn)).transcript = attempts s.transcript := by
  simp [record, attempts]

theorem attempts_running (s : Session) (path : Text) (argv : List Text) :
    attempts (s.note [.running path argv]).transcript =
      attempts s.transcript ++ [(path, argv)] := by
  simp [note, attempts]

/-- Looking a name up tries nothing, whatever the answer is. -/
theorem attempts_lookedUp (s : Session) (name : Text) (answer : Option Text) :
    attempts (s.note (SearchPath.remarks name answer)).transcript = attempts s.transcript := by
  cases answer with
  | some path => simp [note, SearchPath.remarks, attempts]
  | none => cases hname : isName name <;> simp [note, SearchPath.remarks, hname, attempts]

theorem attempts_deliverBoth (target : Option Target) (out err : Text) (s : Session) :
    attempts (deliverBoth target out err s).transcript = attempts s.transcript := by
  cases target with
  | none => simp [deliverBoth, deliver, record, attempts]
  | some opened =>
    obtain ⟨⟨stream, writing⟩, l⟩ := opened
    cases stream <;> simp [deliverBoth_some, record, attempts]

theorem attempts_await (name : Text) (target : Option Target) (deed : Deed) (s : Session) :
    attempts ((await name target deed).perform s).2.transcript = attempts s.transcript := by
  cases deed with
  | refuses reason => exact attempts_complain s _
  | interrupted out err => exact attempts_deliverBoth target out err s
  | completes out err code => exact attempts_deliverBoth target out err s

/-- What is launched is tried, whatever comes of it. -/
theorem attempts_launch (c : Command) (path : Text) (target : Option Target) (s : Session) :
    attempts ((launch c path target).perform s).2.transcript =
      attempts s.transcript ++ [(path, c.argv)] := by
  have hnoted := attempts_running s path c.argv
  rw [perform_launch]
  split
  · exact hnoted
  · rcases s.machine.program path with (reason | _) | program
    · exact (attempts_complain _ _).trans hnoted
    · exact hnoted
    · exact ((attempts_await _ _ _ _).trans (attempts_spawn _ _)).trans hnoted

/-- A command has tried to start the program of a path with its arguments, and nothing else. -/
def TriesToStart (c : Command) (s : Session) (path : Text) (outcome : Outcome) : Prop :=
  attempts outcome.2.transcript = attempts s.transcript ++ [(path, c.argv)]

/-- What comes of trying the program of a path: it is started, or the system refuses for a reason
that is reported, or it breaks off at U+0000 in the path. -/
def Answered (c : Command) (s : Session) (path : Text) (outcome : Outcome) : Prop :=
  match s.machine.program path with
  | .ok _ => s.GoesOn outcome.2 [⟨path, c.argv, c.kind?⟩]
  | .error (.errno reason) => outcome.1 = .ok statusCannotStart ∧
      Shows s outcome.2 [] ((Complaint.cannotStart c.name (.errno reason)).message ++ ['\n']) []
  | .error .nul => outcome.1 = .error (.fault .nul) ∧ Shows s outcome.2 [] [] []

/-- The command is not found, which is reported, and nothing is started. -/
def IsNotFound (c : Command) (s : Session) (outcome : Outcome) : Prop :=
  outcome.1 = .ok statusNotFound ∧ outcome.2.machine = s.machine ∧
    Shows s outcome.2 [] (c.name ++ ": command not found".toList ++ ['\n']) []

/-- One line is all that is shown, with a status, and the machine stays as it is. -/
def Says (s : Session) (outcome : Outcome) (status : Int) (line : Text) : Prop :=
  outcome.1 = .ok status ∧ outcome.2.machine = s.machine ∧
    Shows s outcome.2 (line ++ ['\n']) [] []

theorem triesToStart_iff {other : Text} (h : TriesToStart c s path outcome) :
    TriesToStart c s other outcome ↔ other = path := by
  unfold TriesToStart at h ⊢
  rw [h]
  simp [eq_comm]

theorem not_triesToStart (h : attempts outcome.2.transcript = attempts s.transcript) :
    ¬ TriesToStart c s path outcome := by
  simp [TriesToStart, h]

theorem answered_launch (hc : c.redirection = none) (hargs : ∀ arg ∈ c.argv, '\x00' ∉ arg) :
    Answered c s path ((launch c path none).perform (s.note [.resolved c.name path])) := by
  have hclean : ¬ c.argv.any ('\x00' ∈ ·) = true := by simpa using hargs
  have hkind : (none : Option Target).map Prod.fst = c.kind? := by simp [Command.kind?, hc]
  have hnoted := (shows_note s [.resolved c.name path]).trans
    (shows_note _ [.running path c.argv])
  rw [perform_launch, if_neg hclean, machine_note, Answered, hkind]
  rcases s.machine.program path with (reason | _) | program
  · exact ⟨rfl, hnoted.trans (shows_complain _ _)⟩
  · exact ⟨rfl, hnoted⟩
  · have hgoes := (goesOn_note s [.resolved c.name path]).trans
      (goesOn_note _ [.running path c.argv])
    exact (hgoes.trans (goesOn_spawn _ ⟨path, c.argv, c.kind?⟩)).trans
      (effects_await c.name none _ _).1

/-- What was tried is not reported as a command that was not found. -/
theorem Answered.not_isNotFound (h : Answered c s path outcome) : ¬ IsNotFound c s outcome := by
  rintro ⟨hstatus, -, shown, hsession, -, -, hspawns⟩
  unfold Answered at h
  split at h
  · obtain ⟨shown', htranscript, hspawned⟩ := h.shown
    rw [hsession] at htranscript
    rw [List.append_cancel_left htranscript, hspawned] at hspawns
    simp at hspawns
  · rw [h.1] at hstatus
    simp [statusCannotStart, statusNotFound] at hstatus
  · rw [h.1] at hstatus
    simp at hstatus

/-! ## What is said -/

theorem shows_print (s : Session) (text : Text) : Shows s (s.print text) text [] [] :=
  ⟨[.out text], rfl, by simp [Transcript.out], rfl, rfl⟩

theorem says_print (s : Session) (remarks : List Remark) (status : Int) (line : Text) :
    Says s (.ok status, (s.note remarks).print (line ++ ['\n'])) status line :=
  ⟨rfl, rfl, (shows_note s remarks).trans (shows_print _ _)⟩

theorem says_iff {status' : Int} {line' : Text} (h : Says s outcome status line) :
    Says s outcome status' line' ↔ status' = status ∧ line' = line := by
  constructor
  · rintro ⟨hstatus', -, shown', hsession', hout', -⟩
    obtain ⟨hstatus, -, shown, hsession, hout, -⟩ := h
    have hshown : shown' = shown := by
      have htranscript := congrArg Session.transcript (hsession'.symm.trans hsession)
      exact List.append_cancel_left htranscript
    rw [hstatus'] at hstatus
    rw [hshown, hout] at hout'
    exact ⟨Except.ok.inj hstatus, (List.append_cancel_right hout').symm⟩
  · rintro ⟨rfl, rfl⟩
    exact h

/-- What breaks off says nothing. -/
theorem not_says_of_error {reason : Abort} (h : outcome.1 = .error reason) :
    ¬ Says s outcome status line := by
  rintro ⟨hstatus, -⟩
  rw [h] at hstatus
  simp at hstatus

/-! ## What is said and what is done -/

/-- The command is carried out by a builtin. -/
def RunsBuiltin (c : Command) (s : Session) (ran : Outcome) : Prop :=
  ∃ b, builtin? c = some b ∧ ran = (b.run c.args).perform s

/-- What is said of the name of a command agrees with running the command as a program. -/
structure AgreesOnProgram (c : Command) (s : Session) (told ran : Outcome) : Prop where
  says_path : ∀ path, Says s told 0 (c.name ++ " is ".toList ++ path) ↔ TriesToStart c s path ran
  answered : ∀ path, TriesToStart c s path ran → Answered c s path ran
  says_notFound : Says s told 1 (c.name ++ ": not found".toList) ↔ IsNotFound c s ran
  breaks_off : ∀ reason,
    told.1 = .error reason ↔ ran.1 = .error reason ∧ ∀ path, ¬ TriesToStart c s path ran

/-- The look-up is refused, and neither of the two goes on. -/
theorem agrees_of_refused (c : Command) (s : Session) (reason : Abort) :
    AgreesOnProgram c s (.error reason, s) (.error reason, s) where
  says_path path := iff_of_false (not_says_of_error rfl) (not_triesToStart rfl)
  answered path htries := absurd htries (not_triesToStart rfl)
  says_notFound := iff_of_false (not_says_of_error rfl) fun h => by simp [IsNotFound] at h
  breaks_off other := ⟨fun h => ⟨h, fun _ => not_triesToStart rfl⟩, And.left⟩

theorem agrees_of_notFound (htold : Says s told 1 (c.name ++ ": not found".toList))
    (hran : IsNotFound c s ran) (hnone : attempts ran.2.transcript = attempts s.transcript) :
    AgreesOnProgram c s told ran where
  says_path path := iff_of_false (by simp [says_iff htold]) (not_triesToStart hnone)
  answered path htries := absurd htries (not_triesToStart hnone)
  says_notFound := iff_of_true htold hran
  breaks_off reason := iff_of_false (by simp [htold.1]) (by simp [hran.1])

theorem agrees_of_found (htold : Says s told 0 (c.name ++ " is ".toList ++ path))
    (hran : TriesToStart c s path ran) (hanswered : Answered c s path ran) :
    AgreesOnProgram c s told ran where
  says_path other := by
    rw [says_iff htold, triesToStart_iff hran]
    simp
  answered other htries := by
    rwa [(triesToStart_iff hran).1 htries]
  says_notFound := iff_of_false (by simp [says_iff htold]) hanswered.not_isNotFound
  breaks_off reason := iff_of_false (by simp [htold.1]) fun h => h.2 path hran

theorem isNotFound_complain (c : Command) (s : Session) (remarks : List Remark) :
    IsNotFound c s (.ok statusNotFound, (s.note remarks).complain (.commandNotFound c.name)) :=
  ⟨rfl, rfl, (shows_note s remarks).trans (shows_complain _ _)⟩

/-- A name that is no builtin is looked up once for each of the two, with one answer. -/
theorem agreesOnProgram (hname : Builtin.ofName? c.name = none) (hc : c.redirection = none)
    (hargs : ∀ arg ∈ c.args, '\x00' ∉ arg) :
    AgreesOnProgram c s ((Builtin.runType [c.name]).perform s) ((runProgram c).perform s) := by
  rw [Builtin.perform_runType_lookUp hname, perform_runProgram, hc]
  rcases hfind : find s.machine (s.value Environment.pathName) c.name with reason | _ | path
  · exact agrees_of_refused c s _
  · exact agrees_of_notFound (says_print s _ _ _) (isNotFound_complain c s _)
      ((attempts_complain _ _).trans (attempts_lookedUp s c.name none))
  · have hargv : ∀ arg ∈ c.argv, '\x00' ∉ arg := by
      simpa [Command.argv] using ⟨no_nul_of_find hfind, hargs⟩
    have htries := attempts_launch c path none (s.note [.resolved c.name path])
    have hquiet := attempts_lookedUp s c.name (some path)
    rw [SearchPath.remarks] at hquiet
    rw [hquiet] at htries
    exact agrees_of_found (says_print s _ _ _) htries (answered_launch hc hargv)

/-- A path that is found is absolute, so it is never taken for what is said of a builtin. -/
theorem not_says_builtin (hname : Builtin.ofName? c.name = none) :
    ¬ Says s ((Builtin.runType [c.name]).perform s) 0
      (c.name ++ " is a shell builtin".toList) := by
  rw [Builtin.perform_runType_lookUp hname]
  rcases hfind : find s.machine (s.value Environment.pathName) c.name with reason | _ | path
  · exact not_says_of_error rfl
  · have hsaid := says_print s (SearchPath.remarks c.name none) 1 (c.name ++ ": not found".toList)
    exact fun h => absurd ((says_iff hsaid).1 h).1 (by decide)
  · have hsaid := says_print s [.resolved c.name path] 0 (c.name ++ " is ".toList ++ path)
    obtain ⟨-, directory, -, hpath⟩ := find_eq_some_iff.1 hfind
    have habsolute := Machine.isAbsolute_of_absolute hpath
    intro h
    have hline := ((says_iff hsaid).1 h).2
    have hsplit : " is a shell builtin".toList = " is ".toList ++ "a shell builtin".toList := by rfl
    rw [List.append_assoc, hsplit] at hline
    rw [← List.append_cancel_left (List.append_cancel_left hline)] at habsolute
    exact absurd habsolute (by decide)

theorem says_builtin_iff (h : c.external = false) :
    Says s ((Builtin.runType [c.name]).perform s) 0 (c.name ++ " is a shell builtin".toList) ↔
      RunsBuiltin c s ((runCommand c).perform s) := by
  have hname : builtin? c = Builtin.ofName? c.name := by simp [builtin?, h]
  cases hb : Builtin.ofName? c.name with
  | none =>
    refine iff_of_false (not_says_builtin hb) ?_
    rintro ⟨b, hbuiltin, -⟩
    simp [hname, hb] at hbuiltin
  | some b =>
    rw [Builtin.perform_runType_builtin hb]
    have hruns : builtin? c = some b := hname.trans hb
    exact iff_of_true ⟨rfl, rfl, shows_print s _⟩ ⟨b, hruns, by simp [runCommand, hruns]⟩

/-- What is said of the name of a command agrees with running it, and saying it changes nothing. -/
structure Agrees (c : Command) (s : Session) (told ran : Outcome) : Prop where
  says_builtin :
    Says s told 0 (c.name ++ " is a shell builtin".toList) ↔ RunsBuiltin c s ran
  otherwise : ¬ RunsBuiltin c s ran → AgreesOnProgram c s told ran
  machine_eq : told.2.machine = s.machine
  goesOn : s.GoesOn told.2 []

/-- Whatever the name is, `type` says of it what a command of that name without a redirection
does. -/
theorem agrees_runType (name : Text) (args : List Text) (s : Session)
    (hargs : ∀ arg ∈ args, '\x00' ∉ arg) :
    Agrees ⟨name, args, none, false⟩ s ((Builtin.runType [name]).perform s)
      ((runCommand ⟨name, args, none, false⟩).perform s) where
  says_builtin := says_builtin_iff (c := ⟨name, args, none, false⟩) rfl
  otherwise hno := by
    have hname : Builtin.ofName? name = none := by
      cases hb : Builtin.ofName? name with
      | none => rfl
      | some b => exact absurd ⟨b, hb, by simp [runCommand, builtin?, hb]⟩ hno
    have hruns : runCommand ⟨name, args, none, false⟩ = runProgram ⟨name, args, none, false⟩ := by
      simp [runCommand, builtin?, hname]
    rw [hruns]
    exact agreesOnProgram hname rfl hargs
  machine_eq := by
    have h := Builtin.effects_runType [name] (s := s)
    rw [h.machine_eq, h.cwd_eq.resolve_right (by simp)]
  goesOn := (Builtin.effects_runType [name]).goesOn

/-- The directory of the search path is behind the link `/a` to `/w/v`. The path that is said of `x`
is not that of the file that was found: it is the one that is tried, and nothing is there. -/
theorem agrees_runType_elsewhere :
    let a : Name := { text := ['a'] }
    let v : Name := { text := ['v'] }
    let w : Name := { text := ['w'] }
    let x : Name := { text := ['x'] }
    let below : FileTree := .cons v (.directory .all) .empty
      (.cons x (.file .all [] (.always (.completes ['h', 'i'] [] 0))) .empty .empty)
    let tree : FileTree := .cons a (.link { text := "/w/v".toList }) .empty
      (.cons w (.directory .all) below .empty)
    let s := Session.start ⟨tree, .live [], true⟩ ⟨[(Environment.pathName, "/a/..".toList)]⟩
    let c : Command := ⟨['x'], [['y']], none, false⟩
    (∀ arg ∈ c.args, '\x00' ∉ arg) ∧
      Says s ((Builtin.runType [['x']]).perform s) 0 "x is /x".toList ∧
      TriesToStart c s "/x".toList ((runCommand c).perform s) ∧
      ((runCommand c).perform s).1 = .ok 126 ∧
      Shows s ((runCommand c).perform s).2 [] "x: No such file or directory\n".toList [] := by
  intro a v w x below tree s c
  have hargs : ∀ arg ∈ c.args, '\x00' ∉ arg := by decide
  have hno : ¬ RunsBuiltin c s ((runCommand c).perform s) := by
    rintro ⟨b, hb, -⟩
    have hnone : builtin? c = none := by decide
    simp [hnone] at hb
  have hprogram := (agrees_runType ['x'] [['y']] s hargs).otherwise hno
  have htries : TriesToStart c s "/x".toList ((runCommand c).perform s) := by rfl
  have hanswered := hprogram.answered _ htries
  exact ⟨hargs, (hprogram.says_path _).2 htries, htries, hanswered⟩

end Execution

end PocketShell
