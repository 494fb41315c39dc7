import PocketShell.Launch
import PocketShell.Proofs.AcceptedArguments
import PocketShell.Proofs.OfferedNames
import PocketShell.Proofs.ShownBefore

/-!
# Diagnostics and completion

Showing remarks, and setting up completion or not, makes no difference to what a run does. With
remarks shown it goes through the same sessions, and its error text is that of the other run with
the remarks' lines put in. Completion only adds remarks before the first prompt; it is always set
up where it is wanted, unless the search path holds U+0000.
-/

namespace PocketShell

/-- Some texts are taken out of a text, in their order, and another one is left. -/
inductive Leaves : List Text → Text → Text → Prop where
  | nil : Leaves [] [] []
  | kept {taken : List Text} {whole rest : Text} (t : Text) (onward : Leaves taken whole rest) :
      Leaves taken (t ++ whole) (t ++ rest)
  | taken {taken : List Text} {whole rest : Text} (t : Text) (onward : Leaves taken whole rest) :
      Leaves (t :: taken) (t ++ whole) rest

theorem Leaves.length_eq {taken : List Text} {whole rest : Text} (h : Leaves taken whole rest) :
    whole.length = taken.flatten.length + rest.length := by
  induction h with
  | nil => rfl
  | kept t onward ih =>
    simp only [List.length_append]
    omega
  | taken t onward ih =>
    simp only [List.length_append, List.flatten_cons]
    omega

theorem Leaves.refl (t : Text) : Leaves [] t t := by
  simpa using Leaves.kept t .nil

/-- A remark as it stands in the error text. -/
def Remark.shown (r : Remark) : Text := r.line ++ ['\n']

namespace Transcript

/-- Without the lines of the remarks the error text is as if they were not shown. -/
theorem leaves_err (t : Transcript) :
    Leaves ((remarks t).map Remark.shown) (err true t) (err false t) := by
  induction t with
  | nil => exact .nil
  | cons event t ih =>
    cases event with
    | out text => exact ih
    | err text => exact ih.kept text
    | remark r => exact ih.taken r.shown
    | spawn s => exact ih

end Transcript

/-- An event that is no remark. -/
def Event.isShown : Event → Bool
  | .remark _ => false
  | _ => true

theorem Transcript.err_filter_isShown (t : Transcript) :
    Transcript.err false (t.filter Event.isShown) = t.err false := by
  induction t with
  | nil => rfl
  | cons event t ih =>
    cases event with
    | out text => exact ih
    | err text => exact congrArg (text ++ ·) ih
    | remark r => exact ih
    | spawn s => exact ih

namespace Session

/-- The session without its remarks. -/
def unremarked (s : Session) : Session :=
  { s with transcript := s.transcript.filter Event.isShown }

theorem unremarked_behind (shown : Transcript) (s : Session) :
    (s.behind shown).unremarked = s.unremarked.behind (shown.filter Event.isShown) := by
  simp [unremarked, behind]

theorem filter_isShown_remarks (remarks : List Remark) :
    (remarks.map Event.remark).filter Event.isShown = [] := by
  simp [Event.isShown]

end Session

namespace ReadLoop

/-- A loop that begins with remarks goes as it would go without them. -/
theorem run_note (s : Session) (remarks : List Remark) (reads : List Read) :
    (run (s.note remarks) reads).ending = (run s reads).ending ∧
      (run (s.note remarks) reads).unread = (run s reads).unread ∧
      (run (s.note remarks) reads).stages.map Session.unremarked =
        (run s reads).stages.map Session.unremarked := by
  let fresh : Session := { s with transcript := [] }
  have hplain : s = fresh.behind s.transcript := by simp [fresh, Session.behind]
  have hnoted : s.note remarks = fresh.behind (s.transcript ++ remarks.map .remark) := by
    simp [fresh, Session.behind, Session.note]
  have hcount : Transcript.spawns (s.transcript ++ remarks.map .remark) = s.transcript.spawns := by
    simp [Transcript.spawns, List.filterMap_map]
  obtain ⟨course, hnotedRun, hplainRun⟩ :=
    exists_run_behind (congrArg List.length hcount) fresh reads
  rw [← hplain] at hplainRun
  rw [← hnoted] at hnotedRun
  rw [hplainRun, hnotedRun]
  refine ⟨rfl, rfl, ?_⟩
  simp [Course.behind, Function.comp_def, Session.unremarked_behind,
    Session.filter_isShown_remarks]

end ReadLoop

namespace Launch

variable {terminal : Terminal} {args : List Text} {s : Session} {reads : List ReadLoop.Read}

/-- All that a run has shown at its end. -/
def Outcome.transcript (o : Outcome) : Transcript :=
  (o.stages.getLast?.map Session.transcript).getD []

/-- The error text of a run. -/
def Outcome.errorText (o : Outcome) : Text := o.transcript.err o.showRemarks

/-- The remarks that stand in the error text of a run. -/
def Outcome.records (o : Outcome) : List Text :=
  if o.showRemarks then o.transcript.remarks.map Remark.shown else []

/-- The arguments ask for remarks. -/
def AsksForRemarks (args : List Text) : Prop :=
  ∃ o, Arguments.read args = .options o ∧ o.debug = true

theorem leaves_errorText (o : Outcome) :
    Leaves o.records o.errorText (o.transcript.err false) := by
  unfold Outcome.records Outcome.errorText
  cases o.showRemarks with
  | true => exact Transcript.leaves_err o.transcript
  | false => exact .refl _

/-! ## Remarks -/

theorem showRemarks_withOptions (o : Options) :
    (withOptions terminal o s reads).showRemarks = o.debug := by
  unfold withOptions
  cases o.command with
  | some line => rfl
  | none =>
    unfold interactive
    simp only
    split <;> rfl

theorem withOptions_debug (o : Options) :
    withOptions terminal { o with debug := true } s reads =
      { withOptions terminal o s reads with showRemarks := true } := by
  obtain ⟨_ | line, debug, noCompletion⟩ := o
  · have hwants : wantsCompletion terminal ⟨none, true, noCompletion⟩ =
        wantsCompletion terminal ⟨none, debug, noCompletion⟩ := rfl
    simp only [withOptions, interactive, hwants]
    rcases (if wantsCompletion terminal ⟨none, debug, noCompletion⟩ then setUpCompletion
      else pure []).perform s with ⟨reason | calls, ready⟩
    · rfl
    · rfl
  · rfl

/-- Remarks are shown where the arguments ask for them. -/
theorem showRemarks_run : (run terminal args s reads).showRemarks = true ↔ AsksForRemarks args := by
  rw [run, AsksForRemarks]
  cases Arguments.read args with
  | help => simp
  | invalid e => simp
  | options o => simp [showRemarks_withOptions]

theorem showRemarks_eq_false (h : ¬ AsksForRemarks args) :
    (run terminal args s reads).showRemarks = false :=
  Bool.eq_false_iff.2 (mt showRemarks_run.1 h)

/-- Asking for remarks first shows them, and changes nothing else. Where the arguments are none of
a run the usage is printed with it and without it. -/
theorem run_debug (terminal : Terminal) (args : List Text) (s : Session)
    (reads : List ReadLoop.Read) :
    run terminal ("--debug".toList :: args) s reads = run terminal args s reads ∨
      run terminal ("--debug".toList :: args) s reads =
        { run terminal args s reads with showRemarks := true } := by
  rw [run, run, Arguments.read_cons_debug]
  cases Arguments.read args with
  | help => exact .inl rfl
  | invalid e => exact .inl rfl
  | options o => exact .inr (withOptions_debug o)

/-- A run that is asked for remarks first does what it would do without that, and shows the remarks
that it would show. -/
theorem stages_run_debug (terminal : Terminal) (args : List Text) (s : Session)
    (reads : List ReadLoop.Read) :
    let plain := run terminal args s reads
    let verbose := run terminal ("--debug".toList :: args) s reads
    verbose.stages = plain.stages ∧ verbose.ending = plain.ending ∧
      verbose.editor = plain.editor ∧ verbose.unread = plain.unread ∧
      (plain.showRemarks = true → verbose.showRemarks = true) := by
  intro plain verbose
  rcases run_debug terminal args s reads with hsame | hshown
  · have heq : verbose = plain := hsame
    rw [heq]
    exact ⟨rfl, rfl, rfl, rfl, id⟩
  · have heq : verbose = { plain with showRemarks := true } := hshown
    rw [heq]
    exact ⟨rfl, rfl, rfl, rfl, fun _ => rfl⟩

/-! ## Completion -/

/-- Setting completion up does not break off, and leaves remarks behind. -/
theorem perform_setUpCompletion (h : '\x00' ∉ s.value Environment.pathName) :
    ∃ calls remarks, setUpCompletion.perform s = (.ok calls, s.note remarks) := by
  obtain ⟨all, hall⟩ := SearchPath.exists_names s.machine h
  refine ⟨[.setCompleter (Completer.ofNames all).names, .parseAndBind "tab: complete".toList],
    SearchPath.skipped s.machine (SearchPath.directories (s.value Environment.pathName)), ?_⟩
  simp only [setUpCompletion, Action.perform_bind, Action.perform_get, Action.perform_note,
    Action.perform_uncaught, hall]
  rfl

/-- Two runs differ in their remarks and in what the line editor is asked for, and in nothing
else. -/
structure SameButCompletion (a b : Outcome) : Prop where
  stages : a.stages.map Session.unremarked = b.stages.map Session.unremarked
  ending : a.ending = b.ending
  unread : a.unread = b.unread
  showRemarks : a.showRemarks = b.showRemarks

theorem SameButCompletion.refl (a : Outcome) : SameButCompletion a a := ⟨rfl, rfl, rfl, rfl⟩

theorem sameButCompletion_withOptions (h : '\x00' ∉ s.value Environment.pathName) (o : Options) :
    SameButCompletion (withOptions terminal { o with noCompletion := true } s reads)
      (withOptions terminal o s reads) := by
  obtain ⟨_ | line, debug, noCompletion⟩ := o
  · have hunwanted : wantsCompletion terminal ⟨none, debug, true⟩ = false := rfl
    cases hwants : wantsCompletion terminal ⟨none, debug, noCompletion⟩ with
    | false =>
      simp only [withOptions, interactive, hunwanted, hwants]
      exact .refl _
    | true =>
      obtain ⟨calls, remarks, hcalls⟩ := perform_setUpCompletion h
      obtain ⟨hending, hunread, hstages⟩ := ReadLoop.run_note s remarks reads
      simp only [withOptions, interactive, hunwanted, hwants, if_true, hcalls]
      refine ⟨?_, congrArg endingOf hending.symm, hunread.symm, rfl⟩
      exact congrArg (s.unremarked :: ·) hstages.symm
  · exact .refl _

theorem sameButCompletion_run (h : '\x00' ∉ s.value Environment.pathName) (terminal : Terminal)
    (args : List Text) (reads : List ReadLoop.Read) :
    SameButCompletion (run terminal ("--no-completion".toList :: args) s reads)
      (run terminal args s reads) := by
  rw [run, run, Arguments.read_cons_noCompletion]
  cases Arguments.read args with
  | help => exact .refl _
  | invalid e => exact .refl _
  | options o => exact sameButCompletion_withOptions h o

theorem filter_isShown_transcript (o : Outcome) :
    o.transcript.filter Event.isShown =
      ((o.stages.map Session.unremarked).getLast?.map Session.transcript).getD [] := by
  rw [Outcome.transcript, List.getLast?_map]
  cases o.stages.getLast? with
  | none => rfl
  | some s => rfl

/-- Apart from the remarks the error texts are the same. -/
theorem SameButCompletion.err_eq {a b : Outcome} (h : SameButCompletion a b) :
    a.transcript.err false = b.transcript.err false := by
  rw [← Transcript.err_filter_isShown a.transcript, ← Transcript.err_filter_isShown b.transcript,
    filter_isShown_transcript, filter_isShown_transcript, h.stages]

/-- Whatever the arguments and the reads: a run with `--debug` goes through the same sessions to the
same ending, asks the line editor for the same and leaves the same reads; without the lines of its
remarks its error text is that of the run without `--debug`, unless that shows remarks itself, and
then the two texts are the same. A run with `--no-completion` differs in the remarks and in what the
line editor is asked for only. -/
theorem neutral_of_no_nul (terminal : Terminal) (args : List Text) (s : Session)
    (reads : List ReadLoop.Read) (h : '\x00' ∉ s.value Environment.pathName) :
    let plain := run terminal args s reads
    let verbose := run terminal ("--debug".toList :: args) s reads
    let bare := run terminal ("--no-completion".toList :: args) s reads
    (verbose.stages = plain.stages ∧ verbose.ending = plain.ending ∧
      verbose.editor = plain.editor ∧ verbose.unread = plain.unread ∧
      (¬ AsksForRemarks args → Leaves verbose.records verbose.errorText plain.errorText) ∧
      (AsksForRemarks args → verbose.errorText = plain.errorText)) ∧
    bare.stages.map Session.unremarked = plain.stages.map Session.unremarked ∧
      bare.ending = plain.ending ∧ bare.unread = plain.unread ∧
      ∃ rest, Leaves bare.records bare.errorText rest ∧
        Leaves plain.records plain.errorText rest := by
  intro plain verbose bare
  have hbare : SameButCompletion bare plain := sameButCompletion_run h terminal args reads
  refine ⟨?_, hbare.stages, hbare.ending, hbare.unread, plain.transcript.err false, ?_,
    leaves_errorText plain⟩
  · obtain ⟨hstages, hending, heditor, hunread, hshows⟩ :=
      stages_run_debug terminal args s reads
    have htranscript : verbose.transcript = plain.transcript :=
      congrArg (fun stages => (stages.getLast?.map Session.transcript).getD []) hstages
    refine ⟨hstages, hending, heditor, hunread, fun hnot => ?_, fun hasks => ?_⟩
    · have hhidden : plain.showRemarks = false := showRemarks_eq_false hnot
      have htext : plain.errorText = verbose.transcript.err false := by
        rw [Outcome.errorText, hhidden, htranscript]
      rw [htext]
      exact leaves_errorText verbose
    · have hshown : plain.showRemarks = true := showRemarks_run.2 hasks
      rw [Outcome.errorText, Outcome.errorText, htranscript, hshown, hshows hshown]
  · have hrest := leaves_errorText bare
    rwa [hbare.err_eq] at hrest

/-- A search path of a directory that is missing and one that cannot be read: both are remarked on
when completion is set up, and the loop breaks off at its second line. -/
theorem neutral_of_no_nul_skipping :
    let locked : Name := { text := ['l'] }
    let m : Machine := ⟨.cons locked (.directory ⟨false, false, false⟩) .empty .empty, .root, true⟩
    let s := Session.start m ⟨[(Environment.pathName, "/x:/l".toList)]⟩
    let reads := [.line ['"'], .line "cd a\x00b".toList]
    let plain := run ⟨true, true⟩ [] s reads
    let verbose := run ⟨true, true⟩ ["--debug".toList] s reads
    let bare := run ⟨true, true⟩ ["--no-completion".toList] s reads
    '\x00' ∉ s.value Environment.pathName ∧
      plain.ending = .aborts (.fault .nul) ∧ verbose.ending = .aborts (.fault .nul) ∧
      bare.ending = .aborts (.fault .nul) ∧ verbose.records.length = 3 ∧
      Leaves verbose.records verbose.errorText plain.errorText ∧
      plain.editor.length = 2 ∧ bare.editor = [] ∧
      bare.stages.map Session.unremarked = plain.stages.map Session.unremarked := by
  intro locked m s reads plain verbose bare
  have hpath : '\x00' ∉ s.value Environment.pathName := by decide
  have hplain : plain.ending = .aborts (.fault .nul) := by decide +kernel
  have hrecords : verbose.records.length = 3 := by decide +kernel
  have hset : plain.editor.length = 2 := by decide +kernel
  have hunset : bare.editor = [] := by decide +kernel
  have hnot : ¬ AsksForRemarks [] := by
    rintro ⟨o, ho, hdebug⟩
    cases ho
    simp at hdebug
  obtain ⟨⟨-, hverbose, -, -, hleaves, -⟩, hstages, hbare, -, -⟩ :=
    neutral_of_no_nul ⟨true, true⟩ [] s reads hpath
  exact ⟨hpath, hplain, hverbose.trans hplain, hbare.trans hplain, hrecords, hleaves hnot, hset,
    hunset, hstages⟩

/-- Where the arguments ask for remarks already both error texts hold them, so what is left when
they are taken out of one is not the other. -/
theorem not_leaves_of_asked_twice :
    let s := Session.start ⟨.empty, .root, true⟩ ⟨[]⟩
    let args := ["--debug".toList, "-c".toList, "pwd".toList]
    let plain := run ⟨false, false⟩ args s []
    let verbose := run ⟨false, false⟩ ("--debug".toList :: args) s []
    let record := "shell: DEBUG: tokens: ['pwd']\n".toList
    '\x00' ∉ s.value Environment.pathName ∧
      Arguments.read args = .options ⟨some "pwd".toList, true, false⟩ ∧
      verbose.records = [record] ∧ plain.errorText = record ∧
      ¬ Leaves verbose.records verbose.errorText plain.errorText := by
  intro s args plain verbose record
  have hpath : '\x00' ∉ s.value Environment.pathName := by decide
  have hrecords : verbose.records = [record] := by decide +kernel
  have hverbose : verbose.errorText = record := by decide +kernel
  have hplain : plain.errorText = record := by decide +kernel
  refine ⟨hpath, rfl, hrecords, hplain, fun hleaves => ?_⟩
  have hlength := hleaves.length_eq
  rw [hrecords, hverbose, hplain, List.flatten_singleton] at hlength
  have hpositive : 0 < record.length := List.length_pos_iff.2 (by decide)
  omega

end Launch

end PocketShell
