import PocketShell.Proofs.Clauses
import PocketShell.Proofs.Outcomes
import PocketShell.Proofs.Writing

/-!
# Runs of redirected commands

Commands that all send one of their streams to the same file are carried out one after the other.
Each leaves the file with what its operator spares of the text and what it sends behind that, so in
the end the file holds what was sent since it was last emptied. The other stream of each program is
the shell's own.
-/

namespace PocketShell.Execution

/-- The operator sends the standard output to the target; any other operator sends the error
output. -/
def sendsOutput (operator : Text) : Bool :=
  operator ∈ [">".toList, "1>".toList, ">>".toList, "1>>".toList]

/-- The operator empties the target; any other operator writes at its end. -/
def empties (operator : Text) : Bool :=
  operator ∈ [">".toList, "1>".toList, "2>".toList]

/-- What an operator asks for, said of its text. -/
def kindOf (operator : Text) : Redirection.Kind where
  stream := if sendsOutput operator then .stdout else .stderr
  writing := if empties operator then .truncate else .append

theorem ofOperator?_eq_kindOf {operator : Word} (h : operator.isOperator = true) :
    Redirection.Kind.ofOperator? operator.text = some (kindOf operator.text) := by
  have htable : ∀ o ∈ Redirection.Kind.operators, o.2 = kindOf o.1 := by decide
  obtain ⟨-, kind, hkind⟩ := Word.exists_kind h
  obtain ⟨before, after, hsplit, -⟩ := List.lookup_eq_some_iff.1 hkind
  have hmem : (operator.text, kind) ∈ Redirection.Kind.operators := by simp [hsplit]
  have hkindOf : kind = kindOf operator.text := htable _ hmem
  rw [hkind, hkindOf]

/-- A command with an operator and a target, and what comes of it: the path of its program, the
texts of the program's two streams and its code. -/
structure Redirected where
  name : Word
  args : List Word
  operator : Word
  target : Word
  path : Text
  out : Text
  err : Text
  code : Int

namespace Redirected

def words (c : Redirected) : List Word :=
  c.name :: c.args ++ [c.operator, c.target]

def argv (c : Redirected) : List Text :=
  (c.name :: c.args).map Word.text

def kind (c : Redirected) : Redirection.Kind := kindOf c.operator.text

def spawn (c : Redirected) : Spawn := ⟨c.path, c.argv, some c.kind⟩

/-- The text that is sent to the target. -/
def sent (c : Redirected) : Text :=
  if sendsOutput c.operator.text then c.out else c.err

/-- The text that is left for the shell's standard output. -/
def leftOut (c : Redirected) : Text :=
  if sendsOutput c.operator.text then [] else c.out

/-- The text that is left for the shell's error output. -/
def leftErr (c : Redirected) : Text :=
  if sendsOutput c.operator.text then c.err else []

/-- In a session the program of the command is found, the target opens as the file at a location,
and then the program runs to its end. It could not be started with U+0000 in its arguments. -/
structure Runs (c : Redirected) (p : Text) (l : Location) (s : Session) : Prop where
  no_operator : ∀ w ∈ c.name :: c.args, w.isOperator = false
  operator : c.operator.isOperator = true
  target : c.target.text = p
  resolves : SearchPath.find s.machine (s.value Environment.pathName) c.name.text =
    .ok (some c.path)
  no_nul : ∀ w ∈ c.name :: c.args, '\x00' ∉ w.text
  completes : ∃ opened, s.machine.openFile p c.kind.writing = .ok (opened, l) ∧
    opened.Does c.path c.argv s.started (.completes c.out c.err c.code)

/-- What the session shows of the command before its program runs. -/
def announced (c : Redirected) : Transcript :=
  [.remark (.resolved c.name.text c.path), .remark (.redirected c.kind c.target.text),
    .remark (.running c.path c.argv), .spawn c.spawn]

/-- All that the session shows of the command. -/
def shown (c : Redirected) : Transcript :=
  c.announced ++ [if sendsOutput c.operator.text then .err c.err else .out c.out]

/-- The text of the target behind the command, from its text before. A target that was missing has
had no text. -/
def received (c : Redirected) (before : Option Text) : Option Text :=
  some (c.kind.writing.spared (before.getD []) ++ c.sent)

end Redirected

variable {c : Redirected} {p : Text} {l : Location} {s t u : Session} {cs ds : List Redirected}

/-- Carries the commands out one after the other, and gives their statuses. -/
def dispatchAll (cs : List Redirected) : Action (List Int) :=
  cs.mapM fun c => runWords c.words

/-- Each command runs in the session that those before it leave. -/
def RunInTurn (p : Text) (l : Location) : List Redirected → Session → Prop
  | [], _ => True
  | c :: rest, s => c.Runs p l s ∧ RunInTurn p l rest ((runWords c.words).perform s).2

/-- The second session is what the commands have made of the first one: the text of the target is
what they have left there, and all of them are shown. -/
structure Yields (l : Location) (cs : List Redirected) (s t : Session) : Prop where
  text?_eq : t.machine.tree.text? l =
    cs.foldl (fun before c => c.received before) (s.machine.tree.text? l)
  transcript_eq : t.transcript = s.transcript ++ cs.flatMap Redirected.shown

theorem Yields.refl (l : Location) (s : Session) : Yields l [] s s where
  text?_eq := rfl
  transcript_eq := (List.append_nil _).symm

theorem Yields.append (h : Yields l cs s t) (h' : Yields l ds t u) : Yields l (cs ++ ds) s u where
  text?_eq := by rw [h'.text?_eq, h.text?_eq, List.foldl_append]
  transcript_eq := by
    rw [h'.transcript_eq, h.transcript_eq, List.flatMap_append, List.append_assoc]

/-! ## One command -/

namespace Redirected.Runs

theorem clause_eq (h : c.Runs p l s) :
    Clause.ofWords c.words = .redirected c.name c.args c.operator c.target [] := by
  have hstop : ∀ operator ∈ [c.operator, c.target].head?, operator.isOperator = true := by
    simpa using h.operator
  obtain ⟨htake, hdrop⟩ := Clause.cut_append h.no_operator hstop
  rw [← words] at htake hdrop
  simp only [Clause.ofWords, htake, hdrop]

/-- The command that is carried out is never a builtin. -/
theorem perform_runWords_eq (h : c.Runs p l s) :
    (runWords c.words).perform s =
      (runProgram ⟨c.name.text, c.args.map Word.text, some ⟨c.kind, p⟩, true⟩).perform s := by
  have hcommand : Command.ofWords? c.words =
      some ⟨c.name.text, c.args.map Word.text, some ⟨c.kind, p⟩, true⟩ := by
    rw [Command.ofWords?, h.clause_eq, Clause.command?, ofOperator?_eq_kindOf h.operator, h.target]
    rfl
  have hquiet : remarks c.words (Clause.ofWords c.words) = [] := by rw [h.clause_eq]; rfl
  rw [perform_runWords, hcommand, hquiet, Session.note_nil]
  rfl

theorem no_nul_argv (h : c.Runs p l s) : c.argv.any ('\x00' ∈ ·) = false := by
  simp only [argv, List.any_map, List.any_eq_false]
  intro w hw
  simpa using h.no_nul w hw

end Redirected.Runs

theorem deliverBoth_eq (c : Redirected) (l : Location) (s : Session) :
    (deliverBoth (some (c.kind, l)) c.out c.err s).machine = s.machine.append l c.sent ∧
      (deliverBoth (some (c.kind, l)) c.out c.err s).transcript = s.transcript ++
        [if sendsOutput c.operator.text then .err c.err else .out c.out] := by
  cases hsends : sendsOutput c.operator.text with
  | true =>
    have hstream : c.kind.stream = .stdout := by simp [Redirected.kind, kindOf, hsends]
    simp [deliverBoth_some, hstream, Redirected.sent, hsends, Session.record]
  | false =>
    have hstream : c.kind.stream = .stderr := by simp [Redirected.kind, kindOf, hsends]
    simp [deliverBoth_some, hstream, Redirected.sent, hsends, Session.record]

/-- A command leaves in its target what opening spares of the text, and what it sends behind
that. -/
theorem Redirected.Runs.yields (h : c.Runs p l s) :
    ∃ t, (runWords c.words).perform s = (.ok c.code, t) ∧ Yields l [c] s t := by
  obtain ⟨opened, hopen, program, hprogram, hdeed⟩ := h.completes
  -- The session when the program starts: its target is open, and nothing was sent to it yet.
  let started : Session :=
    { s with machine := opened, transcript := s.transcript ++ c.announced }
  obtain ⟨hmachine, htranscript⟩ := deliverBoth_eq c l started
  refine ⟨deliverBoth (some (c.kind, l)) c.out c.err started, ?_, ?_, ?_⟩
  · have hnul : (c.name.text :: c.args.map Word.text).any ('\x00' ∈ ·) = false := h.no_nul_argv
    have hstarted : started =
        ((({ s.note [.resolved c.name.text c.path] with machine := opened }.note
          [.redirected c.kind p]).note [.running c.path c.argv]).record (.spawn c.spawn)) := by
      simp [started, Session.note, Session.record, Redirected.announced, h.target]
    -- Nothing but remarks stands between the command and the start of its program.
    have hcount : Session.started { s.note [.resolved c.name.text c.path] with machine := opened } =
        s.started := Session.started_note s _
    rw [h.perform_runWords_eq, perform_runProgram, hstarted]
    have hcompletes : program (c.name.text :: c.args.map Word.text) s.started =
        .completes c.out c.err c.code := hdeed
    simp only [h.resolves, hopen, perform_launch, Command.argv, hnul, Bool.false_eq_true, if_false,
      Session.machine_note, hprogram, Session.started_note, hcount, hcompletes,
      perform_await_completes]
    rfl
  · have hspared := Machine.text?_of_openFile hopen
    rw [hmachine]
    exact Machine.text?_append hspared c.sent
  · rw [htranscript]
    simp [started, Redirected.shown]

/-! ## What is shown -/

namespace Redirected

theorem out_shown (c : Redirected) : c.shown.out = c.leftOut := by
  cases hsends : sendsOutput c.operator.text <;>
    simp [shown, announced, Transcript.out, leftOut, hsends]

theorem err_shown (c : Redirected) : c.shown.err false = c.leftErr := by
  cases hsends : sendsOutput c.operator.text <;>
    simp [shown, announced, Transcript.err, leftErr, hsends]

theorem spawns_shown (c : Redirected) : c.shown.spawns = [c.spawn] := by
  cases hsends : sendsOutput c.operator.text <;>
    simp [shown, announced, Transcript.spawns, hsends]

end Redirected

namespace Yields

theorem out_eq (h : Yields l cs s t) :
    t.transcript.out = s.transcript.out ++ cs.flatMap Redirected.leftOut := by
  have hshown : Transcript.out (cs.flatMap Redirected.shown) = cs.flatMap Redirected.leftOut := by
    rw [Transcript.out, List.flatMap_assoc]
    exact congrArg cs.flatMap (funext Redirected.out_shown)
  rw [h.transcript_eq, Transcript.out_append, hshown]

theorem err_eq (h : Yields l cs s t) :
    t.transcript.err false = s.transcript.err false ++ cs.flatMap Redirected.leftErr := by
  have hshown : Transcript.err false (cs.flatMap Redirected.shown) =
      cs.flatMap Redirected.leftErr := by
    rw [Transcript.err, List.flatMap_assoc]
    exact congrArg cs.flatMap (funext Redirected.err_shown)
  rw [h.transcript_eq, Transcript.err_append, hshown]

theorem spawns_eq (h : Yields l cs s t) :
    t.transcript.spawns = s.transcript.spawns ++ cs.map Redirected.spawn := by
  have hshown : Transcript.spawns (cs.flatMap Redirected.shown) = cs.map Redirected.spawn := by
    rw [Transcript.spawns, List.filterMap_flatMap, List.map_eq_flatMap]
    exact congrArg cs.flatMap (funext Redirected.spawns_shown)
  rw [h.transcript_eq, Transcript.spawns_append, hshown]

end Yields

/-! ## A sequence of commands -/

theorem perform_dispatchAll_cons {code : Int} {codes : List Int}
    (h : (runWords c.words).perform s = (.ok code, t))
    (hrest : (dispatchAll cs).perform t = (.ok codes, u)) :
    (dispatchAll (c :: cs)).perform s = (.ok (code :: codes), u) := by
  rw [dispatchAll] at hrest
  simp only [dispatchAll, List.mapM_cons, Action.perform_bind, h, hrest, Action.perform_pure]

theorem yields_dispatchAll (h : RunInTurn p l cs s) :
    ∃ t, (dispatchAll cs).perform s = (.ok (cs.map Redirected.code), t) ∧ Yields l cs s t := by
  induction cs generalizing s with
  | nil => exact ⟨s, rfl, .refl l s⟩
  | cons c rest ih =>
    obtain ⟨hruns, hrest⟩ := h
    obtain ⟨t, hfirst, hyields⟩ := hruns.yields
    rw [hfirst] at hrest
    obtain ⟨u, hlater, hyields'⟩ := ih hrest
    exact ⟨u, perform_dispatchAll_cons hfirst hlater, hyields.append hyields'⟩

theorem received_of_empties (h : empties c.operator.text = true) (before : Option Text) :
    c.received before = some c.sent := by
  simp [Redirected.received, Redirected.kind, kindOf, h, Writing.spared]

theorem received_of_not_empties (h : empties c.operator.text = false) (before : Option Text) :
    c.received before = some (before.getD [] ++ c.sent) := by
  simp [Redirected.received, Redirected.kind, kindOf, h, Writing.spared]

/-- Commands that do not empty their target add to it what they send. -/
theorem foldl_received (h : ∀ c ∈ cs, empties c.operator.text = false) (text : Text) :
    cs.foldl (fun before c => c.received before) (some text) =
      some (text ++ cs.flatMap Redirected.sent) := by
  induction cs generalizing text with
  | nil => simp
  | cons c rest ih =>
    have hrest : ∀ d ∈ rest, empties d.operator.text = false :=
      fun d hd => h d (List.mem_cons_of_mem c hd)
    rw [List.foldl_cons, received_of_not_empties (h c List.mem_cons_self), Option.getD_some,
      ih hrest, List.flatMap_cons, List.append_assoc]

/-- Commands that are carried out in turn and redirected to one file: all of them come to the codes
of their programs. If none of them empties the file, it holds its text from before and then all that
was sent; otherwise what was sent from the last emptying on. What was not sent is shown, in order,
and nothing else is. -/
theorem text_of_runInTurn (h : RunInTurn p l cs s) :
    ∃ t, (dispatchAll cs).perform s = (.ok (cs.map Redirected.code), t) ∧
      (cs = [] → t = s) ∧
      (cs ≠ [] → (∀ c ∈ cs, empties c.operator.text = false) →
        t.machine.tree.text? l =
          some ((s.machine.tree.text? l).getD [] ++ cs.flatMap Redirected.sent)) ∧
      (∀ before c after, cs = before ++ c :: after → empties c.operator.text = true →
        (∀ d ∈ after, empties d.operator.text = false) →
        t.machine.tree.text? l = some ((c :: after).flatMap Redirected.sent)) ∧
      t.transcript.out = s.transcript.out ++ cs.flatMap Redirected.leftOut ∧
      t.transcript.err false = s.transcript.err false ++ cs.flatMap Redirected.leftErr ∧
      t.transcript.spawns = s.transcript.spawns ++ cs.map Redirected.spawn := by
  obtain ⟨t, hperform, hyields⟩ := yields_dispatchAll h
  refine ⟨t, hperform, ?_, ?_, ?_, hyields.out_eq, hyields.err_eq, hyields.spawns_eq⟩
  · rintro rfl
    exact (Prod.mk.inj hperform).2.symm
  · intro hne hkept
    obtain ⟨c, rest, rfl⟩ := List.exists_cons_of_ne_nil hne
    have hrest : ∀ d ∈ rest, empties d.operator.text = false :=
      fun d hd => hkept d (List.mem_cons_of_mem c hd)
    rw [hyields.text?_eq, List.foldl_cons, received_of_not_empties (hkept c List.mem_cons_self),
      foldl_received hrest, List.flatMap_cons, List.append_assoc]
  · rintro before c after rfl hempties hafter
    rw [hyields.text?_eq, List.foldl_append, List.foldl_cons, received_of_empties hempties,
      foldl_received hafter, List.flatMap_cons]

/-- A file that held a text is emptied for what a program writes as an error of its argument. Then
what the same program writes of another argument follows. -/
theorem text_of_runInTurn_both :
    let x : Name := { text := ['x'] }
    let f : Name := { text := ['f'] }
    let speak : Program := fun argv _ =>
      let said := Text.joined [' '] argv.tail
      .completes ("out:".toList ++ said) ("err:".toList ++ said) 3
    let holding (text : Text) : Machine :=
      ⟨.cons x (.file .all [] speak) .empty (.cons f (.file .newFile text .idle) .empty .empty),
        .root, true⟩
    let s := Session.start (holding "old".toList) ⟨[(Environment.pathName, ['/'])]⟩
    let first : Redirected := ⟨.bare ['x'], [.bare ['a']], .bare "2>".toList, .bare ['f'],
      "/x".toList, "out:a".toList, "err:a".toList, 3⟩
    let second : Redirected := ⟨.bare ['x'], [.bare ['b']], .bare "1>>".toList, .bare ['f'],
      "/x".toList, "out:b".toList, "err:b".toList, 3⟩
    RunInTurn ['f'] [f] [first, second] s ∧
      ∃ t, (dispatchAll [first, second]).perform s = (.ok [3, 3], t) ∧
        t.machine.tree.text? [f] = some "err:aout:b".toList ∧
        t.transcript.out = "out:a".toList ∧ t.transcript.err false = "err:b".toList := by
  intro x f speak holding s first second
  let between : Session :=
    { s with machine := holding "err:a".toList, transcript := first.shown }
  have hfirst : first.Runs ['f'] [f] s :=
    ⟨by decide, by decide, rfl, by rfl, by decide, holding [], by rfl, speak, by rfl, by rfl⟩
  have hbetween : ((runWords first.words).perform s).2 = between := by rfl
  have hsecond : second.Runs ['f'] [f] between :=
    ⟨by decide, by decide, rfl, by rfl, by decide, between.machine, by rfl, speak, by rfl, by rfl⟩
  have hboth : RunInTurn ['f'] [f] [first, second] s :=
    ⟨hfirst, hbetween ▸ hsecond, trivial⟩
  obtain ⟨t, hperform, -, -, htext, hout, herr, -⟩ := text_of_runInTurn hboth
  have hlast : t.machine.tree.text? [f] = some ([first, second].flatMap Redirected.sent) :=
    htext [] first [second] rfl (by decide) (by decide)
  exact ⟨hboth, t, hperform, hlast, hout, herr⟩

end PocketShell.Execution
