import PocketShell.Proofs.Effects
import PocketShell.ReadLoop

/-!
# The read loop as a fold over its reads

The loop takes its reads one after the other, and each finds the session that the one before has
left. A line that is run to its end and a read that cannot be decoded come to a status; an interrupt
comes to none, wherever it arrives. The first line that leaves the shell ends the loop with its own
status. If there is none, the loop ends with the last status that was come to.
-/

namespace PocketShell.ReadLoop

/-- What a read leaves behind that does not end the loop, and the status that it comes to, if it
comes to one. -/
inductive Handled : Session → Read → Session → Option Int → Prop where
  | completed {s t : Session} {line : Text} {status : Int}
      (h : (Line.evaluate line).perform s = (.ok status, t)) :
      Handled s (.line line) t (some status)
  | cutShort {s t : Session} {line : Text}
      (h : (Line.evaluate line).perform s = (.error .interrupted, t)) :
      Handled s (.line line) (t.print ['\n']) none
  | interrupt (s : Session) : Handled s .interrupt (s.print ['\n']) none
  | undecodable (s : Session) (reason : Text) :
      Handled s (.undecodable reason) ((s.complain (.undecodable reason)).withStatus (some 1))
        (some 1)

/-- The loop waits at its prompt in a session, takes some reads in their order, none of which ends
it, and waits again: the sessions behind each of them, the statuses come to, and the session in
which it waits. A change of the world is no read and brings no new prompt. -/
inductive Passes : Session → List Read → List Session → List Int → Session → Prop where
  | waits (s : Session) : Passes s [] [] [] s
  | change {s t : Session} {c : Change} {rest : List Read} {stages : List Session}
      {statuses : List Int} (onward : Passes (s.change c) rest stages statuses t) :
      Passes s (.change c :: rest) stages statuses t
  | reads {s u t : Session} {r : Read} {rest : List Read} {stages : List Session}
      {status : Option Int} {statuses : List Int} (handled : Handled s r u status)
      (onward : Passes (u.print prompt) rest stages statuses t) :
      Passes s (r :: rest) (u :: stages) (status.toList ++ statuses) t

/-- The course of a loop that folds its reads: all of them up to the first line that leaves the
shell, or all there are. If no read comes to a status, the one that was kept before it began counts;
a fresh session has kept 0. -/
inductive Folds (s : Session) : List Read → Course → Prop where
  | inputOver {reads : List Read} {stages : List Session} {statuses : List Int} {t : Session}
      (passed : Passes (s.print prompt) reads stages statuses t) :
      Folds s reads ⟨s :: stages ++ [t.print ['\n']], .ok (statuses.getLast?.getD s.status), 0⟩
  | left {before after : List Read} {line : Text} {stages : List Session} {statuses : List Int}
      {t u : Session} {status : Int} (passed : Passes (s.print prompt) before stages statuses t)
      (leaves : (Line.evaluate line).perform t = (.error (.exit status), u)) :
      Folds s (before ++ .line line :: after) ⟨s :: stages ++ [u], .ok status, after.length⟩

variable {s t u : Session} {r : Read} {reads before after : List Read} {stages : List Session}
variable {status : Option Int} {statuses : List Int} {line : Text}

/-- A line that an interrupt ends keeps no status. -/
theorem status_of_error {reason : Abort} (h : (Line.evaluate line).perform s = (.error reason, t)) :
    t.status = s.status := by
  obtain ⟨spawned, hgoes⟩ := Line.exists_goesOn_status line s
  rw [Line.perform_evaluate] at h
  generalize (Line.status line).perform s = outcome at h hgoes
  obtain ⟨other | status, after⟩ := outcome
  · cases h
    exact hgoes.status_eq
  · simp at h

theorem status_of_ok {status : Int} (h : (Line.evaluate line).perform s = (.ok status, t)) :
    t.status = status := by
  rw [Line.perform_evaluate] at h
  generalize (Line.status line).perform s = outcome at h
  obtain ⟨reason | other, after⟩ := outcome
  · simp at h
  · cases h
    rfl

theorem Handled.status_eq (h : Handled s r u status) : u.status = status.getD s.status := by
  cases h with
  | completed h => exact status_of_ok h
  | cutShort h =>
    have hkept := status_of_error h
    exact hkept
  | interrupt => rfl
  | undecodable => rfl

theorem change_status (s : Session) (c : Change) : (s.change c).status = s.status := by
  cases c <;> rfl

/-- The kept status is the last one come to. -/
theorem Passes.status_eq (h : Passes s reads stages statuses t) :
    t.status = statuses.getLast?.getD s.status := by
  induction h with
  | waits s => rfl
  | change onward ih => rw [ih, change_status]
  | @reads s u t r rest stages status statuses handled onward ih =>
    have hu : (u.print prompt).status = status.getD s.status := handled.status_eq
    rw [ih, hu]
    cases status with
    | none => rfl
    | some status => simp [List.getLast?_cons]

theorem Handled.respond_eq (h : Handled s r u status) : respond s r = .proceeds u := by
  cases h with
  | completed h => simp [respond, h]
  | cutShort h => simp [respond, h, newline]
  | interrupt => rfl
  | undecodable => rfl

/-- Behind the reads that it has passed the loop goes on as if it began there. -/
theorem Passes.await_eq (h : Passes s before stages statuses t) (after : List Read) :
    await s (before ++ after) =
      { await t after with stages := stages ++ (await t after).stages } := by
  induction h with
  | waits s => rfl
  | change onward ih =>
    rw [List.cons_append, await]
    exact ih
  | reads handled onward ih =>
    rw [List.cons_append, await, handled.respond_eq]
    simp only [prompted, ih]
    rfl

/-- A read that does not end the loop is handled; only a line ends it, by leaving the shell or by a
fault. -/
theorem exists_passes (s : Session) (reads : List Read) :
    ∃ before stages statuses t, Passes s before stages statuses t ∧ (before = reads ∨
      ∃ line after reason u, reads = before ++ .line line :: after ∧
        (Line.evaluate line).perform t = (.error reason, u) ∧ reason ≠ .interrupted) := by
  induction reads generalizing s with
  | nil => exact ⟨[], [], [], s, .waits s, .inl rfl⟩
  | cons r rest ih =>
    have onward {u : Session} {status : Option Int} (handled : Handled s r u status) :
        ∃ before stages statuses t, Passes s before stages statuses t ∧ (before = r :: rest ∨
          ∃ line after reason u, r :: rest = before ++ .line line :: after ∧
            (Line.evaluate line).perform t = (.error reason, u) ∧ reason ≠ .interrupted) := by
      obtain ⟨before, stages, statuses, t, hpasses, hend⟩ := ih (u.print prompt)
      refine ⟨r :: before, u :: stages, _, t, .reads handled hpasses, ?_⟩
      rcases hend with rfl | ⟨line, after, reason, v, rfl, hline⟩
      · exact .inl rfl
      · exact .inr ⟨line, after, reason, v, rfl, hline⟩
    cases r with
    | change c =>
      obtain ⟨before, stages, statuses, t, hpasses, hend⟩ := ih (s.change c)
      refine ⟨.change c :: before, stages, statuses, t, .change hpasses, ?_⟩
      rcases hend with rfl | ⟨line, after, reason, v, rfl, hline⟩
      · exact .inl rfl
      · exact .inr ⟨line, after, reason, v, rfl, hline⟩
    | interrupt => exact onward (.interrupt s)
    | undecodable reason => exact onward (.undecodable s reason)
    | line text =>
      rcases h : (Line.evaluate text).perform s with ⟨reason | status, u⟩
      · by_cases hreason : reason = .interrupted
        · subst hreason
          exact onward (.cutShort h)
        · exact ⟨[], [], [], s, .waits s, .inr ⟨text, rest, reason, u, rfl, h, hreason⟩⟩
      · exact onward (.completed h)

/-- No line that the loop comes to breaks off with a fault. -/
def Faultless (s : Session) (reads : List Read) : Prop :=
  ∀ before line after stages statuses t reason, reads = before ++ .line line :: after →
    Passes (s.print prompt) before stages statuses t → ¬ (Line.evaluate line).Faults t reason

theorem folds_of_passes (h : Passes (s.print prompt) reads stages statuses t) :
    Folds s reads (run s reads) := by
  have hawait := h.await_eq []
  rw [List.append_nil, await, h.status_eq] at hawait
  rw [show run s reads = (await (s.print prompt) reads).after s from rfl, hawait]
  exact .inputOver h

/-- A line that leaves the shell is the last thing that the loop reads. -/
theorem run_of_exit {status : Int} (h : Passes (s.print prompt) before stages statuses t)
    (hline : (Line.evaluate line).perform t = (.error (.exit status), u)) :
    run s (before ++ .line line :: after) = ⟨s :: stages ++ [u], .ok status, after.length⟩ := by
  have hawait := h.await_eq (.line line :: after)
  have hends : respond t (.line line) = .ends u (.ok status) := by simp [respond, hline]
  rw [await, hends] at hawait
  rw [show run s (before ++ .line line :: after) =
    (await (s.print prompt) (before ++ .line line :: after)).after s from rfl, hawait]
  rfl

theorem folds_of_exit {status : Int} (h : Passes (s.print prompt) before stages statuses t)
    (hline : (Line.evaluate line).perform t = (.error (.exit status), u)) :
    Folds s (before ++ .line line :: after) (run s (before ++ .line line :: after)) := by
  rw [run_of_exit h hline]
  exact .left h hline

theorem result_of_no_words (h : Line.words line = .ok []) (s : Session) :
    ((Line.evaluate line).perform s).1 = .ok 0 := by
  have hnone : Command.ofWords? [] = none := rfl
  simp [Line.perform_evaluate, Line.perform_status, h, Execution.perform_runWords, hnone]

theorem result_of_unclosed {mark : QuoteMark} (h : Line.words line = .error mark) (s : Session) :
    ((Line.evaluate line).perform s).1 = .ok 2 := by
  simp [Line.perform_evaluate, Line.perform_status, h, Line.statusUnclosed]

/-- The loop folds its reads if no line that it comes to breaks off with a fault. An interrupt in a
line leaves the kept status as it was; a line without words comes to 0, and one that leaves a
quotation open to 2. -/
theorem folds_run (s : Session) (reads : List Read) (h : Faultless s reads) :
    Folds s reads (run s reads) ∧
    (∀ line t u, (Line.evaluate line).perform t = (.error .interrupted, u) →
      u.status = t.status) ∧
    (∀ line t, Line.words line = .ok [] → ((Line.evaluate line).perform t).1 = .ok 0) ∧
    ∀ line mark t, Line.words line = .error mark → ((Line.evaluate line).perform t).1 = .ok 2 := by
  refine ⟨?_, fun line t u => status_of_error, fun line t hwords => result_of_no_words hwords t,
    fun line mark t hwords => result_of_unclosed hwords t⟩
  obtain ⟨before, stages, statuses, t, hpasses, rfl | ⟨line, after, reason, u, rfl, hline, hne⟩⟩ :=
    exists_passes (s.print prompt) reads
  · exact folds_of_passes hpasses
  · cases reason with
    | interrupted => exact absurd rfl hne
    | exit status => exact folds_of_exit hpasses hline
    | fault reason =>
      have hfaults : (Line.evaluate line).Faults t reason := congrArg Prod.fst hline
      exact absurd hfaults (h before line after stages statuses t reason rfl hpasses)

/-- The status of a quotation that was left open outlasts an interrupt, and `exit` outdoes it. -/
theorem folds_run_exit :
    let s := Session.start ⟨.empty, .root, true⟩ ⟨[]⟩
    let reads := [.line ['"'], .interrupt, .undecodable ['?'], .line "exit -7".toList, .interrupt]
    Faultless s reads ∧ Folds s reads (run s reads) ∧ (run s reads).ending = .ok (-7) ∧
      (run s reads).unread = 1 := by
  intro s reads
  have hclean : Faultless s reads := by
    intro before line after stages statuses t reason hreads _ hfaults
    have hmem : Read.line line ∈ reads := by simp [hreads]
    simp only [reads, List.mem_cons, Read.line.injEq, reduceCtorEq, List.not_mem_nil, or_false,
      false_or] at hmem
    rcases hmem with rfl | rfl
    · have hresult : ((Line.evaluate ['"']).perform t).1 = .ok 2 := rfl
      rw [Action.Faults, hresult] at hfaults
      simp at hfaults
    · have hresult : ((Line.evaluate "exit -7".toList).perform t).1 = .error (.exit (-7)) := rfl
      rw [Action.Faults, hresult] at hfaults
      simp at hfaults
  exact ⟨hclean, (folds_run s reads hclean).1, rfl, rfl⟩

end PocketShell.ReadLoop
