import PocketShell.Proofs.CommandsOfWords
import PocketShell.Proofs.LineEndings
import PocketShell.Proofs.Numerals
import PocketShell.Proofs.Requoting

/-!
# The status that the shell is left with

`exit` leaves the shell whatever its arguments: with success if there are none, with the integer
that the first one writes, and with 2 and a complaint if that writes none. Nothing wraps an integer
or masks it on its way out of the read loop: the line that asks for a status makes the loop end with
exactly that status, and what comes behind the line is not read.
-/

namespace PocketShell

namespace Line

open Numeral

variable {z : Int}

/-- The line that asks to leave the shell with a status. -/
def leaving (z : Int) : Text :=
  "exit ".toList ++ decimal z

/-- No character of an integer is special, so it is a word as it stands. -/
theorem words_leaving (z : Int) :
    words (leaving z) = .ok [.bare Builtin.exit.name, .bare (decimal z)] := by
  have hspecial : ∀ c ∈ Quotation.special, c ≠ '-' ∧ c.isDigit = false := by
    simp [Quotation.special]
  refine Requoting.words_of_bare [Builtin.exit.name, decimal z] fun t ht => ?_
  rcases List.mem_cons.1 ht with rfl | ht
  · simp [Builtin.name, Quotation.special]
  · obtain rfl := List.mem_singleton.1 ht
    exact ⟨decimal_ne_nil z, fun c hc hmem =>
      not_mem_decimal (hspecial c hmem).1 (hspecial c hmem).2 hc⟩

theorem asks_leaving (z : Int) :
    Asks (leaving z) ⟨Builtin.exit.name, [decimal z], none, false⟩ := by
  refine ⟨_, words_leaving z, ?_⟩
  have hoperator : ∀ t ∈ Word.operatorTexts, '>' ∈ t := by decide
  refine Command.ofWords?_append [.bare Builtin.exit.name, .bare (decimal z)] [] ?_ (by simp)
  intro w hw hbare
  have hmark := hoperator w.text hbare.2
  rcases List.mem_cons.1 hw with rfl | hw
  · exact absurd hmark (by decide)
  · obtain rfl := List.mem_singleton.1 hw
    exact not_mem_decimal (by decide) (by decide) hmark

theorem exists_perform_leaving (h : (Nat.toDigits 10 z.natAbs).length ≤ 4300) (s : Session) :
    ∃ t, (evaluate (leaving z)).perform s = (.error (.exit z), t) := by
  obtain ⟨remarks, hperform⟩ := exists_perform_exit (asks_leaving z) rfl rfl s
  refine ⟨s.note remarks, ?_⟩
  rw [hperform, Builtin.perform_runExit, Builtin.exitStatus?, toInt?_decimal h]

end Line

namespace Builtin

open ReadLoop

/-- Whatever its arguments, `exit` does nothing but leave the shell, with success, with the integer
that the first argument writes, or with 2 and a complaint. An integer of at most 4300 digits that a
line asks for in this way is what the read loop ends with, wherever it meets that line, and no read
behind the line is taken. -/
theorem status_of_runExit (s : Session) :
    (runExit []).perform s = (.error (.exit 0), s) ∧
    (∀ (n : Numeral.Spelling) (later : List Text),
      (runExit (n.written :: later)).perform s = (.error (.exit n.value), s)) ∧
    (∀ (first : Text) (later : List Text), (∀ n : Numeral.Spelling, n.written ≠ first) →
      (runExit (first :: later)).perform s =
        (.error (.exit 2), s.record (.err "exit: numeric argument required\n".toList))) ∧
    ∀ (z : Int) (before after : List Read) (stages : List Session) (statuses : List Int)
      (t : Session), (Nat.toDigits 10 z.natAbs).length ≤ 4300 →
      Passes (s.print prompt) before stages statuses t →
      let course := ReadLoop.run s (before ++ .line (Line.leaving z) :: after)
      course.ending = .ok z ∧ course.unread = after.length := by
  refine ⟨rfl, ?written, ?unwritten, ?loop⟩
  case written =>
    intro n later
    have hstatus := Numeral.toInt?_eq_some_iff.2 ⟨n, rfl, rfl⟩
    rw [perform_runExit, exitStatus?, hstatus]
  case unwritten =>
    intro first later hnone
    rw [perform_runExit, exitStatus?, Numeral.toInt?_eq_none_iff.2 hnone]
    rfl
  case loop =>
    intro z before after stages statuses t hlength hpasses
    obtain ⟨u, hline⟩ := Line.exists_perform_leaving hlength t
    have hrun : ReadLoop.run s (before ++ .line (Line.leaving z) :: after) =
        ⟨s :: stages ++ [u], .ok z, after.length⟩ := run_of_exit hpasses hline
    exact ⟨congrArg Course.ending hrun, congrArg Course.unread hrun⟩

/-- An integer may mix scripts, but not double its underscores; one of more than 64 bits is not
wrapped. -/
theorem status_of_runExit_unwrapped :
    let s := Session.start ⟨.empty, .root, true⟩ ⟨[]⟩
    let z : Int := -18446744073709551616
    (runExit [" -٤_2\u3000".toList, ['7']]).perform s = (.error (.exit (-42)), s) ∧
    (∀ n : Numeral.Spelling, n.written ≠ "4__2".toList) ∧
    (runExit ["4__2".toList]).perform s =
      (.error (.exit 2), s.record (.err "exit: numeric argument required\n".toList)) ∧
    (Nat.toDigits 10 z.natAbs).length ≤ 4300 ∧
    (ReadLoop.run s [.line ['"'], .line "exit -18446744073709551616".toList, .interrupt]).ending =
      .ok z ∧
    (ReadLoop.run s [.line ['"'], .line "exit -18446744073709551616".toList, .interrupt]).unread =
      1 := by
  intro s z
  obtain ⟨-, hwritten, hunwritten, hloop⟩ := status_of_runExit s
  have hnone : ∀ n : Numeral.Spelling, n.written ≠ "4__2".toList :=
    Numeral.toInt?_eq_none_iff.1 (by decide)
  have hlength : (Nat.toDigits 10 z.natAbs).length ≤ 4300 := by decide
  have hline : "exit -18446744073709551616".toList = Line.leaving z := by decide
  have hpasses : Passes (s.print prompt) [.line ['"']] _ _ _ := .reads (.completed rfl) (.waits _)
  have hcourse := hloop z [.line ['"']] [.interrupt] _ _ _ hlength hpasses
  rw [hline]
  refine ⟨?_, hnone, hunwritten _ _ hnone, hlength, hcourse⟩
  exact hwritten ⟨[' '], .minus, ⟨⟨'٤', 4, by decide⟩, [(true, ⟨'2', 2, by decide⟩)]⟩, ['\u3000'],
    List.forall_mem_singleton.2 (by decide), List.forall_mem_singleton.2 (by decide),
    by decide⟩ [['7']]

end Builtin

end PocketShell
