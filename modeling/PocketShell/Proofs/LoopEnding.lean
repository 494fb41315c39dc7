import PocketShell.Proofs.Faults
import PocketShell.ReadLoop

/-!
# How the read loop ends

The loop passes over its reads one after the other until one of them ends it or none is left. What
it comes to is settled by the first read that ends it, in the session that the reads before have
left: an `exit` gives its status, and a line that breaks off with a fault carries that fault out of
the loop. Where no line does so the loop gives a status.
-/

namespace PocketShell.ReadLoop

open Faults

/-- The session in which the loop waits after some reads, if none of them has ended it. -/
def standing (s : Session) : List Read → Option Session
  | [] => some s
  | r :: rest =>
    match respond s r with
    | .waits s => standing s rest
    | .proceeds s => standing (prompted s) rest
    | .ends _ _ => none

/-- The loop that starts in a session comes to read a line in another one. -/
def Reaches (s : Session) (reads : List Read) (line : Text) (t : Session) : Prop :=
  ∃ before after, reads = before ++ .line line :: after ∧ standing (prompted s) before = some t

/-- A line makes the loop leave with a status. -/
def LineLeaves (t : Session) (line : Text) (status : Int) : Prop :=
  ((Line.evaluate line).perform t).1 = .error (.exit status)

/-- The loop ends at the first read that ends it, or behind the last read. -/
theorem ending_await_iff {s : Session} {reads : List Read} {ending : Except Fault Int} :
    (await s reads).ending = ending ↔
      (∃ before r after t u, reads = before ++ r :: after ∧ standing s before = some t ∧
        respond t r = .ends u ending) ∨
      ∃ t, standing s reads = some t ∧ .ok t.status = ending := by
  induction reads generalizing s with
  | nil => simp [await, standing]
  | cons r rest ih =>
    have first : (∃ before q after t u, r :: rest = before ++ q :: after ∧
          standing s before = some t ∧ respond t q = .ends u ending) ↔
        (∃ u, respond s r = .ends u ending) ∨
        ∃ before q after t u, rest = before ++ q :: after ∧
          standing s (r :: before) = some t ∧ respond t q = .ends u ending := by
      constructor
      · rintro ⟨before, q, after, t, u, hsplit, hst, hr⟩
        cases before with
        | nil =>
          obtain ⟨rfl, rfl⟩ := List.cons.inj hsplit
          cases hst
          exact .inl ⟨u, hr⟩
        | cons p before =>
          obtain ⟨rfl, rfl⟩ := List.cons.inj hsplit
          exact .inr ⟨before, q, after, t, u, rfl, hst, hr⟩
      · rintro (⟨u, hr⟩ | ⟨before, q, after, t, u, rfl, hst, hr⟩)
        · exact ⟨[], r, rest, s, u, rfl, rfl, hr⟩
        · exact ⟨r :: before, q, after, t, u, rfl, hst, hr⟩
    rw [first]
    cases hr : respond s r with
    | waits next => simp [await, standing, hr, ih]
    | proceeds next => simp [await, standing, hr, ih, Course.after]
    | ends u end' => simp [await, standing, hr, eq_comm]

/-- Only a line ends the loop, by leaving the shell or by breaking off with a fault. -/
theorem exists_respond_eq_ends_iff {t : Session} {r : Read} {ending : Except Fault Int} :
    (∃ u, respond t r = .ends u ending) ↔ ∃ line, r = .line line ∧
      ((∃ status, ending = .ok status ∧ LineLeaves t line status) ∨
        ∃ reason, ending = .error reason ∧ LineBreaks t line reason) := by
  cases r with
  | change c => simp [respond]
  | interrupt => simp [respond]
  | undecodable reason => simp [respond]
  | line text =>
    simp only [Read.line.injEq, exists_eq_left', respond, LineLeaves, ← faults_evaluate,
      Action.Faults]
    rcases (Line.evaluate text).perform t with ⟨(status | _ | reason) | _, after⟩ <;>
      simp [eq_comm]

theorem ending_run_iff_reaches {s : Session} {reads : List Read} {ending : Except Fault Int} :
    (run s reads).ending = ending ↔
      (∃ line t, Reaches s reads line t ∧
        ((∃ status, ending = .ok status ∧ LineLeaves t line status) ∨
          ∃ reason, ending = .error reason ∧ LineBreaks t line reason)) ∨
      ∃ t, standing (prompted s) reads = some t ∧ .ok t.status = ending := by
  rw [show (run s reads).ending = (await (prompted s) reads).ending from rfl, ending_await_iff]
  apply or_congr_left
  constructor
  · rintro ⟨before, r, after, t, u, hsplit, hst, hr⟩
    obtain ⟨line, rfl, hline⟩ := exists_respond_eq_ends_iff.1 ⟨u, hr⟩
    exact ⟨line, t, ⟨before, after, hsplit, hst⟩, hline⟩
  · rintro ⟨line, t, ⟨before, after, hsplit, hst⟩, hline⟩
    obtain ⟨u, hr⟩ := exists_respond_eq_ends_iff.2 ⟨line, rfl, hline⟩
    exact ⟨before, .line line, after, t, u, hsplit, hst, hr⟩

/-- The loop gives a status unless a line that it reads breaks off with a fault, which is then what
it ends with. The status is that of the first line that leaves the shell, or the last status
behind the last read. -/
theorem ending_run_iff (s : Session) (reads : List Read) :
    ((∃ status, (run s reads).ending = .ok status) ↔
      ∀ line t reason, Reaches s reads line t → ¬ LineBreaks t line reason) ∧
    (∀ status, (run s reads).ending = .ok status ↔
      (∃ line t, Reaches s reads line t ∧ LineLeaves t line status) ∨
        ∃ t, standing (prompted s) reads = some t ∧ t.status = status) ∧
    (∀ reason, (run s reads).ending = .error reason ↔
      ∃ line t, Reaches s reads line t ∧ LineBreaks t line reason) := by
  have hok (status : Int) : (run s reads).ending = .ok status ↔
      (∃ line t, Reaches s reads line t ∧ LineLeaves t line status) ∨
        ∃ t, standing (prompted s) reads = some t ∧ t.status = status := by
    rw [ending_run_iff_reaches]
    simp
  have herror (reason : Fault) : (run s reads).ending = .error reason ↔
      ∃ line t, Reaches s reads line t ∧ LineBreaks t line reason := by
    rw [ending_run_iff_reaches]
    simp
  refine ⟨⟨?_, ?_⟩, hok, herror⟩
  · rintro ⟨status, hstatus⟩ line t reason hreach hbreaks
    rw [(herror reason).2 ⟨line, t, hreach, hbreaks⟩] at hstatus
    simp at hstatus
  · intro hnone
    cases hending : (run s reads).ending with
    | ok status => exact ⟨status, rfl⟩
    | error reason =>
      obtain ⟨line, t, hreach, hbreaks⟩ := (herror reason).1 hending
      exact absurd hbreaks (hnone line t reason hreach)

example : (run (.start ⟨.empty, .root, true⟩ ⟨[]⟩) [.line ['c', 'd', ' ', '\x00']]).ending =
    .error .nul := rfl

end PocketShell.ReadLoop
