import Mathlib.Data.List.Induction
import PocketShell.Proofs.CutRules

/-!
# Open quotations

A text is cut into words exactly if it leaves no quotation open. An open quotation is closed by its
own mark and by nothing else, so that it stays open behind every text without that mark. One mark
closes it, unless a backslash waits for a character: then the first mark is taken for that one, and
the second one closes. A backslash waits only outside of single quotes, behind an even number of
other backslashes.
-/

namespace PocketShell

namespace Quoting

variable {s : State} {mark : QuoteMark} {c : Char} {text : Text}

/-! ## The open mark -/

/-- A quotation is closed by its own mark only, and no other one is opened in it. -/
theorem mark_step (h : s.mark = some mark) (hc : c ≠ mark.char) :
    (step s c).1.mark = some mark := by
  obtain ⟨current, escape⟩ := s
  obtain rfl : current = some mark := h
  cases escape with
  | true => rfl
  | false =>
    cases mark with
    | single =>
      have hc : c ≠ '\'' := hc
      simp [step, hc, State.inside]
    | double =>
      have hc : c ≠ '"' := hc
      by_cases hb : c = '\\' <;> simp [step, hb, hc, State.inside]

theorem mark_after (h : s.mark = some mark) (htext : mark.char ∉ text) :
    (after s text).mark = some mark := by
  induction text generalizing s with
  | nil => exact h
  | cons c rest ih =>
    rw [List.mem_cons, not_or] at htext
    exact ih (mark_step h (Ne.symm htext.1)) htext.2

theorem after_inside (mark : QuoteMark) : after (.inside mark) [mark.char] = .plain := by
  cases mark <;> rfl

/-! ## The waiting backslash -/

/-- A backslash comes to wait unless another one waits for it. -/
theorem escape_step_iff :
    (step s c).1.escape = true ↔ c = '\\' ∧ s.escape = false ∧ s.mark ≠ some .single := by
  obtain ⟨mark, escape⟩ := s
  cases escape with
  | true => simp [step]
  | false =>
    by_cases hb : c = '\\'
    · subst hb
      rcases mark with _ | _ | _ <;> simp [step, State.inside]
    · rcases mark with _ | _ | _ <;> simp only [step, hb, if_false, false_and, iff_false] <;>
        (repeat' split) <;> simp [State.inside, State.plain]

theorem mark_step_backslash (s : State) : (step s '\\').1.mark = s.mark := by
  obtain ⟨mark, escape⟩ := s
  rcases mark with _ | _ | _ <;> cases escape <;> rfl

/-- How many backslashes a text ends in. -/
def endingBackslashes (text : Text) : Nat :=
  (text.reverse.takeWhile (· = '\\')).length

theorem endingBackslashes_concat (text : Text) (c : Char) :
    endingBackslashes (text ++ [c]) = if c = '\\' then endingBackslashes text + 1 else 0 := by
  simp only [endingBackslashes, List.reverse_append, List.reverse_singleton, List.singleton_append,
    List.takeWhile_cons, decide_eq_true_eq]
  split <;> rfl

/-- Of the backslashes at the end of a text, each second one is taken by the one before it. -/
theorem escape_after_iff (text : Text) :
    (after .plain text).escape = true ↔
      (after .plain text).mark ≠ some .single ∧ endingBackslashes text % 2 = 1 := by
  induction text using List.reverseRecOn with
  | nil => simp [after, State.plain, endingBackslashes]
  | append_singleton text c ih =>
    have hlast : after .plain (text ++ [c]) = (step (after .plain text) c).1 := after_append _ _ _
    rw [hlast, escape_step_iff, endingBackslashes_concat]
    by_cases hc : c = '\\'
    · subst hc
      rw [mark_step_backslash, ← Bool.not_eq_true, ih]
      have hparity : (endingBackslashes text + 1) % 2 = 1 ↔ ¬ endingBackslashes text % 2 = 1 := by
        omega
      rw [if_pos rfl, hparity]
      tauto
    · simp [hc]

end Quoting

namespace Line

open Quoting

variable {s : State} {mark : QuoteMark} {line text : Text}

/-! ## What is reported -/

/-- A text cannot be cut exactly if it leaves a quotation open, and that is the one reported. -/
theorem cutFrom_eq_error_iff : cutFrom s text = .error mark ↔ (after s text).mark = some mark := by
  induction text generalizing s with
  | nil => cases hmark : s.mark <;> simp [cutFrom, after, hmark]
  | cons c rest ih =>
    have hafter : after s (c :: rest) = after (step s c).1 rest := rfl
    rw [cutFrom_cons, hafter, ← ih]
    cases cutFrom (step s c).1 rest <;> simp [Except.map]

theorem words_eq_error_iff : words line = .error mark ↔ (after .plain line).mark = some mark := by
  rw [← cutFrom_eq_error_iff, words]
  cases cutFrom .plain line <;> simp [Except.map]

theorem exists_words_iff : (∃ ws, words line = .ok ws) ↔ (after .plain line).mark = none := by
  rw [Option.eq_none_iff_forall_ne_some]
  simp only [ne_eq, ← words_eq_error_iff]
  cases words line <;> simp

/-! ## Closing what is open -/

/-- A line that leaves a quotation open leaves the same one open behind every text without its mark.
The mark closes the quotation, unless a backslash waits for a character: then the mark is taken for
that one, and a second mark closes. That happens between double quotes only, where the line ends in
an odd number of backslashes. -/
theorem unclosed_until_mark (h : words line = .error mark) :
    (∀ suffix, mark.char ∉ suffix → words (line ++ suffix) = .error mark) ∧
    ((after .plain line).escape = false → ∃ ws, words (line ++ [mark.char]) = .ok ws) ∧
    ((after .plain line).escape = true → words (line ++ [mark.char]) = .error mark ∧
      ∃ ws, words (line ++ [mark.char, mark.char]) = .ok ws) ∧
    ((after .plain line).escape = true ↔ mark = .double ∧ endingBackslashes line % 2 = 1) := by
  have hopen := words_eq_error_iff.1 h
  have hwaits : (after .plain line).escape = true ↔
      mark = .double ∧ endingBackslashes line % 2 = 1 := by
    rw [escape_after_iff, hopen]
    cases mark <;> simp
  refine ⟨?stays, ?closes, ?takes, hwaits⟩
  case stays =>
    intro suffix hsuffix
    rw [words_eq_error_iff, after_append]
    exact mark_after hopen hsuffix
  case closes =>
    intro hescape
    have hstate : after .plain line = .inside mark := by
      rw [State.inside, ← hopen, ← hescape]
    rw [exists_words_iff, after_append, hstate, after_inside]
    rfl
  case takes =>
    intro hescape
    obtain ⟨rfl, -⟩ := hwaits.1 hescape
    have hstate : after .plain line = ⟨some .double, true⟩ := by rw [← hopen, ← hescape]
    constructor
    · rw [words_eq_error_iff, after_append, hstate]
      rfl
    · rw [exists_words_iff, after_append, hstate]
      rfl

/-- Three backslashes between double quotes: a space and a single quote change nothing, and it takes
two double quotes to close. -/
theorem unclosed_until_mark_waiting :
    let line := "a' \"'\"b\\\\\\".toList
    words line = .error .double ∧ '"' ∉ " '".toList ∧
      words (line ++ " '".toList) = .error .double ∧ (after .plain line).escape = true ∧
      words (line ++ ['"']) = .error .double ∧ ∃ ws, words (line ++ ['"', '"']) = .ok ws := by
  intro line
  have hopen : words line = .error .double := rfl
  have hplain : '"' ∉ " '".toList := by decide
  have hwaits : (after .plain line).escape = true := rfl
  obtain ⟨hstays, -, htakes, -⟩ := unclosed_until_mark hopen
  obtain ⟨hone, htwo⟩ := htakes hwaits
  exact ⟨hopen, hplain, hstays _ hplain, hwaits, hone, htwo⟩

end Line

end PocketShell
