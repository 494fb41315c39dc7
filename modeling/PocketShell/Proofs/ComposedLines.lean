import PocketShell.Proofs.CutRules

/-!
# Lines behind one another

Where nothing is open a space ends the word, and nothing that was read before it counts any more. So
the words of two lines with a space between them are those of the first line and then those of the
second, unless the first line ends in a backslash that takes the space.
-/

namespace PocketShell.Line

open Quoting

variable {s : State} {a : Text} {cut : Cut} {front : List Word}

namespace Cut

/-- The cut with more words behind its own. -/
def followedBy (cut : Cut) (ws : List Word) : Cut :=
  ⟨cut.first, cut.later ++ ws⟩

theorem words_followedBy (cut : Cut) (ws : List Word) :
    (cut.followedBy ws).words = cut.words ++ ws := by
  by_cases h : cut.first.text = [] <;> simp [words, followedBy, h]

theorem behind_followedBy (cut : Cut) (ws : List Word) (effect : Effect) (quoting : Bool) :
    (cut.followedBy ws).behind effect quoting = (cut.behind effect quoting).followedBy ws := by
  cases effect with
  | adds text => rfl
  | ends => exact congrArg (Cut.mk (.bare [])) (cut.words_followedBy ws)

end Cut

/-- A space that no backslash takes ends the word, whatever was open before. -/
theorem cutFrom_append_space (h : cutFrom s a = .ok cut) :
    (after s a).escape = false →
      ∀ b, cutFrom s (a ++ ' ' :: b) = (words b).map cut.followedBy := by
  refine cutFrom_induction (P := fun s a cut => (after s a).escape = false →
    ∀ b, cutFrom s (a ++ ' ' :: b) = (words b).map cut.followedBy) ?nil ?cons h
  case nil =>
    intro s hmark hescape b
    obtain rfl : s = .plain := by
      rw [State.plain, ← hmark, ← hescape]
      rfl
    rw [List.nil_append, cutFrom_plain_space, words]
    cases cutFrom .plain b <;> rfl
  case cons =>
    intro s c rest cut ih hescape b
    rw [List.cons_append, cutFrom_cons, ih hescape b]
    cases words b with
    | error mark => rfl
    | ok ws => exact congrArg Except.ok (cut.behind_followedBy ws _ _)

/-- A space that a backslash takes is one more character of the last word. -/
theorem exists_cutFrom_append_space (h : cutFrom s a = .ok cut) :
    (after s a).escape = true →
      ∃ cut', cutFrom s (a ++ [' ']) = .ok cut' ∧ cut'.text = cut.text ++ [' '] := by
  refine cutFrom_induction (P := fun s a cut => (after s a).escape = true →
    ∃ cut', cutFrom s (a ++ [' ']) = .ok cut' ∧ cut'.text = cut.text ++ [' ']) ?nil ?cons h
  case nil =>
    intro s hmark hescape
    obtain rfl : s = ⟨none, true⟩ := by
      rw [← hmark, ← hescape]
      rfl
    exact ⟨⟨.bare [' '], []⟩, rfl, rfl⟩
  case cons =>
    intro s c rest cut ih hescape
    obtain ⟨cut', hcut', htext⟩ := ih hescape
    refine ⟨cut'.behind (step s c).2 (isQuoting s (step s c).1), ?_, ?_⟩
    · rw [List.cons_append, cutFrom_cons, hcut']
      rfl
    · rw [Cut.text_behind, Cut.text_behind, htext, List.append_assoc]

/-- Behind a line that can be read, a space and any other line add the words of that other line, or
the quotation that it leaves open, exactly if no backslash waits at the end of the first line. -/
theorem words_append_space_iff (h : words a = .ok front) :
    (after .plain a).escape = false ↔
      ∀ b, words (a ++ ' ' :: b) = (words b).map (front ++ ·) := by
  obtain ⟨cut, hcut, rfl⟩ := exists_cut_of_words h
  constructor
  · intro hescape b
    rw [words, cutFrom_append_space hcut hescape b]
    cases words b with
    | error mark => rfl
    | ok ws => exact congrArg Except.ok (cut.words_followedBy ws)
  · intro hall
    refine Bool.eq_false_iff.2 fun hescape => ?_
    obtain ⟨cut', hcut', htext⟩ := exists_cutFrom_append_space hcut hescape
    have hsame : cut'.words = cut.words := by
      have hempty := hall []
      rw [words, hcut'] at hempty
      simpa [Except.map, words, cutFrom, Cut.words, Cut.empty, State.plain, Word.bare] using hempty
    rw [← Cut.flatMap_words, ← Cut.flatMap_words, hsame] at htext
    simp at htext

/-- An empty word and a quoted one in front leave no trace on the words behind them; nor does an
escaped backslash. -/
theorem words_append_space_quoted :
    let a := "'' \"x y\"\\\\".toList
    words a = .ok [⟨"x y\\".toList, true⟩] ∧ (after .plain a).escape = false ∧
      words (a ++ ' ' :: "> '' b".toList) =
        .ok [⟨"x y\\".toList, true⟩, .bare ['>'], .bare ['b']] ∧
      words (a ++ ' ' :: "b '".toList) = .error .single := by
  intro a
  have hfront : words a = .ok [⟨"x y\\".toList, true⟩] := rfl
  have hescape : (after .plain a).escape = false := rfl
  have hall := (words_append_space_iff hfront).1 hescape
  exact ⟨hfront, hescape, hall "> '' b".toList, hall "b '".toList⟩

end PocketShell.Line
