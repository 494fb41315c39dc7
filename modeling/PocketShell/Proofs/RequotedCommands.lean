import PocketShell.Proofs.Clauses
import PocketShell.Proofs.Requoting

/-!
# Commands that are written and read again

A word is written without quotes if it needs none, and the text of an operator needs none. So a word
that was quoted lest it be an operator is read back as one. The line that is written for some words
therefore asks for the same command exactly if no such word stands before the first operator.
-/

namespace PocketShell.Requoting

open Quotation Redirection

/-- The text of a word is that of an operator, whether or not the word was quoted. -/
def spellsOperator (w : Word) : Bool :=
  (Kind.ofOperator? w.text).isSome

theorem isOperator_eq (w : Word) : w.isOperator = (!w.quoted && spellsOperator w) := by
  rw [Word.isOperator, spellsOperator, Bool.eq_iff_iff]
  simp [Kind.ofOperator?_isSome_iff]

/-- No operator holds a character that cannot stand bare. -/
theorem quoted_reread_of_ofOperator? {t : Text} {kind : Kind} (h : Kind.ofOperator? t = some kind) :
    (reread t).quoted = false := by
  obtain ⟨before, after, hsplit, -⟩ := List.lookup_eq_some_iff.1 h
  have hmem : (t, kind) ∈ Kind.operators := by simp [hsplit]
  have hall : ∀ operator ∈ Kind.operators, (reread operator.1).quoted = false := by decide
  exact hall _ hmem

/-- What is read back is an operator wherever the text is one. -/
theorem isOperator_reread (w : Word) : (reread w.text).isOperator = spellsOperator w := by
  rw [isOperator_eq]
  cases h : Kind.ofOperator? w.text with
  | none => simp [spellsOperator, reread, h]
  | some kind =>
    rw [quoted_reread_of_ofOperator? h]
    rfl

theorem findIdx_spellsOperator_iff (ws : List Word) :
    ws.findIdx spellsOperator = ws.findIdx Word.isOperator ↔
      ∀ w ∈ ws.takeWhile (!·.isOperator), spellsOperator w = false := by
  induction ws with
  | nil => simp
  | cons w ws ih =>
    cases hs : spellsOperator w with
    | false => simpa [List.findIdx_cons, isOperator_eq, hs] using ih
    | true => cases hq : w.quoted <;> simp [List.findIdx_cons, isOperator_eq, hs, hq]

/-- What is no operator and yet spells one was quoted. -/
theorem spellsOperator_of_mem_takeWhile {ws : List Word} {w : Word}
    (h : w ∈ ws.takeWhile (!·.isOperator)) :
    spellsOperator w = false ↔ ¬ (w.quoted = true ∧ spellsOperator w = true) := by
  have hw : w.isOperator = false := by simpa using List.all_eq_true.1 List.all_takeWhile w h
  rw [isOperator_eq] at hw
  cases hq : w.quoted <;> simp_all

/-- The words that are read back ask for the same command if the first operator is where it was, and
the command tells where that is. -/
theorem ofWords?_map_reread_iff (ws : List Word) :
    Command.ofWords? (ws.map fun w => reread w.text) = Command.ofWords? ws ↔
      ∀ w ∈ ws.takeWhile (!·.isOperator), spellsOperator w = false := by
  have hindex : (ws.map fun w => reread w.text).findIdx Word.isOperator =
      ws.findIdx spellsOperator := by
    rw [List.findIdx_map]
    exact congrArg ws.findIdx (funext isOperator_reread)
  rw [← findIdx_spellsOperator_iff, ← hindex]
  constructor
  · intro h
    rw [← Command.wordsBefore_ofWords?, h, List.length_map, Command.wordsBefore_ofWords?]
  · intro h
    rw [Command.ofWords?_eq_ofTexts?, Command.ofWords?_eq_ofTexts? ws, h, List.map_map]
    rfl

/-- Words that are not empty, written as a line and read again, ask for the same command exactly if
no quoted word that spells an operator stands before the first operator. -/
theorem command_of_line_iff (ws : List Word) (hne : ∀ w ∈ ws, w.text ≠ []) :
    ∃ again, Line.words (line (ws.map Word.text)) = .ok again ∧
      (Command.ofWords? again = Command.ofWords? ws ↔
        ∀ w ∈ ws.takeWhile (!·.isOperator), ¬ (w.quoted = true ∧ spellsOperator w = true)) := by
  refine ⟨ws.map fun w => reread w.text, ?_, ?_⟩
  · rw [words_of_line, List.map_map, List.filter_eq_self.2]
    · rfl
    · intro w hw
      obtain ⟨v, hv, rfl⟩ := List.mem_map.1 hw
      exact decide_eq_true (hne v hv)
  · rw [ofWords?_map_reread_iff]
    exact forall₂_congr fun w hw => spellsOperator_of_mem_takeWhile hw

/-- What was to be printed is where the output goes. -/
theorem command_of_line_ne :
    let ws : List Word :=
      [.bare "echo".toList, ⟨">".toList, true⟩, .bare "a b".toList, .bare ">".toList]
    (∀ w ∈ ws, w.text ≠ []) ∧ ∃ again, Line.words (line (ws.map Word.text)) = .ok again ∧
      Command.ofWords? again ≠ Command.ofWords? ws := by
  intro ws
  have hne : ∀ w ∈ ws, w.text ≠ [] := by decide
  obtain ⟨again, hagain, hiff⟩ := command_of_line_iff ws hne
  refine ⟨hne, again, hagain, fun hsame => ?_⟩
  exact hiff.1 hsame ⟨">".toList, true⟩ (by decide) (by decide)

end PocketShell.Requoting
