import PocketShell.Proofs.Grammar
import PocketShell.Quotation

/-!
# The characters that words keep

What a line's words are made of stands in the line, in the same order, and only spaces, quotes and
backslashes of the line can be missing from them. A backslash that waits is kept or dropped with the
character behind it, so that it is counted to what is still to be read.
-/

namespace PocketShell

namespace Quoting

open Quotation

/-- A text is what is left of another one without some of its special characters. -/
structure LeftOf (kept source : Text) : Prop where
  sublist : kept.Sublist source
  filter_eq : kept.filter (· ∉ special) = source.filter (· ∉ special)

namespace LeftOf

variable {kept source a b : Text} {c : Char}

theorem refl (text : Text) : LeftOf text text :=
  ⟨.refl text, rfl⟩

theorem nil_of_special (h : c ∈ special) : LeftOf [] [c] :=
  ⟨List.nil_sublist _, by simp [h]⟩

theorem append (h : LeftOf kept source) (h' : LeftOf a b) : LeftOf (kept ++ a) (source ++ b) where
  sublist := h.sublist.append h'.sublist
  filter_eq := by rw [List.filter_append, List.filter_append, h.filter_eq, h'.filter_eq]

theorem trans (h : LeftOf a b) (h' : LeftOf b source) : LeftOf a source :=
  ⟨h.sublist.trans h'.sublist, h.filter_eq.trans h'.filter_eq⟩

end LeftOf

/-- The backslash that waits for the character behind it. -/
def State.waiting (s : State) : Text :=
  if s.escape then ['\\'] else []

/-- A character that no backslash waits for is added, or it is the backslash that waits next, or it
is dropped, and then it is a special one. -/
theorem added_or_special (mark : Option QuoteMark) (c : Char) :
    (step ⟨mark, false⟩ c).2.text ++ (step ⟨mark, false⟩ c).1.waiting = [c] ∨
      c ∈ special ∧ (step ⟨mark, false⟩ c).2.text ++ (step ⟨mark, false⟩ c).1.waiting = [] := by
  rcases mark with _ | _ | _ <;> simp only [step] <;> (repeat' split) <;>
    simp_all [Effect.text, State.waiting, State.inside, State.plain, special]

/-- One character: what it adds, and the backslash that waits behind it, are left of it and of the
backslash that has waited for it. -/
theorem leftOf_step (s : State) (c : Char) :
    LeftOf ((step s c).2.text ++ (step s c).1.waiting) (s.waiting ++ [c]) := by
  obtain ⟨mark, escape⟩ := s
  cases escape with
  | true =>
    simp only [step, Effect.text, State.waiting, escapedText, if_true, Bool.false_eq_true, if_false,
      List.append_nil, List.singleton_append]
    split
    · exact .refl _
    · exact (LeftOf.nil_of_special (by decide)).append (.refl [c])
  | false =>
    have hwaiting : State.waiting ⟨mark, false⟩ = [] := rfl
    rw [hwaiting, List.nil_append]
    rcases added_or_special mark c with hadded | ⟨hspecial, hdropped⟩
    · rw [hadded]
      exact .refl [c]
    · rw [hdropped]
      exact .nil_of_special hspecial

end Quoting

namespace Line

open Quoting Quotation

variable {s : State} {line text : Text} {cut : Cut} {ws : List Word} {w : Word}

theorem leftOf_cutFrom (h : cutFrom s text = .ok cut) : LeftOf cut.text (s.waiting ++ text) := by
  refine cutFrom_induction (P := fun s text cut => LeftOf cut.text (s.waiting ++ text))
    ?nil ?cons h
  case nil =>
    intro s _
    cases hescape : s.escape with
    | false => simpa [State.waiting, hescape] using LeftOf.refl []
    | true => simpa [State.waiting, hescape] using LeftOf.nil_of_special (by decide)
  case cons =>
    intro s c rest cut ih
    have hrest : LeftOf ((step s c).2.text ++ cut.text)
        ((step s c).2.text ++ ((step s c).1.waiting ++ rest)) := (LeftOf.refl _).append ih
    have hstep : LeftOf (((step s c).2.text ++ (step s c).1.waiting) ++ rest)
        ((s.waiting ++ [c]) ++ rest) := (leftOf_step s c).append (.refl rest)
    rw [← List.append_assoc] at hrest
    rw [List.append_assoc s.waiting, List.singleton_append] at hstep
    rw [Cut.text_behind]
    exact hrest.trans hstep

theorem leftOf_words (h : words line = .ok ws) : LeftOf (ws.flatMap Word.text) line := by
  obtain ⟨cut, hcut, rfl⟩ := exists_cut_of_words h
  rw [Cut.flatMap_words]
  exact leftOf_cutFrom hcut

theorem text_ne_nil_of_mem_words (h : words line = .ok ws) (hw : w ∈ ws) : w.text ≠ [] := by
  obtain ⟨g, rfl⟩ := Grammar.exists_layout h
  rw [Grammar.words_written] at h
  obtain rfl := Except.ok.inj h
  simpa using (List.mem_filter.1 hw).2

/-- Every word of a line has text. Behind one another the words are a part of the line, with its
characters in their order; and of the characters that are neither spaces nor quotes nor backslashes
each one is there as often as in the line. -/
theorem characters_of_words (h : words line = .ok ws) :
    (∀ w ∈ ws, w.text ≠ []) ∧ (ws.flatMap Word.text).Sublist line ∧
      (ws.flatMap Word.text).filter (· ∉ [' ', '\'', '"', '\\']) =
        line.filter (· ∉ [' ', '\'', '"', '\\']) := by
  have hleft := leftOf_words h
  refine ⟨?_, hleft.sublist, hleft.filter_eq⟩
  intro w hw
  exact text_ne_nil_of_mem_words h hw

/-- Between double quotes a backslash is kept before one letter and dropped before a dollar sign; an
empty quotation and the backslash at the end leave nothing. -/
theorem characters_of_words_escaped :
    let line := "'' \"a\\b\\$c' \"d \\ \\".toList
    let ws : List Word := [⟨"a\\b$c' d".toList, true⟩, ⟨" ".toList, true⟩]
    words line = .ok ws ∧ (∀ w ∈ ws, w.text ≠ []) ∧ (ws.flatMap Word.text).Sublist line ∧
      (ws.flatMap Word.text).filter (· ∉ [' ', '\'', '"', '\\']) = "ab$cd".toList := by
  intro line ws
  have hwords : words line = .ok ws := rfl
  obtain ⟨hne, hsublist, hkept⟩ := characters_of_words hwords
  exact ⟨hwords, hne, hsublist, hkept⟩

end Line

end PocketShell
