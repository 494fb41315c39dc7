import PocketShell.Line

/-!
# Cuts, one character at a time

A text is read from its end: the cut of a text is that of the rest with what its first character
does in front of it, in the state that the character leaves. So whatever holds at the end of a text
and is kept by each character holds of every cut.
-/

namespace PocketShell

namespace Quoting

/-- What is open after the characters of a text. -/
def after (s : State) (text : Text) : State :=
  text.foldl (fun s c => (step s c).1) s

theorem after_append (s : State) (a b : Text) : after s (a ++ b) = after (after s a) b :=
  List.foldl_append

/-- The text that an effect adds to a word. -/
def Effect.text : Effect → Text
  | .adds text => text
  | .ends => []

end Quoting

namespace Line

open Quoting

variable {s : State} {t : Text}

/-- The cut with what one character does in front of it. -/
def Cut.behind (cut : Cut) : Effect → Bool → Cut
  | .adds text, quoting => cut.extend text quoting
  | .ends, _ => cut.behindSpace

theorem cutFrom_cons (s : State) (c : Char) (rest : Text) :
    cutFrom s (c :: rest) =
      (cutFrom (step s c).1 rest).map (·.behind (step s c).2 (isQuoting s (step s c).1)) := by
  rcases h : step s c with ⟨next, effect⟩
  cases effect <;> simp [cutFrom, h, Cut.behind]

/-- What holds at the end of a text and is kept by each character in front of it holds of every
cut. -/
theorem cutFrom_induction {P : State → Text → Cut → Prop}
    (nil : ∀ s : State, s.mark = none → P s [] .empty)
    (cons : ∀ s c rest cut, P (step s c).1 rest cut →
      P s (c :: rest) (cut.behind (step s c).2 (isQuoting s (step s c).1)))
    {cut : Cut} (h : cutFrom s t = .ok cut) : P s t cut := by
  induction t generalizing s cut with
  | nil =>
    cases hmark : s.mark with
    | none =>
      have hcut : Cut.empty = cut := by simpa [cutFrom, hmark] using h
      exact hcut ▸ nil s hmark
    | some mark => simp [cutFrom, hmark] at h
  | cons c rest ih =>
    rw [cutFrom_cons] at h
    cases hrest : cutFrom (step s c).1 rest with
    | error mark => simp [hrest, Except.map] at h
    | ok cut' =>
      rw [hrest] at h
      obtain rfl := Except.ok.inj h
      exact cons s c rest cut' (ih hrest)

namespace Cut

/-- The text of the words, the one in front included. -/
def text (cut : Cut) : Text :=
  cut.first.text ++ cut.later.flatMap Word.text

@[simp] theorem text_empty : empty.text = [] := rfl

/-- A word that is dropped has no text. -/
theorem flatMap_words (cut : Cut) : cut.words.flatMap Word.text = cut.text := by
  by_cases h : cut.first.text = [] <;> simp [words, text, h]

theorem text_behind (cut : Cut) (effect : Effect) (quoting : Bool) :
    (cut.behind effect quoting).text = effect.text ++ cut.text := by
  cases effect with
  | adds added => simp [behind, extend, text, Effect.text]
  | ends => simp [behind, behindSpace, text, Effect.text, Word.bare, flatMap_words]

end Cut

theorem exists_cut_of_words {line : Text} {ws : List Word} (h : words line = .ok ws) :
    ∃ cut, cutFrom .plain line = .ok cut ∧ cut.words = ws := by
  cases hcut : cutFrom .plain line with
  | error mark => simp [words, hcut, Except.map] at h
  | ok cut => exact ⟨cut, rfl, by simpa [words, hcut, Except.map] using h⟩

end Line

end PocketShell
