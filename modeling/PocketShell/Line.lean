import PocketShell.Quoting
import PocketShell.Word

/-!
# The words of a line

A line is cut into words at the spaces outside of quotes. A word without text is dropped,
whatever was written for it. A quotation that is still open at the end is an error; a
backslash at the end is not, and stands for nothing.

What follows a character never depends on the text read before it, only on what is open, so a
line is read from its end: each character adds to the word that the rest of the line begins
with.
-/

namespace PocketShell.Line

/-- The word that a text begins with, which may have no text, and the words behind it. -/
structure Cut where
  first : Word
  later : List Word
  deriving DecidableEq

namespace Cut

def empty : Cut := ⟨.bare [], []⟩

/-- The words that have text. -/
def words (cut : Cut) : List Word :=
  if cut.first.text = [] then cut.later else cut.first :: cut.later

/-- The cut with text in front of its first word, which becomes a quoted word if a quote or a
backslash was read for that text. -/
def extend (cut : Cut) (text : Text) (quoted : Bool) : Cut where
  first := ⟨text ++ cut.first.text, quoted || cut.first.quoted⟩
  later := cut.later

/-- The cut with the end of a word in front of it. -/
def behindSpace (cut : Cut) : Cut :=
  ⟨.bare [], cut.words⟩

end Cut

/-- A character quotes if it opens an escape, or opens or closes a quotation. -/
def isQuoting (s next : Quoting.State) : Bool :=
  next.escape || next.mark != s.mark

/-- The cut of a text that is read from a state, or the quotation that it leaves open. -/
def cutFrom (s : Quoting.State) : Text → Except QuoteMark Cut
  | [] =>
    match s.mark with
    | some mark => .error mark
    | none => .ok .empty
  | c :: rest =>
    match Quoting.step s c with
    | (next, .adds text) => (cutFrom next rest).map (·.extend text (isQuoting s next))
    | (next, .ends) => (cutFrom next rest).map Cut.behindSpace

/-- The words of a line, or the quotation that it leaves open. -/
def words (line : Text) : Except QuoteMark (List Word) :=
  (cutFrom .plain line).map Cut.words

/-- A space where nothing is open ends a word. -/
theorem cutFrom_plain_space (rest : Text) :
    cutFrom .plain (' ' :: rest) = (cutFrom .plain rest).map Cut.behindSpace := rfl

end PocketShell.Line
