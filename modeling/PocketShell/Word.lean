import PocketShell.Text

/-!
# Words

A line is read as a list of words. A word remembers whether a quote or a backslash had a
part in writing it, since an operator that was quoted is no operator.
-/

namespace PocketShell

/-- A word of a line. -/
structure Word where
  text : Text
  quoted : Bool
  deriving DecidableEq

namespace Word

def bare (text : Text) : Word := ⟨text, false⟩

/-- The texts that are operators where they stand alone as a word. -/
def operatorTexts : List Text :=
  [">", "1>", ">>", "1>>", "2>", "2>>"].map String.toList

/-- A word that is an operator. A quoted word never is. -/
def isOperator (w : Word) : Bool :=
  !w.quoted && operatorTexts.contains w.text

end Word

end PocketShell
