import PocketShell.Text

/-!
# Quoting

How quotes and backslashes are read, one character at a time. Between single quotes every
character stands for itself. Elsewhere a backslash takes the character after it as it is;
between double quotes it does so before a backslash, a dollar sign, a double quote or a line
end only, and stands for itself before any other character. A space outside of quotes ends
the word.
-/

namespace PocketShell

/-- The two marks that open and close a quotation. -/
inductive QuoteMark where
  | single
  | double
  deriving DecidableEq

namespace QuoteMark

def char : QuoteMark → Char
  | .single => '\''
  | .double => '"'

def name : QuoteMark → Text
  | .single => "single".toList
  | .double => "double".toList

def unclosed (mark : QuoteMark) : Text :=
  "Unclosed ".toList ++ mark.name ++ " quote".toList

end QuoteMark

namespace Quoting

/-- What is open between two characters: a quotation, and a backslash that waits for the next
character. -/
structure State where
  mark : Option QuoteMark
  escape : Bool
  deriving DecidableEq

namespace State

def plain : State := ⟨none, false⟩

def inside (mark : QuoteMark) : State := ⟨some mark, false⟩

end State

/-- What a character does to the word in which it stands. -/
inductive Effect where
  | adds (text : Text)
  | ends
  deriving DecidableEq

/-- The characters that a backslash escapes between double quotes. -/
def escapable : List Char := ['\\', '$', '"', '\n']

/-- The text of a character that a backslash stands before. -/
def escapedText (mark : Option QuoteMark) (c : Char) : Text :=
  if mark = some .double ∧ c ∉ escapable then ['\\', c] else [c]

/-- Reads one character: what is open after it, and what it does. -/
def step : State → Char → State × Effect
  | ⟨mark, true⟩, c => (⟨mark, false⟩, .adds (escapedText mark c))
  | ⟨none, false⟩, c =>
    if c = '\\' then (⟨none, true⟩, .adds [])
    else if c = '\'' then (.inside .single, .adds [])
    else if c = '"' then (.inside .double, .adds [])
    else if c = ' ' then (.plain, .ends)
    else (.plain, .adds [c])
  | ⟨some .single, false⟩, c =>
    if c = '\'' then (.plain, .adds []) else (.inside .single, .adds [c])
  | ⟨some .double, false⟩, c =>
    if c = '\\' then (⟨some .double, true⟩, .adds [])
    else if c = '"' then (.plain, .adds [])
    else (.inside .double, .adds [c])

/-- What the characters of a text do one after the other, from a state. -/
def stepsFrom (s : State) : Text → List (State × Effect)
  | [] => []
  | c :: rest => step s c :: stepsFrom (step s c).1 rest

def steps (line : Text) : List (State × Effect) :=
  stepsFrom .plain line

end Quoting

end PocketShell
