import PocketShell.Text

/-!
# Writing words

The text of a word, written so that reading a line gives it back. A word without a special
character is written as it is; one without a single quote, between single quotes; any other,
between double quotes with a backslash before each backslash and each double quote.
-/

namespace PocketShell.Quotation

/-- The characters that cannot stand bare in a word. -/
def special : List Char := [' ', '\'', '"', '\\']

/-- A character of a word that is written between double quotes. -/
def escaped (c : Char) : Text :=
  if c = '\\' ∨ c = '"' then ['\\', c] else [c]

/-- A word's text as it is written in a line. -/
def written (t : Text) : Text :=
  if t = [] then ['\'', '\'']
  else if t.all (· ∉ special) then t
  else if '\'' ∉ t then '\'' :: t ++ ['\'']
  else '"' :: t.flatMap escaped ++ ['"']

/-- The line that is written for a list of words. -/
def line (ts : List Text) : Text :=
  Text.joined [' '] (ts.map written)

end PocketShell.Quotation
