import PocketShell.Text
import PocketShell.Text.Printable

/-!
# Displayed text

Diagnostics show a text between quotes, so that its ends and its invisible characters can
be seen. The single quote is used, unless the text has one and has no double quote. The
quote in use, the backslash and everything unprintable are written with a backslash.
-/

namespace PocketShell.Text

/-- The hexadecimal digits of a number, filled up with zeros on the left. -/
def hexadecimal (width n : Nat) : Text :=
  (Nat.toDigits 16 n).leftpad width '0'

/-- A code point that cannot be shown, by its number, in the shortest of three widths. -/
def codeEscape (n : Nat) : Text :=
  if n < 0x100 then '\\' :: 'x' :: hexadecimal 2 n
  else if n < 0x10000 then '\\' :: 'u' :: hexadecimal 4 n
  else '\\' :: 'U' :: hexadecimal 8 n

/-- One character of a displayed text. -/
def displayedChar (quote c : Char) : Text :=
  if c = quote ∨ c = '\\' then ['\\', c]
  else if c = '\t' then ['\\', 't']
  else if c = '\n' then ['\\', 'n']
  else if c = '\r' then ['\\', 'r']
  else if isPrintable c then [c]
  else codeEscape c.toNat

def displayQuote (t : Text) : Char :=
  if '\'' ∈ t ∧ '"' ∉ t then '"' else '\''

def displayed (t : Text) : Text :=
  let quote := displayQuote t
  quote :: t.flatMap (displayedChar quote) ++ [quote]

def displayedList (ts : List Text) : Text :=
  '[' :: joined [',', ' '] (ts.map displayed) ++ [']']

end PocketShell.Text
