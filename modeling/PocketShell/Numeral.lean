import PocketShell.Text.Blank
import PocketShell.Text.Digit

/-!
# Numerals

An integer is written with decimal digits of any scripts, mixed at will, with an optional
sign in front. One underscore may stand between two digits, and blanks may stand around the
whole. A numeral has at most 4300 digits, leading zeros counted; its value is unbounded.
-/

namespace PocketShell.Numeral

def maxDigits : Nat := 4300

/-- The values of a row of digits with single underscores between them. -/
def digits? : List Char → Option (List Nat)
  | [] => none
  | [c] => (Text.digitValue? c).map ([·])
  | c :: next :: rest =>
    match Text.digitValue? c with
    | none => none
    | some d =>
      if next = '_' then (digits? rest).map (d :: ·)
      else (digits? (next :: rest)).map (d :: ·)

/-- The number that a row of digits stands for, the most significant digit first. -/
def value (digits : List Nat) : Nat :=
  digits.foldl (fun n d => 10 * n + d) 0

/-- The natural number that an unsigned numeral stands for. -/
def natural? (t : List Char) : Option Nat :=
  match digits? t with
  | none => none
  | some digits => if digits.length ≤ maxDigits then some (value digits) else none

/-- The integer that a signed numeral stands for. -/
def signed? : List Char → Option Int
  | '-' :: rest => (natural? rest).map fun n => -(n : Int)
  | '+' :: rest => (natural? rest).map fun n => (n : Int)
  | t => (natural? t).map fun n => (n : Int)

/-- The integer that a text stands for, blanks around it left aside. -/
def toInt? (t : List Char) : Option Int :=
  signed? (Text.stripBlanks t)

end PocketShell.Numeral
