import PocketShell.Text

/-!
# Builtin commands

The commands that the shell carries out itself.
-/

namespace PocketShell

/-- A command that the shell carries out itself. -/
inductive Builtin where
  | echo
  | type
  | pwd
  | cd
  | exit
  deriving DecidableEq

namespace Builtin

def name : Builtin → Text
  | .echo => "echo".toList
  | .type => "type".toList
  | .pwd => "pwd".toList
  | .cd => "cd".toList
  | .exit => "exit".toList

def all : List Builtin := [echo, type, pwd, cd, exit]

def ofName? (t : Text) : Option Builtin :=
  all.find? (·.name = t)

theorem mem_all (b : Builtin) : b ∈ all := by
  cases b <;> decide

theorem ofName?_name (b : Builtin) : ofName? b.name = some b := by
  cases b <;> decide

theorem ofName?_eq_some_iff {t : Text} {b : Builtin} : ofName? t = some b ↔ t = b.name := by
  constructor
  · intro h
    simpa [eq_comm] using List.find?_some h
  · rintro rfl
    exact ofName?_name b

end Builtin

end PocketShell
