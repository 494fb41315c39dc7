import PocketShell.Text

/-!
# The environment

Variables and their values. A variable that is not set has the empty value.
-/

namespace PocketShell

/-- The variables that are set. -/
structure Environment where
  bindings : List (Text × Text)
  deriving DecidableEq

namespace Environment

def value (e : Environment) (name : Text) : Text :=
  (e.bindings.lookup name).getD []

def set (e : Environment) (name : Text) (v : Option Text) : Environment :=
  let others := e.bindings.filter fun b => b.1 ≠ name
  match v with
  | none => ⟨others⟩
  | some text => ⟨(name, text) :: others⟩

def pathName : Text := "PATH".toList

def homeName : Text := "HOME".toList

end Environment

end PocketShell
