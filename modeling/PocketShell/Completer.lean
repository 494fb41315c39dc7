import PocketShell.SearchPath

/-!
# Completion

A completer holds command names in order. Asked for the first completion of a text it looks
all of them up, and then gives them one by one, by their number, each with a space behind it.
A negative number counts from the end.
-/

namespace PocketShell

/-- The names that can be completed, and the completions of the last text asked for. -/
structure Completer where
  names : List Text
  found : List Text
  deriving DecidableEq

namespace Completer

/-- A number that counts back past the first completion. -/
inductive OutOfRange where
  | beforeFirst
  deriving DecidableEq

def ofNames (names : List Text) : Completer :=
  ⟨SearchPath.sorted names, []⟩

def completions (c : Completer) (text : Text) : List Text :=
  c.names.filter fun name => text.isPrefixOf name

/-- The completer after its completions were looked up, if the number asks for that. -/
def refreshed (c : Completer) (text : Text) (number : Int) : Completer :=
  if number = 0 then { c with found := c.completions text } else c

def pick (found : List Text) (number : Int) : Except OutOfRange (Option Text) :=
  match number with
  | .ofNat n => .ok (found[n]?.map (· ++ [' ']))
  | .negSucc n =>
    if n < found.length then .ok (found[found.length - (n + 1)]?.map (· ++ [' ']))
    else .error .beforeFirst

def complete (c : Completer) (text : Text) (number : Int) :
    Except OutOfRange (Option Text) × Completer :=
  let next := c.refreshed text number
  (pick next.found number, next)

end Completer

end PocketShell
