import PocketShell.Execution
import PocketShell.Line

/-!
# Evaluating lines

A line is cut into words and run, and its status is kept, unless running it breaks off. A line
that leaves a quotation open is not run.
-/

namespace PocketShell.Line

def statusUnclosed : Int := 2

/-- The status that a line comes to, which is not kept yet. -/
def status (line : Text) : Action Int :=
  match words line with
  | .error mark => do
    Action.complain (.unclosed mark)
    return statusUnclosed
  | .ok ws => do
    Action.note [.words ws]
    if ws = [] then return 0 else Execution.runWords ws

def evaluate (line : Text) : Action Int := do
  let status ← status line
  modify fun s => s.withStatus (some status)
  return status

end PocketShell.Line
