import PocketShell.Launch
import PocketShell.Snapshot

/-!
# The program

The shell on a machine of its own, which begins with an empty tree and no variables. Lines are
read from the standard input; what the session shows goes to the standard streams.
-/

namespace PocketShell.Main

/-- Writes what has happened between two moments to the standard streams. -/
def emit (showRemarks : Bool) (before after : Session) : IO Unit := do
  let s := Snapshot.between showRemarks before after
  let out ← IO.getStdout
  let err ← IO.getStderr
  out.putStr (String.ofList s.out)
  out.flush
  err.putStr (String.ofList s.err)
  err.flush

/-- The status that the operating system is told. -/
def exitCode (status : Int) : UInt32 :=
  UInt32.ofNat (status.emod 256).toNat

/-- Reads and answers lines until the loop is over. -/
partial def loop (showRemarks : Bool) (s : Session) : IO UInt32 := do
  let prompted := ReadLoop.prompted s
  emit showRemarks s prompted
  let line ← (← IO.getStdin).getLine
  if line.isEmpty then
    emit showRemarks prompted (ReadLoop.newline prompted)
    return exitCode prompted.status
  let text := if line.endsWith "\n" then line.toList.dropLast else line.toList
  match ReadLoop.respond prompted (.line text) with
  | .waits next | .proceeds next =>
    emit showRemarks prompted next
    loop showRemarks next
  | .ends last ending =>
    emit showRemarks prompted last
    return match ending with
      | .ok status => exitCode status
      | .error _ => 1

def start (args : List Text) : IO UInt32 := do
  let s := Session.start (Machine.ofEntries [] []) ⟨[]⟩
  match Arguments.read args with
  | .options ⟨none, debug, _⟩ => loop debug s
  | _ =>
    let o := Launch.run ⟨false, false⟩ args s []
    emit o.showRemarks s (o.stages.getLastD s)
    return match o.ending with
      | .returns status => exitCode status
      | .helped => 0
      | .misused => 2
      | .aborts _ => 1

end PocketShell.Main

def main (args : List String) : IO UInt32 :=
  PocketShell.Main.start (args.map String.toList)
