import PocketShell.Session

/-!
# Snapshots

What has happened between two moments of a session: the text on its streams, the files that
are new or have changed, the programs that were started and the remarks; and where the shell
is at the second moment.
-/

namespace PocketShell

/-- What has happened between two moments of a session. -/
structure Snapshot where
  out : Text
  err : Text
  cwd : Option Text
  files : List (Text × Text)
  spawns : List Spawn
  remarks : List Remark
  deriving DecidableEq

namespace Snapshot

def between (showRemarks : Bool) (before after : Session) : Snapshot :=
  let news := after.transcript.drop before.transcript.length
  { out := Transcript.out news
    err := Transcript.err showRemarks news
    cwd := after.machine.getcwd.toOption
    files := (after.machine.tree.changesSince before.machine.tree).map fun f =>
      (Path.ofLocation f.1, f.2)
    spawns := Transcript.spawns news
    remarks := Transcript.remarks news }

/-- What has happened between each two neighbours of a row of moments. -/
def series (showRemarks : Bool) : List Session → List Snapshot
  | before :: after :: later =>
    between showRemarks before after :: series showRemarks (after :: later)
  | _ => []

end Snapshot

end PocketShell
