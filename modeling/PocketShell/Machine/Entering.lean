import PocketShell.Machine.Canonical

/-!
# Entering a directory

A path is entered in its canonical form, so that the path of the working directory never
holds a link. A relative path needs a working directory that still has a path.
-/

namespace PocketShell.Machine

def destination (m : Machine) (path : Text) : Except Fault Text :=
  if Path.isAbsolute path then m.canonical path
  else match m.getcwd with
    | .error fault => .error fault
    | .ok cwd => m.canonical (Path.join cwd path)

/-- Enters the directory of a canonical path. A path that cannot be walked counts as one that
is missing. -/
def enter (m : Machine) (path : Text) : Except Errno Machine :=
  match m.stat path with
  | .error _ => .error .noEntry
  | .ok (.directory _) =>
    match m.chdir path with
    | .ok entered => .ok entered
    | .error (.errno reason) => .error reason
    | .error .nul => .error .noEntry
  | .ok _ => .error .notDirectory

end PocketShell.Machine
