import PocketShell.Session

/-!
# Changes of the world

Between two reads the world may change without the shell: files and variables come and go.
-/

namespace PocketShell

/-- A change of the world that the shell does not make. -/
inductive Change where
  | put (l : Location) (e : Entry)
  | remove (l : Location)
  | setVariable (name : Text) (value : Option Text)

def Session.change (s : Session) : Change → Session
  | .put l e => { s with machine := s.machine.put l e }
  | .remove l => { s with machine := s.machine.remove l }
  | .setVariable name value => { s with environment := s.environment.set name value }

end PocketShell
