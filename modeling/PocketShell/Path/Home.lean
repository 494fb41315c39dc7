import PocketShell.Text

/-!
# The home directory in paths

A tilde at the front of a path, alone or before a slash, stands for the home directory. It
stands for itself when there is no home directory.
-/

namespace PocketShell.Path

/-- A path with a tilde at its front replaced by the home directory. -/
def withHome (home path : Text) : Text :=
  if home = [] then path
  else match path with
    | ['~'] => home
    | '~' :: '/' :: rest => home ++ '/' :: rest
    | _ => path

end PocketShell.Path
