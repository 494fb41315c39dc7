import PocketShell.Fault
import PocketShell.Redirection
import PocketShell.Text.Literal
import PocketShell.Word

/-!
# Remarks

The diagnostics that the shell can write about its own work. Each comes from one part of the
shell, which its line names.
-/

namespace PocketShell

/-- A diagnostic. -/
inductive Remark where
  | words (ws : List Word)
  | noCommand (operator : Word)
  | noTarget (operator : Word) (ws : List Word)
  | resolved (name path : Text)
  | notFound (name : Text)
  | skipping (directory : Text) (reason : Errno)
  | directoryIs (path : Text)
  | redirected (kind : Redirection.Kind) (target : Text)
  | running (path : Text) (argv : List Text)
  deriving DecidableEq

namespace Remark

def source : Remark → Text
  | .words _ => "shell".toList
  | .noCommand _ => "parser".toList
  | .noTarget _ _ => "parser".toList
  | .resolved _ _ => "resolver".toList
  | .notFound _ => "resolver".toList
  | .skipping _ _ => "resolver".toList
  | .directoryIs _ => "shell_builtins".toList
  | .redirected _ _ => "runner".toList
  | .running _ _ => "runner".toList

def message : Remark → Text
  | .words ws => "tokens: ".toList ++ Text.displayedList (ws.map Word.text)
  | .noCommand operator =>
    "redirect operator ".toList ++ Text.displayed operator.text ++ " has no command".toList
  | .noTarget operator ws =>
    "redirect operator ".toList ++ Text.displayed operator.text ++ " has no target, running ".toList
      ++ Text.displayedList (ws.map Word.text) ++ " as is".toList
  | .resolved name path => "resolved ".toList ++ name ++ " -> ".toList ++ path
  | .notFound name => name ++ " not found on search path".toList
  | .skipping directory reason =>
    "skipping ".toList ++ directory ++ ": ".toList ++ reason.message
  | .directoryIs path => "cwd is now ".toList ++ path
  | .redirected kind target =>
    kind.stream.name ++ " redirected to ".toList ++ target ++ " (mode ".toList
      ++ kind.writing.letter ++ ")".toList
  | .running path argv => "running ".toList ++ path ++ " as ".toList ++ Text.displayedList argv

def line (r : Remark) : Text :=
  r.source ++ ": DEBUG: ".toList ++ r.message

end Remark

end PocketShell
