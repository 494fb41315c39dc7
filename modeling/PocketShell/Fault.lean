import PocketShell.Text

/-!
# Faults

Why a call to the machine is refused: for one of the system's reasons, or because a text
handed to it holds the character U+0000, which no name can hold.
-/

namespace PocketShell

/-- The system's reasons for refusing a call. -/
inductive Errno where
  | noEntry
  | notDirectory
  | accessDenied
  | isDirectory
  | linkLoop
  | notExecutable
  | argumentsTooLong
  deriving DecidableEq

namespace Errno

def message : Errno → Text
  | .noEntry => "No such file or directory".toList
  | .notDirectory => "Not a directory".toList
  | .accessDenied => "Permission denied".toList
  | .isDirectory => "Is a directory".toList
  | .linkLoop => "Too many levels of symbolic links".toList
  | .notExecutable => "Exec format error".toList
  | .argumentsTooLong => "Argument list too long".toList

def symbol : Errno → Text
  | .noEntry => "ENOENT".toList
  | .notDirectory => "ENOTDIR".toList
  | .accessDenied => "EACCES".toList
  | .isDirectory => "EISDIR".toList
  | .linkLoop => "ELOOP".toList
  | .notExecutable => "ENOEXEC".toList
  | .argumentsTooLong => "E2BIG".toList

def ofSymbol? (t : Text) : Option Errno :=
  [noEntry, notDirectory, accessDenied, isDirectory, linkLoop, notExecutable,
    argumentsTooLong].find? (·.symbol = t)

end Errno

/-- Why a call is refused. -/
inductive Fault where
  /-- The system gives a reason. -/
  | errno (reason : Errno)
  /-- A text holds U+0000. -/
  | nul
  deriving DecidableEq

end PocketShell
