import PocketShell.Fault
import PocketShell.Path

/-!
# Entries

What a name in a directory stands for: a directory, a file with its text and with what it does
when it is run, or a symbolic link to a target.
-/

namespace PocketShell

/-- What may be done with a file or a directory. -/
structure Permissions where
  read : Bool
  write : Bool
  execute : Bool
  deriving DecidableEq

namespace Permissions

def all : Permissions := ⟨true, true, true⟩

/-- What is allowed on a file that a redirection makes. -/
def newFile : Permissions := ⟨true, true, false⟩

end Permissions

/-- Why a program cannot be started. -/
inductive Refusal where
  | errno (reason : Errno)
  | other (reason : Text)
  deriving DecidableEq

namespace Refusal

def message : Refusal → Text
  | .errno reason => reason.message
  | .other reason => reason

end Refusal

/-- What comes of running a program once. -/
inductive Deed where
  /-- It writes to its two streams and ends with a code. -/
  | completes (out err : Text) (code : Int)
  /-- It writes to its two streams, then an interrupt arrives. -/
  | interrupted (out err : Text)
  /-- It does not start. -/
  | refuses (reason : Refusal)
  deriving DecidableEq

/-- What a file does when it is run, for the arguments that it is given, its name first, and for
how many programs were started before it. So a program may do another thing each time. -/
abbrev Program := List Text → Nat → Deed

namespace Program

/-- The program that does the same each time. -/
def always (deed : Deed) : Program := fun _ _ => deed

def idle : Program := always (.completes [] [] 0)

end Program

/-- Where a link leads: a path, which holds no U+0000. A slash at its end asks for a directory, as
it does in any path, but a system may overlook it there. -/
structure LinkTarget where
  text : Text
  no_nul : '\x00' ∉ text := by decide
  asksDirectory : Bool := Path.endsInSlash text

namespace LinkTarget

/-- All that is walked of a target. -/
def way (target : LinkTarget) : List Component :=
  Path.components target.text ++ if target.asksDirectory then [.nothing] else []

end LinkTarget

/-- What a name stands for. -/
inductive Entry where
  | directory (permissions : Permissions)
  | file (permissions : Permissions) (text : Text) (program : Program)
  | link (target : LinkTarget)

end PocketShell
