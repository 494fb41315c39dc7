import PocketShell.Arguments
import PocketShell.Completer
import PocketShell.ReadLoop

/-!
# Launching the shell

The arguments decide whether the shell runs one line or the read loop, or only says how it is
used. The read loop offers completion of command names if it reads from a terminal whose line
editor is there, unless that is turned off.
-/

namespace PocketShell.Launch

/-- What is said first about how the shell is used. -/
def usage : Text :=
  "usage: minish [-h] [-c COMMAND] [--debug] [--no-completion]\n".toList

def help : Text :=
  usage
    ++ "\nA small interactive command interpreter\n\noptions:\n".toList
    ++ "  -h, --help       show this help message and exit\n".toList
    ++ "  -c COMMAND       run a single command line and exit with its status\n".toList
    ++ "  --debug          log diagnostics to stderr\n".toList
    ++ "  --no-completion  do not set up tab completion\n".toList

def misuse (e : Arguments.UsageError) : Text :=
  usage ++ "minish: error: ".toList ++ e.message ++ ['\n']

/-- What the shell reads from. -/
structure Terminal where
  isTerminal : Bool
  hasLineEditor : Bool
  deriving DecidableEq

/-- What the line editor is asked for. -/
inductive EditorCall where
  | setCompleter (names : List Text)
  | parseAndBind (line : Text)
  deriving DecidableEq

/-- How the shell ends. -/
inductive Ending where
  /-- With a status. -/
  | returns (status : Int)
  /-- After saying how it is used. -/
  | helped
  /-- After saying what is wrong with its arguments. -/
  | misused
  /-- Broken off. -/
  | aborts (reason : Abort)
  deriving DecidableEq

/-- A whole run: the sessions at its beginning, at each read and at its end, how it ends, what
the line editor was asked for, how much input is left unread, and whether remarks are shown. -/
structure Outcome where
  stages : List Session
  ending : Ending
  editor : List EditorCall
  unread : Nat
  showRemarks : Bool

/-- Sets up completion, and remarks on the directories that it leaves out. -/
def setUpCompletion : Action (List EditorCall) := do
  let s ← get
  let path := s.value Environment.pathName
  Action.note (SearchPath.skipped s.machine (SearchPath.directories path))
  let names ← Action.uncaught (SearchPath.names s.machine path)
  return [.setCompleter (Completer.ofNames names).names, .parseAndBind "tab: complete".toList]

/-- Completion is wanted and can be set up. -/
def wantsCompletion (terminal : Terminal) (o : Options) : Bool :=
  !o.noCompletion && terminal.hasLineEditor && terminal.isTerminal

def oneLine (line : Text) (s : Session) : Ending × Session :=
  match (Line.evaluate line).perform s with
  | (.ok status, s) => (.returns status, s)
  | (.error (.exit status), s) => (.returns status, s)
  | (.error reason, s) => (.aborts reason, s)

def endingOf : Except Fault Int → Ending
  | .ok status => .returns status
  | .error reason => .aborts (.fault reason)

def interactive (terminal : Terminal) (o : Options) (s : Session) (reads : List ReadLoop.Read) :
    Outcome :=
  let editor := if wantsCompletion terminal o then setUpCompletion else pure []
  match editor.perform s with
  | (.ok calls, ready) =>
    let course := ReadLoop.run ready reads
    ⟨s :: course.stages, endingOf course.ending, calls, course.unread, o.debug⟩
  | (.error reason, stopped) => ⟨[s, stopped], .aborts reason, [], reads.length, o.debug⟩

def withOptions (terminal : Terminal) (o : Options) (s : Session) (reads : List ReadLoop.Read) :
    Outcome :=
  match o.command with
  | some line =>
    let (ending, after) := oneLine line s
    ⟨[s, after], ending, [], reads.length, o.debug⟩
  | none => interactive terminal o s reads

def run (terminal : Terminal) (args : List Text) (s : Session) (reads : List ReadLoop.Read) :
    Outcome :=
  match Arguments.read args with
  | .help => ⟨[s, s.print help], .helped, [], reads.length, false⟩
  | .invalid e => ⟨[s, s.record (.err (misuse e))], .misused, [], reads.length, false⟩
  | .options o => withOptions terminal o s reads

end PocketShell.Launch
