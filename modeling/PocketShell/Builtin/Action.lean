import PocketShell.Machine.Entering
import PocketShell.Numeral
import PocketShell.Path.Home
import PocketShell.SearchPath
import PocketShell.Session

/-!
# What builtins do

Each builtin takes its arguments and gives a status. `cd` and `type` look at their first
argument only, `pwd` at none. `exit` always leaves the shell.
-/

namespace PocketShell.Builtin

/-- Looks a name up on the search path, and remarks on the answer. -/
def lookUp (name : Text) : Action (Option Text) := do
  let s ← get
  let answer ← Action.uncaught
    (SearchPath.find s.machine (s.value Environment.pathName) name)
  Action.note (SearchPath.remarks name answer)
  return answer

def runEcho (args : List Text) : Action Int := do
  Action.printLine (Text.joined [' '] args)
  return 0

/-- Says what the first argument would run. -/
def runType : List Text → Action Int
  | [] => do
    Action.complain .noName
    return 1
  | name :: _ => do
    if (ofName? name).isSome then
      Action.printLine (name ++ " is a shell builtin".toList)
      return 0
    match ← lookUp name with
    | some path =>
      Action.printLine (name ++ " is ".toList ++ path)
      return 0
    | none =>
      Action.printLine (name ++ ": not found".toList)
      return 1

def runPwd : Action Int := do
  let s ← get
  match s.machine.getcwd with
  | .ok path =>
    Action.printLine path
    return 0
  | .error (.errno reason) =>
    Action.complain (.noWorkingDirectory reason)
    return 1
  | .error .nul => throw (.fault .nul)

/-- Goes to the directory that the first argument names. -/
def runCd : List Text → Action Int
  | [] => do
    Action.complain .noDirectory
    return 1
  | target :: _ => do
    let s ← get
    match s.machine.destination (Path.withHome (s.value Environment.homeName) target) with
    | .error .nul => throw (.fault .nul)
    | .error (.errno reason) =>
      Action.complain (.cannotEnter target reason)
      return 1
    | .ok path =>
      match s.machine.enter path with
      | .error reason =>
        Action.complain (.cannotEnter target reason)
        return 1
      | .ok machine =>
        modify fun s => { s with machine := machine }
        Action.note [.directoryIs path]
        return 0

/-- The status that the first argument asks for: success without one, nothing if it is no
number. -/
def exitStatus? : List Text → Option Int
  | [] => some 0
  | arg :: _ => Numeral.toInt? arg

/-- Leaves the shell. -/
def runExit (args : List Text) : Action Int := do
  match exitStatus? args with
  | some status => throw (.exit status)
  | none =>
    Action.complain .notNumeric
    throw (.exit 2)

def run (b : Builtin) (args : List Text) : Action Int :=
  match b with
  | .echo => runEcho args
  | .type => runType args
  | .pwd => runPwd
  | .cd => runCd args
  | .exit => runExit args

end PocketShell.Builtin
