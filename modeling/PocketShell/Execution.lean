import PocketShell.Builtin.Action
import PocketShell.Clause

/-!
# Running commands

A command that is not external and has the name of a builtin is carried out by the builtin.
Any other is looked up on the search path, its target is opened, and its program is started,
in that order: a command that is not found opens no target, and one whose target cannot be
opened starts nothing.
-/

namespace PocketShell.Execution

def statusNotFound : Int := 127

def statusCannotStart : Int := 126

/-- An opened target: the kind of its redirection and the location of its file. -/
abbrev Target := Redirection.Kind × Location

/-- The session after a program's text on one stream, which goes to the target if that stream
is redirected. -/
def deliver (target : Option Target) (stream : Stream) (text : Text) (s : Session) : Session :=
  match target with
  | some (kind, l) =>
    if kind.stream = stream then { s with machine := s.machine.append l text }
    else s.record (match stream with | .stdout => .out text | .stderr => .err text)
  | none => s.record (match stream with | .stdout => .out text | .stderr => .err text)

def deliverBoth (target : Option Target) (out err : Text) (s : Session) : Session :=
  deliver target .stderr err (deliver target .stdout out s)

/-- Goes through what comes of a program. -/
def await (name : Text) (target : Option Target) : Deed → Action Int
  | .refuses reason => do
    Action.complain (.cannotStart name reason)
    return statusCannotStart
  | .interrupted out err => do
    modify (deliverBoth target out err)
    throw .interrupted
  | .completes out err code => do
    modify (deliverBoth target out err)
    return code

/-- Starts the program of a path, and waits for its end. A path that leads to nothing that can be
started starts nothing. -/
def launch (c : Command) (path : Text) (target : Option Target) : Action Int := do
  Action.note [.running path c.argv]
  if c.argv.any ('\x00' ∈ ·) then
    throw (.fault .nul)
  let s ← get
  match s.machine.program path with
  | .error .nul => throw (.fault .nul)
  | .error (.errno reason) =>
    Action.complain (.cannotStart c.name (.errno reason))
    return statusCannotStart
  | .ok program =>
    modify fun s => s.record (.spawn ⟨path, c.argv, target.map Prod.fst⟩)
    await c.name target (program c.argv s.started)

/-- Runs a command as a program. -/
def runProgram (c : Command) : Action Int := do
  match ← Builtin.lookUp c.name with
  | none =>
    Action.complain (.commandNotFound c.name)
    return statusNotFound
  | some path =>
    match c.redirection with
    | none => launch c path none
    | some r =>
      let s ← get
      match s.machine.openFile r.target r.kind.writing with
      | .error .nul => throw (.fault .nul)
      | .error (.errno reason) =>
        Action.complain (.cannotOpen c.name r.target reason)
        return 1
      | .ok (machine, l) =>
        modify fun s => { s with machine := machine }
        Action.note [.redirected r.kind r.target]
        launch c path (some (r.kind, l))

/-- The builtin that carries out a command, if one does. -/
def builtin? (c : Command) : Option Builtin :=
  if c.external then none else Builtin.ofName? c.name

def runCommand (c : Command) : Action Int :=
  match builtin? c with
  | some b => b.run c.args
  | none => runProgram c

/-- What is remarked of the shape of a line. -/
def remarks (ws : List Word) : Clause → List Remark
  | .headless operator _ => [.noCommand operator]
  | .dangling _ _ operator => [.noTarget operator ws]
  | _ => []

/-- Runs the words of a line. A line that asks for no command is a success. -/
def runWords (ws : List Word) : Action Int := do
  let clause := Clause.ofWords ws
  Action.note (remarks ws clause)
  match clause.command? with
  | some c => runCommand c
  | none => return 0

end PocketShell.Execution
