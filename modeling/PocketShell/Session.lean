import PocketShell.Complaint
import PocketShell.Environment
import PocketShell.Machine
import PocketShell.Transcript

/-!
# Sessions

A session is the shell's whole state: the machine, the environment, the status of the last
line and the transcript. An action changes it and gives a value or breaks off: because the
shell is to be left, because of an interrupt, or because of a fault that nothing catches. The
changes made before breaking off stay.
-/

namespace PocketShell

/-- The state of the shell. -/
structure Session where
  machine : Machine
  environment : Environment
  status : Int
  transcript : Transcript

/-- Why an action breaks off. -/
inductive Abort where
  /-- The shell is to be left with a status. -/
  | exit (status : Int)
  /-- An interrupt has arrived. -/
  | interrupted
  /-- A call was refused and nothing answers for it. -/
  | fault (reason : Fault)
  deriving DecidableEq

/-- A change of the session that gives a value or breaks off. -/
abbrev Action := ExceptT Abort (StateM Session)

namespace Session

/-- A session in which nothing has happened. -/
def start (machine : Machine) (environment : Environment) : Session :=
  ⟨machine, environment, 0, []⟩

def record (s : Session) (e : Event) : Session :=
  { s with transcript := s.transcript ++ [e] }

def note (s : Session) (remarks : List Remark) : Session :=
  { s with transcript := s.transcript ++ remarks.map .remark }

def print (s : Session) (text : Text) : Session :=
  s.record (.out text)

def complain (s : Session) (c : Complaint) : Session :=
  s.record (.err (c.message ++ ['\n']))

def value (s : Session) (name : Text) : Text :=
  s.environment.value name

/-- How many programs the shell has tried to start. -/
def started (s : Session) : Nat :=
  s.transcript.spawns.length

def withStatus (s : Session) (status : Option Int) : Session :=
  { s with status := status.getD 0 }

end Session

namespace Action

/-- Runs an action: its value or why it broke off, and the session it leaves. -/
def perform {α : Type} (a : Action α) (s : Session) : Except Abort α × Session :=
  a.run.run s

@[simp] theorem perform_pure {α : Type} (a : α) (s : Session) :
    perform (pure a) s = (.ok a, s) := rfl

@[simp] theorem perform_get (s : Session) : perform get s = (.ok s, s) := rfl

/-- The second action takes over from the first, unless that breaks off. -/
theorem perform_bind {α β : Type} (a : Action α) (f : α → Action β) (s : Session) :
    perform (a >>= f) s =
      match perform a s with
      | (.ok value, after) => perform (f value) after
      | (.error reason, after) => (.error reason, after) := by
  unfold perform ExceptT.run StateT.run
  simp only [bind, ExceptT.bind, ExceptT.mk, ExceptT.bindCont, StateT.bind]
  cases a s with
  | mk result after => cases result <;> rfl

def printLine (text : Text) : Action Unit :=
  modify fun s => s.print (text ++ ['\n'])

def complain (c : Complaint) : Action Unit :=
  modify fun s => s.complain c

def note (remarks : List Remark) : Action Unit :=
  modify fun s => s.note remarks

/-- The value of a call that nothing answers for. -/
def uncaught {α : Type} (answer : Except Fault α) : Action α :=
  match answer with
  | .ok a => pure a
  | .error reason => throw (.fault reason)

end Action

end PocketShell
