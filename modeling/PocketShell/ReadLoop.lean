import PocketShell.Change
import PocketShell.Line.Evaluation

/-!
# The read loop

The loop writes a prompt before each read and goes on until the shell is left or the input
ends. An interrupt ends a line but not the loop; input that is no text counts as a failed line.
While the shell waits for a line the world may change.
-/

namespace PocketShell.ReadLoop

def statusUndecodable : Int := 1

def prompt : Text := ['$', ' ']

/-- What the read loop meets. -/
inductive Read where
  | line (text : Text)
  | interrupt
  | undecodable (reason : Text)
  | change (c : Change)

/-- How a read loop goes: the sessions at the beginning of each read and at the end, how it
ends, and how much of its input it leaves unread. -/
structure Course where
  stages : List Session
  ending : Except Fault Int
  unread : Nat

namespace Course

def after (s : Session) (c : Course) : Course :=
  { c with stages := s :: c.stages }

end Course

def newline (s : Session) : Session :=
  s.print ['\n']

def prompted (s : Session) : Session :=
  s.print prompt

def undecoded (s : Session) (reason : Text) : Session :=
  (s.complain (.undecodable reason)).withStatus (some statusUndecodable)

/-- What becomes of a read. -/
inductive Reply where
  /-- The shell still waits at the same prompt. -/
  | waits (s : Session)
  /-- The shell is ready for the next prompt. -/
  | proceeds (s : Session)
  /-- The loop is over. -/
  | ends (s : Session) (ending : Except Fault Int)

/-- What becomes of a read that the shell meets at its prompt. -/
def respond (s : Session) : Read → Reply
  | .change c => .waits (s.change c)
  | .interrupt => .proceeds (newline s)
  | .undecodable reason => .proceeds (undecoded s reason)
  | .line text =>
    match (Line.evaluate text).perform s with
    | (.ok _, s) => .proceeds s
    | (.error .interrupted, s) => .proceeds (newline s)
    | (.error (.exit status), s) => .ends s (.ok status)
    | (.error (.fault reason), s) => .ends s (.error reason)

/-- The course of a read loop that has just written its prompt. -/
def await (s : Session) : List Read → Course
  | [] => ⟨[newline s], .ok s.status, 0⟩
  | r :: rest =>
    match respond s r with
    | .waits s => await s rest
    | .proceeds s => (await (prompted s) rest).after s
    | .ends s ending => ⟨[s], ending, rest.length⟩

def run (s : Session) (reads : List Read) : Course :=
  (await (prompted s) reads).after s

end PocketShell.ReadLoop
