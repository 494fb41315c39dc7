import PocketShell.Text

/-!
# Redirections

An operator sends one of a program's two output streams to a file, which is emptied first or
written to at its end. Together with its target it makes a redirection.
-/

namespace PocketShell

/-- An output stream of a program. -/
inductive Stream where
  | stdout
  | stderr
  deriving DecidableEq

namespace Stream

def name : Stream → Text
  | .stdout => "stdout".toList
  | .stderr => "stderr".toList

end Stream

/-- What happens to the text that the target of a redirection holds. -/
inductive Writing where
  | truncate
  | append
  deriving DecidableEq

namespace Writing

/-- The letter of the mode that the target is opened in. -/
def letter : Writing → Text
  | .truncate => ['w']
  | .append => ['a']

end Writing

namespace Redirection

/-- What an operator asks for. -/
structure Kind where
  stream : Stream
  writing : Writing
  deriving DecidableEq

namespace Kind

/-- What each operator asks for. -/
def operators : List (Text × Kind) :=
  [(['>'], ⟨.stdout, .truncate⟩), (['1', '>'], ⟨.stdout, .truncate⟩),
   (['>', '>'], ⟨.stdout, .append⟩), (['1', '>', '>'], ⟨.stdout, .append⟩),
   (['2', '>'], ⟨.stderr, .truncate⟩), (['2', '>', '>'], ⟨.stderr, .append⟩)]

/-- What an operator asks for, and nothing for a text that is no operator. -/
def ofOperator? (t : Text) : Option Kind :=
  operators.lookup t

def all : List Kind :=
  [⟨.stdout, .truncate⟩, ⟨.stdout, .append⟩, ⟨.stderr, .truncate⟩, ⟨.stderr, .append⟩]

/-- The label of a kind, or of no redirection. -/
def label : Option Kind → Text
  | none => "none".toList
  | some ⟨stream, .truncate⟩ => stream.name
  | some ⟨stream, .append⟩ => stream.name ++ "_append".toList

/-- The kind that a label names. No redirection is a label's meaning too. -/
def ofLabel? (t : Text) : Option (Option Kind) :=
  (none :: all.map some).find? (label · = t)

/-- The name of a kind, or of no redirection, where a command is displayed. -/
def constant : Option Kind → Text
  | none => "NONE".toList
  | some ⟨.stdout, .truncate⟩ => "STDOUT_TRUNCATE".toList
  | some ⟨.stdout, .append⟩ => "STDOUT_APPEND".toList
  | some ⟨.stderr, .truncate⟩ => "STDERR_TRUNCATE".toList
  | some ⟨.stderr, .append⟩ => "STDERR_APPEND".toList

/-- The stream of a kind; no redirection has none. -/
def stream? (k : Option Kind) : Option Stream :=
  k.map Kind.stream

/-- How a target is written; where there is none, the answer is as for an emptied one. -/
def writingOf : Option Kind → Writing
  | none => .truncate
  | some k => k.writing

end Kind

end Redirection

/-- A stream sent to a file. -/
structure Redirection where
  kind : Redirection.Kind
  target : Text
  deriving DecidableEq

end PocketShell
