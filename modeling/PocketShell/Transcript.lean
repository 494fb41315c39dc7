import PocketShell.Redirection
import PocketShell.Remark

/-!
# Transcripts

What a session shows, in the order in which it happens: text on its two streams, remarks, and
the programs it starts. The remarks are always kept; whether they are shown among the texts of
the error stream is decided by who reads the transcript.
-/

namespace PocketShell

/-- A program that the shell has found and tried to start. -/
structure Spawn where
  path : Text
  argv : List Text
  redirected : Option Redirection.Kind
  deriving DecidableEq

namespace Spawn

def writing? (s : Spawn) (stream : Stream) : Option Writing :=
  match s.redirected with
  | some kind => if kind.stream = stream then some kind.writing else none
  | none => none

end Spawn

/-- Something that a session shows. -/
inductive Event where
  | out (text : Text)
  | err (text : Text)
  | remark (r : Remark)
  | spawn (s : Spawn)
  deriving DecidableEq

abbrev Transcript := List Event

namespace Transcript

def out (t : Transcript) : Text :=
  t.flatMap fun
    | .out text => text
    | _ => []

/-- The text on the error stream, with the remarks if they are to be shown. -/
def err (showRemarks : Bool) (t : Transcript) : Text :=
  t.flatMap fun
    | .err text => text
    | .remark r => if showRemarks then r.line ++ ['\n'] else []
    | _ => []

def remarks (t : Transcript) : List Remark :=
  t.filterMap fun
    | .remark r => some r
    | _ => none

def spawns (t : Transcript) : List Spawn :=
  t.filterMap fun
    | .spawn s => some s
    | _ => none

@[simp] theorem out_append (t u : Transcript) : out (t ++ u) = out t ++ out u := by
  simp [out]

@[simp] theorem err_append (showRemarks : Bool) (t u : Transcript) :
    err showRemarks (t ++ u) = err showRemarks t ++ err showRemarks u := by
  simp [err]

@[simp] theorem spawns_append (t u : Transcript) : spawns (t ++ u) = spawns t ++ spawns u := by
  simp [spawns]

end Transcript

end PocketShell
