import PocketShell.Redirection
import PocketShell.Text.Literal

/-!
# Commands

A command has a name and arguments, and may have a redirection. One that was written with an
operator is external: it never runs a builtin.
-/

namespace PocketShell

/-- A command to be run. -/
structure Command where
  name : Text
  args : List Text
  redirection : Option Redirection
  external : Bool
  deriving DecidableEq

namespace Command

/-- The name and the arguments, as a program receives them. -/
def argv (c : Command) : List Text :=
  c.name :: c.args

def kind? (c : Command) : Option Redirection.Kind :=
  c.redirection.map Redirection.kind

def target? (c : Command) : Option Text :=
  c.redirection.map Redirection.target

def displayedRedirection (kind : Option Redirection.Kind) (target : Option Text) : Text :=
  "RedirectSpec(kind=<RedirectKind.".toList ++ Redirection.Kind.constant kind ++ ": ".toList
    ++ Text.displayed (Redirection.Kind.label kind) ++ ">, target=".toList
    ++ (match target with
        | none => "None".toList
        | some t => Text.displayed t)
    ++ ")".toList

def displayed (c : Command) : Text :=
  "Command(".toList ++ Text.displayed c.name ++ ", ".toList ++ Text.displayedList c.args
    ++ ", redirect=".toList ++ displayedRedirection c.kind? c.target?
    ++ ", external=".toList ++ (if c.external then "True" else "False").toList ++ ")".toList

end Command

end PocketShell
