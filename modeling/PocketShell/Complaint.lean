import PocketShell.FileTree.Entry
import PocketShell.Quoting

/-!
# Complaints

The messages that the shell writes when it cannot do what it was asked for.
-/

namespace PocketShell

/-- Why the shell cannot do what it was asked for. -/
inductive Complaint where
  | unclosed (mark : QuoteMark)
  | undecodable (reason : Text)
  | noDirectory
  | cannotEnter (target : Text) (reason : Errno)
  | notNumeric
  | noWorkingDirectory (reason : Errno)
  | noName
  | commandNotFound (name : Text)
  | cannotOpen (name target : Text) (reason : Errno)
  | cannotStart (name : Text) (reason : Refusal)
  deriving DecidableEq

namespace Complaint

def message : Complaint → Text
  | .unclosed mark => "Error: ".toList ++ mark.unclosed
  | .undecodable reason => "Error: cannot decode input: ".toList ++ reason
  | .noDirectory => "cd: missing argument".toList
  | .cannotEnter target reason => "cd: ".toList ++ target ++ ": ".toList ++ reason.message
  | .notNumeric => "exit: numeric argument required".toList
  | .noWorkingDirectory reason => "pwd: ".toList ++ reason.message
  | .noName => "type: missing argument".toList
  | .commandNotFound name => name ++ ": command not found".toList
  | .cannotOpen name target reason =>
    name ++ ": ".toList ++ target ++ ": ".toList ++ reason.message
  | .cannotStart name reason => name ++ ": ".toList ++ reason.message

end Complaint

end PocketShell
