import PocketShell.Builtin
import PocketShell.Machine
import PocketShell.Remark

/-!
# The search path

A search path is a text of directories separated by colons; empty ones do not count. A name
without a slash is looked up in the directories in their order, and the first executable file
of that name is the answer, as a normalized absolute path. The names that can be run are the
builtins and the executable files of every directory that can be listed.
-/

namespace PocketShell.SearchPath

def directories (value : Text) : List Text :=
  (Text.fields ':' value).filter (· ≠ [])

/-- A name that is looked up at all: one that is not empty and has no slash. -/
def isName (name : Text) : Bool :=
  name ≠ [] && '/' ∉ name

/-- The first executable file of a name, as a path below its directory. -/
def candidate? (m : Machine) (name : Text) (directories : List Text) : Option Text :=
  (directories.map (Path.join · name)).find? m.canRun

/-- The absolute path of the first executable file of a name. -/
def find (m : Machine) (value name : Text) : Except Fault (Option Text) :=
  if isName name then
    match candidate? m name (directories value) with
    | none => .ok none
    | some path => (m.absolute path).map some
  else .ok none

/-- What is remarked when a name is looked up with a given answer. -/
def remarks (name : Text) (answer : Option Text) : List Remark :=
  match answer with
  | some path => [.resolved name path]
  | none => if isName name then [.notFound name] else []

def executablesIn (m : Machine) (directory : Text) : Except Fault (List Text) :=
  (m.list directory).map fun names =>
    (names.map Name.text).filter fun name => m.canRun (Path.join directory name)

def executablesOf (m : Machine) : List Text → Except Fault (List Text)
  | [] => .ok []
  | directory :: rest =>
    match executablesIn m directory with
    | .ok names => (executablesOf m rest).map (names ++ ·)
    | .error (.errno _) => executablesOf m rest
    | .error .nul => .error .nul

/-- What is remarked of the directories that cannot be listed. -/
def skipped (m : Machine) : List Text → List Remark
  | [] => []
  | directory :: rest =>
    match m.list directory with
    | .ok _ => skipped m rest
    | .error (.errno reason) => .skipping directory reason :: skipped m rest
    | .error .nul => []

/-- The texts in the order of their code points. -/
def sorted (ts : List Text) : List Text :=
  ts.mergeSort fun a b => !List.lex b a

/-- Every name that can be run, each once, in order. -/
def names (m : Machine) (value : Text) : Except Fault (List Text) :=
  (executablesOf m (directories value)).map fun executables =>
    sorted (Builtin.all.map Builtin.name ++ executables).eraseDups

theorem sorted_perm (ts : List Text) : (sorted ts).Perm ts :=
  List.mergeSort_perm _ _

/-- No text comes behind one that is greater. -/
theorem pairwise_sorted (ts : List Text) :
    (sorted ts).Pairwise fun a b => List.lex b a = false := by
  refine (List.pairwise_mergeSort ?trans ?total ts).imp fun h => by simpa using h
  case trans =>
    intro a b c hab hbc
    rw [Bool.not_eq_true', List.lex_eq_false_iff_ge] at hab hbc ⊢
    exact List.le_trans hab hbc
  case total =>
    intro a b
    rw [Bool.or_eq_true, Bool.not_eq_true', Bool.not_eq_true', List.lex_eq_false_iff_ge,
      List.lex_eq_false_iff_ge]
    exact List.le_total a b

/-- The order is settled by the texts, whatever order they came in. -/
theorem sorted_eq_of_perm {ts us : List Text} (h : ts.Perm us) : sorted ts = sorted us := by
  refine List.Perm.eq_of_pairwise ?antisymm (pairwise_sorted ts) (pairwise_sorted us) ?perm
  case antisymm =>
    intro a b _ _ hab hba
    rw [List.lex_eq_false_iff_ge] at hab hba
    exact List.le_antisymm hab hba
  case perm => exact (sorted_perm ts).trans (h.trans (sorted_perm us).symm)

/-- The directories of two search paths with a colon between them. -/
theorem directories_append (a b : Text) :
    directories (a ++ ':' :: b) = directories a ++ directories b := by
  simp [directories, Text.fields_append]

end PocketShell.SearchPath
