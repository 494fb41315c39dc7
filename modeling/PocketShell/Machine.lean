import PocketShell.FileTree.Walk
import PocketShell.Redirection

/-!
# The machine

The tree of files and the working directory, and the calls that read and change them. A call
that is given a path refuses one with U+0000 in it, and an empty one; a path that ends in a
slash must lead to a directory. Only a file that may be executed is started, unless the machine is
one that does not ask.
-/

namespace PocketShell

/-- The tree of files and the place that relative paths start from. -/
structure Machine where
  tree : FileTree
  cwd : Place
  /-- Whether permission is needed to start a file. An emulated machine may start whatever a path
  leads to. -/
  guarded : Bool := true

namespace Machine

def origin (m : Machine) (path : Text) : Place :=
  if Path.isAbsolute path then .root else m.cwd

/-- Why a text cannot be a path, if it cannot. -/
def pathFault? (path : Text) : Option Fault :=
  if '\x00' ∈ path then some .nul
  else if path = [] then some (.errno .noEntry)
  else none

/-- The place that a path leads to. -/
def place (m : Machine) (manner : Manner) (path : Text) : Except Fault Place :=
  match pathFault? path with
  | some fault => .error fault
  | none =>
    match m.tree.walk manner FileTree.maxLinks (m.origin path) (Path.way path) with
    | .error reason => .error (.errno reason)
    | .ok (.missing _ _) => .error (.errno .noEntry)
    | .ok (.found p) => .ok p

def entry (m : Machine) (manner : Manner) (path : Text) : Except Fault Entry :=
  match m.place manner path with
  | .error fault => .error fault
  | .ok p =>
    match m.tree.entryAt? p with
    | some e => .ok e
    | none => .error (.errno .noEntry)

def stat (m : Machine) (path : Text) : Except Fault Entry :=
  m.entry .following path

def lstat (m : Machine) (path : Text) : Except Fault Entry :=
  m.entry .keeping path

/-- The path leads to a file that may be run. -/
def canRun (m : Machine) (path : Text) : Bool :=
  match m.stat path with
  | .ok (.file permissions _ _) => permissions.execute
  | _ => false

/-- The names in the directory that a path leads to. -/
def list (m : Machine) (path : Text) : Except Fault (List Name) :=
  match m.place .following path with
  | .error fault => .error fault
  | .ok p =>
    match m.tree.entryAt? p with
    | some (.directory permissions) =>
      if permissions.read then
        .ok (if p.removed = [] then m.tree.names p.location else [])
      else .error (.errno .accessDenied)
    | _ => .error (.errno .notDirectory)

def getcwd (m : Machine) : Except Fault Text :=
  if m.cwd.removed = [] then .ok (Path.ofLocation m.cwd.location) else .error (.errno .noEntry)

def chdir (m : Machine) (path : Text) : Except Fault Machine :=
  match m.place .following path with
  | .error fault => .error fault
  | .ok p =>
    match m.tree.searchError? p with
    | some reason => .error (.errno reason)
    | none => .ok { m with cwd := p }

/-- The absolute path of a path, its special names carried out on the text. -/
def absolute (m : Machine) (path : Text) : Except Fault Text :=
  if Path.isAbsolute path then .ok (Path.normalized path)
  else m.getcwd.map fun cwd => Path.normalized (Path.join cwd path)

/-- Opens a file for writing: makes it if it is missing, empties it if it is to be emptied.
The answer is its location. -/
def openFile (m : Machine) (path : Text) (writing : Writing) : Except Fault (Machine × Location) :=
  match pathFault? path with
  | some fault => .error fault
  | none =>
    match m.tree.walk .making FileTree.maxLinks (m.origin path) (Path.way path) with
    | .error reason => .error (.errno reason)
    | .ok (.missing directory name) =>
      if directory.removed ≠ [] then .error (.errno .noEntry)
      else if (Place.permissionsAt m.tree directory.location).write then
        let l := name :: directory.location
        .ok ({ m with tree := m.tree.bind l (.file .newFile [] .idle) }, l)
      else .error (.errno .accessDenied)
    | .ok (.found p) =>
      match m.tree.entryAt? p with
      | some (.file permissions _ _) =>
        if permissions.write then
          match writing with
          | .truncate => .ok ({ m with tree := m.tree.write p.location [] }, p.location)
          | .append => .ok (m, p.location)
        else .error (.errno .accessDenied)
      | _ => .error (.errno .isDirectory)

def append (m : Machine) (l : Location) (text : Text) : Machine :=
  match m.tree.text? l with
  | some present => { m with tree := m.tree.write l (present ++ text) }
  | none => m

/-- The program that a path leads to, if it can be started there: what may not be executed can be,
if the machine does not ask, and what is no file then does nothing. -/
def program (m : Machine) (path : Text) : Except Fault Program :=
  match m.stat path with
  | .error fault => .error fault
  | .ok (.file permissions _ program) =>
    if m.guarded && !permissions.execute then .error (.errno .accessDenied) else .ok program
  | .ok _ => if m.guarded then .error (.errno .accessDenied) else .ok .idle

/-- Removes a location and all below it, as seen from outside of the shell. -/
def remove (m : Machine) (l : Location) : Machine :=
  { m with
    tree := m.tree.remove l
    cwd := Place.afterRemoval m.tree l m.cwd.location m.cwd.removed }

/-- Puts an entry at a location, as seen from outside of the shell. What was there is removed
first. -/
def put (m : Machine) (l : Location) (e : Entry) : Machine :=
  { m.remove l with tree := m.tree.put l e }

def ofEntries (entries : List (Location × Entry)) (cwd : Location) : Machine where
  tree := (entries.foldl (fun t e => t.put e.1 e.2) FileTree.empty).withDirectory cwd
  cwd := .live cwd

end Machine

end PocketShell
