import PocketShell.FileTree.Entry
import PocketShell.Path

/-!
# File trees

A tree is what a directory holds: names with their entries, and below each name a tree of its
own, which counts while the entry is a directory. Of two equal names the first one counts. What
is found at a location therefore hangs from the root, which is always an open directory.

A change is made in the contents of one directory, so each operation is a change of contents
carried to a location.
-/

namespace PocketShell

/-- What a directory holds. -/
inductive FileTree where
  | empty
  | cons (name : Name) (entry : Entry) (below others : FileTree)

namespace FileTree

def lookup (t : FileTree) (n : Name) : Option (Entry × FileTree) :=
  match t with
  | .empty => none
  | .cons name entry below others => if name = n then some (entry, below) else others.lookup n

/-- Gives a name an entry with nothing below it, whatever it stood for. -/
def set (t : FileTree) (n : Name) (e : Entry) : FileTree :=
  match t with
  | .empty => .cons n e .empty .empty
  | .cons name entry below others =>
    if name = n then .cons n e .empty others else .cons name entry below (others.set n e)

/-- Takes a name away, with all below it. -/
def erase (t : FileTree) (n : Name) : FileTree :=
  match t with
  | .empty => .empty
  | .cons name entry below others =>
    if name = n then others.erase n else .cons name entry below (others.erase n)

def adjust (t : FileTree) (n : Name) (f : FileTree → FileTree) : FileTree :=
  match t with
  | .empty => .empty
  | .cons name entry below others =>
    if name = n then .cons name entry (f below) others
    else .cons name entry below (others.adjust n f)

def heads : FileTree → List Name
  | .empty => []
  | .cons name _ _ others => name :: others.heads

def size : FileTree → Nat
  | .empty => 0
  | .cons _ _ below others => below.size + others.size + 1

/-- All locations in a tree that hangs below a location. -/
def locationsBelow (l : Location) : FileTree → List Location
  | .empty => []
  | .cons name _ below others =>
    (name :: l) :: (locationsBelow (name :: l) below ++ locationsBelow l others)

/-- An entry that is a directory, as its permissions and what it holds. -/
def directory? : Entry × FileTree → Option (Permissions × FileTree)
  | (.directory permissions, below) => some (permissions, below)
  | _ => none

/-- The permissions of the directory at a location, and what it holds. -/
def contents? (t : FileTree) : Location → Option (Permissions × FileTree)
  | [] => some (.all, t)
  | n :: parent =>
    match t.contents? parent with
    | some (_, held) => (held.lookup n).bind directory?
    | none => none

def find? (t : FileTree) : Location → Option Entry
  | [] => some (.directory .all)
  | n :: parent =>
    match t.contents? parent with
    | some (_, held) => (held.lookup n).map Prod.fst
    | none => none

def update (t : FileTree) : Location → (FileTree → FileTree) → FileTree
  | [], f => f t
  | n :: parent, f => t.update parent (·.adjust n f)

/-- Binds a location to an entry with nothing below it, whatever was there. The root stays as it
is. -/
def bind (t : FileTree) (l : Location) (e : Entry) : FileTree :=
  match l with
  | [] => t
  | n :: parent => t.update parent (·.set n e)

/-- Unbinds a location and everything below it. -/
def remove (t : FileTree) (l : Location) : FileTree :=
  match l with
  | [] => .empty
  | n :: parent => t.update parent (·.erase n)

/-- Makes a location and all above it directories, those that are not already. -/
def withDirectory (t : FileTree) : Location → FileTree
  | [] => t
  | n :: parent =>
    let above := withDirectory t parent
    match above.find? (n :: parent) with
    | some (.directory _) => above
    | _ => above.bind (n :: parent) (.directory .all)

/-- Puts an entry in the place of whatever was at a location and below it. The root stays a
directory. -/
def put (t : FileTree) (l : Location) (e : Entry) : FileTree :=
  match l with
  | [] => .empty
  | _ :: parent => ((t.remove l).withDirectory parent).bind l e

def names (t : FileTree) (directory : Location) : List Name :=
  match t.contents? directory with
  | some (_, held) => held.heads
  | none => []

def text? (t : FileTree) (l : Location) : Option Text :=
  match t.find? l with
  | some (.file _ text _) => some text
  | _ => none

def write (t : FileTree) (l : Location) (text : Text) : FileTree :=
  match t.find? l with
  | some (.file permissions _ program) => t.bind l (.file permissions text program)
  | _ => t

def files (t : FileTree) : List (Location × Text) :=
  (locationsBelow [] t).filterMap fun l => (t.text? l).map (l, ·)

/-- The files that are new or have another text than they had before. -/
def changesSince (t before : FileTree) : List (Location × Text) :=
  t.files.filter fun f => before.text? f.1 ≠ some f.2

/-- The directories are the locations that hold something, if only nothing. -/
theorem find?_eq_directory_iff {t : FileTree} {l : Location} {permissions : Permissions} :
    t.find? l = some (.directory permissions) ↔
      ∃ held, t.contents? l = some (permissions, held) := by
  cases l with
  | nil => simp [find?, contents?]
  | cons n parent =>
    cases hc : t.contents? parent with
    | none => simp [find?, contents?, hc]
    | some c =>
      cases hl : c.2.lookup n with
      | none => simp [find?, contents?, hc, hl]
      | some b =>
        rcases b with ⟨_ | _ | _, below⟩ <;> simp [find?, contents?, directory?, hc, hl]

/-- Above everything that is found stand directories. -/
theorem find?_parent {t : FileTree} {name : Name} {parent : Location} {e : Entry}
    (h : t.find? (name :: parent) = some e) :
    ∃ permissions, t.find? parent = some (.directory permissions) := by
  cases hc : t.contents? parent with
  | none => simp [find?, hc] at h
  | some c => exact ⟨c.1, find?_eq_directory_iff.2 ⟨c.2, hc⟩⟩

end FileTree

end PocketShell
