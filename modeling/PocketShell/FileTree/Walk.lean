import PocketShell.FileTree

/-!
# Walking the tree

A path is walked by its components from a place in the tree. Each component needs a directory
that may be searched; a symbolic link is replaced by its target, unless it comes last and is to be
kept. At most forty links are followed. A walk whose last name is missing ends beside the
tree, in the directory that would hold it. Nothing behind a last slash only needs a directory, but
nothing can be made there.

A directory can be removed while it is the working directory. It is still a place: it holds
nothing, and its parent is the place above it, which may have been removed as well.
-/

namespace PocketShell

/-- A place in the tree or above it: the directories that were removed on the way, the
innermost first, and the location below which they hung. -/
structure Place where
  location : Location
  removed : List Permissions
  deriving DecidableEq

namespace Place

def root : Place := ⟨[], []⟩

def live (l : Location) : Place := ⟨l, []⟩

/-- The place above; the root is above itself. -/
def parent (p : Place) : Place :=
  match p.removed with
  | [] => live p.location.tail
  | _ :: above => ⟨p.location, above⟩

def permissionsAt (t : FileTree) (l : Location) : Permissions :=
  match t.find? l with
  | some (.directory permissions) => permissions
  | _ => .all

/-- The place that a location becomes, with the given directories removed below it already,
when `gone` is removed from the tree with all below it. -/
def afterRemoval (t : FileTree) (gone : Location) : Location → List Permissions → Place
  | [], removed => ⟨[], removed⟩
  | name :: above, removed =>
    if gone.isSuffixOf (name :: above) then
      afterRemoval t gone above (removed ++ [permissionsAt t (name :: above)])
    else ⟨name :: above, removed⟩

end Place

/-- Where a walk ends: at something, or in a directory that lacks the last name. -/
inductive Spot where
  | found (place : Place)
  | missing (directory : Place) (name : Name)
  deriving DecidableEq

/-- How a path is walked to its end. -/
inductive Manner where
  /-- A link that comes last is kept. -/
  | keeping
  /-- Every link is followed. -/
  | following
  /-- Every link is followed, in order to make what is missing: a name with a slash behind it at
  the end is refused. -/
  | making
  deriving DecidableEq

namespace FileTree

def entryAt? (t : FileTree) (p : Place) : Option Entry :=
  match p.removed with
  | [] => t.find? p.location
  | permissions :: _ => some (.directory permissions)

/-- The permissions of the directory at a place, and what it holds. -/
def held? (t : FileTree) (p : Place) : Option (Permissions × FileTree) :=
  match p.removed with
  | [] => t.contents? p.location
  | permissions :: _ => some (permissions, .empty)

/-- Why names cannot be looked up at a place, if they cannot. -/
def searchError? (t : FileTree) (p : Place) : Option Errno :=
  match t.entryAt? p with
  | some (.directory permissions) => if permissions.execute then none else some .accessDenied
  | _ => some .notDirectory

/-- The place where the target of a link that stands in `p` is walked from. -/
def linkOrigin (p : Place) (target : LinkTarget) : Place :=
  if Path.isAbsolute target.text then .root else p

/-- Walks the components from a place whose directory is given, handing each link on, with the
components that remain. -/
def walkWith (follow : Place → List Component → Except Errno Spot) (t : FileTree)
    (manner : Manner) (p : Place) (directory : Option (Permissions × FileTree)) :
    List Component → Except Errno Spot
  | [] => .ok (.found p)
  | component :: rest =>
    match directory with
    | none => .error .notDirectory
    | some (permissions, held) =>
      if permissions.execute || component = .nothing then
        match component with
        | .here => walkWith follow t manner p directory rest
        | .nothing => walkWith follow t manner p directory rest
        | .up => walkWith follow t manner p.parent (t.held? p.parent) rest
        | .name n =>
          if manner = .making ∧ rest = [.nothing] then .error .isDirectory
          else match held.lookup n with
            | none => if rest = [] then .ok (.missing p n) else .error .noEntry
            | some (.link target, _) =>
              if manner = .keeping ∧ rest = [] then .ok (.found (.live (n :: p.location)))
              else follow (linkOrigin p target) (target.way ++ rest)
            | some found =>
              walkWith follow t manner (.live (n :: p.location)) (directory? found) rest
      else .error .accessDenied

/-- Walks the components from a place, following at most so many links. -/
def walk (t : FileTree) (manner : Manner) : Nat → Place → List Component → Except Errno Spot
  | 0, p, path => walkWith (fun _ _ => .error .linkLoop) t manner p (t.held? p) path
  | links + 1, p, path => walkWith (walk t manner links) t manner p (t.held? p) path

/-- Follows a link while so many links may be followed. -/
def follow (t : FileTree) (manner : Manner) (links : Nat) (p : Place) (path : List Component) :
    Except Errno Spot :=
  match links with
  | 0 => .error .linkLoop
  | links + 1 => t.walk manner links p path

def maxLinks : Nat := 40

theorem walk_eq_walkWith (t : FileTree) (manner : Manner) (links : Nat) (p : Place)
    (path : List Component) :
    t.walk manner links p path =
      walkWith (t.follow manner links) t manner p (t.held? p) path := by
  cases links <;> rfl

/-- The directory that a name leads to is the one that stands below the name. -/
theorem held?_name {t : FileTree} {p : Place} {permissions : Permissions} {held : FileTree}
    (h : t.held? p = some (permissions, held)) {n : Name} {found : Entry × FileTree}
    (hn : held.lookup n = some found) :
    t.held? (.live (n :: p.location)) = directory? found := by
  unfold held? at h
  split at h
  · simp [held?, Place.live, contents?, h, hn]
  · rw [← (Prod.mk.inj (Option.some.inj h)).2] at hn
    simp [lookup] at hn

theorem walk_nil (t : FileTree) (manner : Manner) (links : Nat) (p : Place) :
    t.walk manner links p [] = .ok (.found p) := by
  rw [walk_eq_walkWith]
  rfl

theorem walk_cons (t : FileTree) (manner : Manner) (links : Nat) (p : Place) (c : Component)
    (rest : List Component) :
    t.walk manner links p (c :: rest) =
      match t.held? p with
      | none => .error .notDirectory
      | some (permissions, held) =>
        if permissions.execute || c = .nothing then
          match c with
          | .here => t.walk manner links p rest
          | .nothing => t.walk manner links p rest
          | .up => t.walk manner links p.parent rest
          | .name n =>
            if manner = .making ∧ rest = [.nothing] then .error .isDirectory
            else match held.lookup n with
              | none => if rest = [] then .ok (.missing p n) else .error .noEntry
              | some (.link target, _) =>
                if manner = .keeping ∧ rest = [] then .ok (.found (.live (n :: p.location)))
                else t.follow manner links (linkOrigin p target) (target.way ++ rest)
              | some _ => t.walk manner links (.live (n :: p.location)) rest
        else .error .accessDenied := by
  simp only [walk_eq_walkWith]
  conv => lhs; unfold walkWith
  cases hp : t.held? p with
  | none => rfl
  | some directory =>
    obtain ⟨permissions, held⟩ := directory
    cases c with
    | here => rfl
    | nothing => rfl
    | up => rfl
    | name n =>
      cases hn : held.lookup n with
      | none => simp [hn]
      | some found =>
        have hb := held?_name hp hn
        rcases found with ⟨_ | _ | _, below⟩ <;> simp [hn, hb]

end FileTree

end PocketShell
