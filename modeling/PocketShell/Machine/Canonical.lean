import PocketShell.Machine

/-!
# Canonical paths

The canonical form of an absolute path has no links and no special names. It is found on the
text: going to the parent drops the last name of what is resolved so far, and a name that
cannot be looked up is kept as it is. A link is replaced by the canonical form of its target,
which is remembered. A link that leads back to itself is kept, with all that follows it.
-/

namespace PocketShell.Machine

/-- What is resolved of a path: a location, or a text that holds an endless link. -/
inductive Canonical where
  | resolved (location : Location)
  | stuck (path : Text)
  deriving DecidableEq

namespace Canonical

/-- The links met so far, with the location that each leads to; one that is still being
resolved has none. -/
abbrev Links := List (Location × Option Location)

def path : Canonical → Text
  | .resolved l => Path.ofLocation l
  | .stuck p => Path.normalized p

/-- What remains of a path, put after an endless link. -/
def keep (before : Text) (rest : List Text) : Canonical :=
  .stuck (Path.join before (Text.joined ['/'] rest))

/-- The target of the link at a location, if there is a link that can be seen. -/
def linkTarget? (m : Machine) (l : Location) : Option LinkTarget :=
  match m.lstat (Path.ofLocation l) with
  | .ok (.link target) => some target
  | _ => none

/-- Resolves the fields of a path from a location, handing the targets of new links on. What holds
U+0000 cannot be looked up. -/
def resolveWith (enter : Location → List Text → Links → Except Fault (Canonical × Links))
    (m : Machine) : Location → List Text → Links → Except Fault (Canonical × Links)
  | reached, [], links => .ok (.resolved reached, links)
  | reached, field :: rest, links =>
    if '\x00' ∈ field then .error .nul
    else match Component.ofText? field with
      | some .up => resolveWith enter m reached.tail rest links
      | some (.name n) =>
        let new := n :: reached
        match linkTarget? m new with
        | none => resolveWith enter m new rest links
        | some target =>
          match links.lookup new with
          | some (some known) => resolveWith enter m known rest links
          | some none => .ok (keep (Path.ofLocation new) rest, links)
          | none =>
            let origin := if Path.isAbsolute target.text then [] else reached
            match enter origin (Text.fields '/' target.text) ((new, none) :: links) with
            | .error fault => .error fault
            | .ok (.stuck p, links) => .ok (keep p rest, links)
            | .ok (.resolved l, links) => resolveWith enter m l rest ((new, some l) :: links)
      | _ => resolveWith enter m reached rest links

/-- Resolves the fields of a path from a location, entering so many links one inside another. -/
def resolve (m : Machine) : Nat → Location → List Text → Links →
    Except Fault (Canonical × Links)
  | 0 => resolveWith (fun l rest links => .ok (keep (Path.ofLocation l) rest, links)) m
  | depth + 1 => resolveWith (resolve m depth) m

end Canonical

/-- The canonical form of an absolute path. Links are entered one inside another at most as
often as there are names in the tree, since no link is entered twice. -/
def canonical (m : Machine) (path : Text) : Except Fault Text :=
  match Canonical.resolve m (m.tree.size + 1) [] (Text.fields '/' path) [] with
  | .error fault => .error fault
  | .ok (c, _) => .ok c.path

end PocketShell.Machine
