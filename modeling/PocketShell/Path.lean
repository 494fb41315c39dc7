import PocketShell.Path.Component

/-!
# Paths

A path is a text whose components are separated by slashes. A location is the list of names
on the way from a place in the tree up to the root, so that going to the parent drops the
head. Each location has an absolute path, and the components of that path are its names.

A path can also be followed on its text alone, without a tree. Then its parts are kept as they
are, so that a part that can be no name is kept as well.
-/

namespace PocketShell

/-- A place in the tree, by its names, the innermost first. The root has none. -/
abbrev Location := List Name

namespace Path

def isAbsolute (p : Text) : Bool :=
  p.head? == some '/'

def endsInSlash (p : Text) : Bool :=
  p.getLast? == some '/'

/-- The components of a path. Slashes that follow one another count as one. -/
def components (p : Text) : List Component :=
  (Text.fields '/' p).filterMap Component.ofText?

/-- All that is walked of a path: behind a slash at the end comes nothing, which asks for a
directory. -/
def way (p : Text) : List Component :=
  components p ++ if endsInSlash p then [.nothing] else []

/-- The path that leads to `b` from the directory `a`. -/
def join (a b : Text) : Text :=
  if isAbsolute b then b
  else if a = [] ∨ endsInSlash a then a ++ b
  else a ++ '/' :: b

/-- The absolute path of some parts, the last one first. -/
def ofParts (parts : List Text) : Text :=
  '/' :: Text.joined ['/'] parts.reverse

def ofLocation (l : Location) : Text :=
  ofParts (l.map Name.text)

/-- One part followed on the text alone: the parent of what is kept lacks its last part. -/
def lexicalStep (kept : List Text) (part : Text) : List Text :=
  if part = [] ∨ part = ['.'] then kept
  else if part = ['.', '.'] then kept.tail
  else part :: kept

/-- What is kept of an absolute path that is followed on the text alone, the last part first. -/
def parts (p : Text) : List Text :=
  (Text.fields '/' p).foldl lexicalStep []

/-- The location that an absolute path spells, unless one of its parts can be no name. -/
def location? (p : Text) : Option Location :=
  (parts p).mapM Name.ofText?

/-- Exactly two slashes at the front, which normalising keeps. -/
def hasTwoSlashes : Text → Bool
  | '/' :: '/' :: '/' :: _ => false
  | '/' :: '/' :: _ => true
  | _ => false

/-- An absolute path with its special names carried out on the text. -/
def normalized (p : Text) : Text :=
  if hasTwoSlashes p then '/' :: ofParts (parts p) else ofParts (parts p)

theorem isAbsolute_ofLocation (l : Location) : isAbsolute (ofLocation l) = true := rfl

theorem isAbsolute_normalized (p : Text) : isAbsolute (normalized p) = true := by
  unfold normalized
  split <;> rfl

theorem way_of_not_endsInSlash {p : Text} (h : endsInSlash p = false) : way p = components p := by
  simp [way, h]

/-- A slash ends a component wherever it stands. -/
theorem components_append (a b : Text) :
    components (a ++ '/' :: b) = components a ++ components b := by
  simp [components, Text.fields_append]

private theorem filterMap_ofText?_text (names : List Name) :
    (names.map Name.text).filterMap Component.ofText? = names.map .name := by
  induction names with
  | nil => rfl
  | cons n rest ih => simp [Component.ofText?_name, ih]

/-- The path of a location is made of its names. -/
theorem components_ofLocation (l : Location) :
    components (ofLocation l) = l.reverse.map .name := by
  have h := components_append [] (Text.joined ['/'] (l.map Name.text).reverse)
  refine h.trans ?_
  rw [show components [] = [] from rfl, List.nil_append, ← List.map_reverse]
  cases hl : l.reverse.map Name.text with
  | nil => rw [← filterMap_ofText?_text, hl]; rfl
  | cons first more =>
    unfold components
    rw [Text.fields_joined (List.cons_ne_nil _ _), ← hl, filterMap_ofText?_text]
    rw [← hl]
    simp only [List.mem_map]
    rintro _ ⟨n, -, rfl⟩
    exact n.no_slash

end Path

end PocketShell
