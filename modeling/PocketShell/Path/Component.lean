import PocketShell.Text

/-!
# Components of paths

What may stand between the slashes of a path: one of the two special names, the name of something
in a directory, or nothing, which counts at the end. A name is not empty, holds neither a slash nor
U+0000 and is not special, so that a list of names is a way through the tree and nothing else.
-/

namespace PocketShell

/-- A name that something in a directory can have. -/
structure Name where
  text : Text
  ne_nil : text ≠ [] := by decide
  no_slash : '/' ∉ text := by decide
  no_nul : '\x00' ∉ text := by decide
  ne_here : text ≠ ['.'] := by decide
  ne_up : text ≠ ['.', '.'] := by decide
  deriving DecidableEq

namespace Name

/-- The name that a text is, if it is one. -/
def ofText? (t : Text) : Option Name :=
  if h : t ≠ [] ∧ '/' ∉ t ∧ '\x00' ∉ t ∧ t ≠ ['.'] ∧ t ≠ ['.', '.'] then
    some ⟨t, h.1, h.2.1, h.2.2.1, h.2.2.2.1, h.2.2.2.2⟩
  else none

theorem ofText?_text (n : Name) : ofText? n.text = some n := by
  simp [ofText?, n.ne_nil, n.no_slash, n.no_nul, n.ne_here, n.ne_up]

theorem text_of_ofText? {t : Text} {n : Name} (h : ofText? t = some n) : n.text = t := by
  unfold ofText? at h
  split at h
  · rw [← Option.some.inj h]
  · simp at h

theorem ofText?_eq_none_iff {t : Text} :
    ofText? t = none ↔ t = [] ∨ '/' ∈ t ∨ '\x00' ∈ t ∨ t = ['.'] ∨ t = ['.', '.'] := by
  simp only [ofText?, dite_eq_right_iff, reduceCtorEq, imp_false, not_and, Decidable.not_not]
  grind

end Name

/-- What a path says between two slashes, or behind the last one. -/
inductive Component where
  /-- To stay, which is written with one dot. -/
  | here
  /-- To go to the parent, which is written with two dots. -/
  | up
  /-- To go to what has a name. -/
  | name (n : Name)
  /-- Nothing, behind a slash at the end: what was reached must be a directory. -/
  | nothing
  deriving DecidableEq

namespace Component

/-- The component that a text between two slashes is. A text that can be no name is none. -/
def ofText? (t : Text) : Option Component :=
  if t = ['.'] then some .here
  else if t = ['.', '.'] then some .up
  else (Name.ofText? t).map .name

theorem ofText?_name (n : Name) : ofText? n.text = some (.name n) := by
  simp [ofText?, n.ne_here, n.ne_up, Name.ofText?_text]

theorem text_of_ofText? {t : Text} {n : Name} (h : ofText? t = some (.name n)) : n.text = t := by
  unfold ofText? at h
  split at h
  · simp at h
  · split at h
    · simp at h
    · obtain ⟨m, hm, hn⟩ := Option.map_eq_some_iff.1 h
      exact Component.name.inj hn ▸ Name.text_of_ofText? hm

/-- A slash stands behind what is between two slashes. -/
theorem ofText?_ne_nothing (t : Text) : ofText? t ≠ some .nothing := by
  unfold ofText?
  split
  · simp
  · split <;> simp

/-- Between two slashes only nothing and what holds U+0000 is no component. -/
theorem ofText?_eq_none_iff {t : Text} (h : '/' ∉ t) : ofText? t = none ↔ t = [] ∨ '\x00' ∈ t := by
  unfold ofText?
  split
  · next ht => simp [ht]
  · split
    · next ht => simp [ht]
    · next hhere hup => simp [Name.ofText?_eq_none_iff, h, hhere, hup]

end Component

end PocketShell
