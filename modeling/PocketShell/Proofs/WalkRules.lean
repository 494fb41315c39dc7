import PocketShell.Proofs.Walking

/-!
# The rules of a walk

A walk sees no more of the tree than whether a place is a directory, whether it may be searched and
what a name stands for there. The rules by which it comes through are one for each kind of
component, and what holds of every walk is proved by going through the rules.
-/

namespace PocketShell.FileTree

/-- What a name stands for in a place. -/
def child? (t : FileTree) (p : Place) (n : Name) : Option Entry :=
  if p.removed = [] then t.find? (n :: p.location) else none

/-- The walks that come through, all links followed. -/
inductive Walks (t : FileTree) : Nat → Place → List Component → Spot → Prop where
  | arrives (links : Nat) (p : Place) : Walks t links p [] (.found p)
  | here {links : Nat} {p : Place} {rest : List Component} {spot : Spot}
      (searchable : t.searchError? p = none) (onward : Walks t links p rest spot) :
      Walks t links p (.here :: rest) spot
  | up {links : Nat} {p : Place} {rest : List Component} {spot : Spot}
      (searchable : t.searchError? p = none) (onward : Walks t links p.parent rest spot) :
      Walks t links p (.up :: rest) spot
  | closes {links : Nat} {p : Place} {rest : List Component} {spot : Spot}
      {permissions : Permissions} (directory : t.entryAt? p = some (.directory permissions))
      (onward : Walks t links p rest spot) : Walks t links p (.nothing :: rest) spot
  | misses (links : Nat) {p : Place} {n : Name} (searchable : t.searchError? p = none)
      (missing : t.child? p n = none) : Walks t links p [.name n] (.missing p n)
  | enters {links : Nat} {p : Place} {n : Name} {rest : List Component} {spot : Spot} {e : Entry}
      (searchable : t.searchError? p = none) (present : t.child? p n = some e)
      (no_link : ∀ target, e ≠ .link target)
      (onward : Walks t links (.live (n :: p.location)) rest spot) :
      Walks t links p (.name n :: rest) spot
  | follows {links : Nat} {p : Place} {n : Name} {rest : List Component} {spot : Spot}
      {target : LinkTarget} (searchable : t.searchError? p = none)
      (present : t.child? p n = some (.link target))
      (onward : Walks t links (linkOrigin p target) (target.way ++ rest) spot) :
      Walks t (links + 1) p (.name n :: rest) spot

variable {t : FileTree} {p q : Place} {path rest : List Component} {n : Name} {links : Nat}
variable {spot : Spot} {held below : FileTree}

theorem entryAt?_eq_directory_iff {permissions : Permissions} :
    t.entryAt? p = some (.directory permissions) ↔
      ∃ held, t.held? p = some (permissions, held) := by
  unfold entryAt? held?
  cases p.removed with
  | nil => exact find?_eq_directory_iff
  | cons gone above => simp

theorem searchError?_eq_none_iff_directory : t.searchError? p = none ↔
    ∃ permissions, t.entryAt? p = some (.directory permissions) ∧ permissions.execute = true := by
  unfold searchError?
  rcases t.entryAt? p with _ | (permissions | _ | _)
  · simp
  · cases hx : permissions.execute <;> simp [hx]
  · simp
  · simp

theorem searchError?_eq_none_iff : t.searchError? p = none ↔ ∃ held, t.Searches p held := by
  rw [searchError?_eq_none_iff_directory]
  constructor
  · rintro ⟨permissions, hp, hx⟩
    obtain ⟨held, hp⟩ := entryAt?_eq_directory_iff.1 hp
    exact ⟨held, permissions, hp, hx⟩
  · rintro ⟨held, permissions, hp, hx⟩
    exact ⟨permissions, entryAt?_eq_directory_iff.2 ⟨held, hp⟩, hx⟩

theorem Searches.child?_eq (h : t.Searches p held) :
    t.child? p n = (held.lookup n).map Prod.fst := by
  obtain ⟨permissions, hp, -⟩ := h
  unfold held? at hp
  unfold child?
  cases hr : p.removed with
  | nil =>
    rw [hr] at hp
    simp [find?_cons, hp]
  | cons gone above =>
    rw [hr] at hp
    simp [← (Prod.mk.inj (Option.some.inj hp)).2, lookup]

theorem Searches.exists_lookup {e : Entry} (h : t.Searches p held) (hn : t.child? p n = some e) :
    ∃ below, held.lookup n = some (e, below) := by
  rw [h.child?_eq, Option.map_eq_some_iff] at hn
  obtain ⟨⟨e, below⟩, hlookup, rfl⟩ := hn
  exact ⟨below, hlookup⟩

/-- A walk that comes through is one by the rules. -/
theorem walks_of_walk (h : t.walk .following links p path = .ok spot) :
    Walks t links p path spot := by
  induction links, p, path using walk_induction with
  | arrives links p =>
    rw [walk_nil] at h
    exact Except.ok.inj h ▸ .arrives links p
  | walks links p c rest ih ihLinks =>
    by_cases hc : c = .nothing
    · subst hc
      obtain ⟨⟨permissions, held⟩, hp⟩ := held?_of_walk_nothing h
      exact .closes (entryAt?_eq_directory_iff.2 ⟨held, hp⟩) (ih _ (walk_nothing hp ▸ h))
    obtain ⟨held, hp⟩ := searches_of_walk h hc
    have hsearch := searchError?_eq_none_iff.2 ⟨held, hp⟩
    have hm := Manner.following_ne_making
    cases c with
    | nothing => exact absurd rfl hc
    | here => exact .here hsearch (ih _ (hp.walk_here ▸ h))
    | up => exact .up hsearch (ih _ (hp.walk_up ▸ h))
    | name n =>
      have hchild : t.child? p n = (held.lookup n).map Prod.fst := hp.child?_eq
      cases hn : held.lookup n with
      | none =>
        rw [hp.walk_missing hn hm] at h
        split at h
        · next hrest =>
          subst hrest
          exact Except.ok.inj h ▸ .misses links hsearch (by simp [hchild, hn])
        · simp at h
      | some found =>
        obtain ⟨e, below⟩ := found
        have hpresent : t.child? p n = some e := by simp [hchild, hn]
        by_cases he : ∃ target, e = .link target
        · obtain ⟨target, rfl⟩ := he
          rw [hp.walk_link hn (.inl rfl)] at h
          cases links with
          | zero => simp [follow] at h
          | succ links => exact .follows hsearch hpresent (ihLinks links (Nat.lt_succ_self _) _ _ h)
        · have hno := not_exists.1 he
          exact .enters hsearch hpresent hno (ih _ (hp.walk_name hn hno hm ▸ h))

theorem Walks.walk_eq (h : Walks t links p path spot) :
    t.walk .following links p path = .ok spot := by
  have hm := Manner.following_ne_making
  induction h with
  | arrives links p => exact walk_nil t .following links p
  | here searchable _ ih =>
    obtain ⟨held, hp⟩ := searchError?_eq_none_iff.1 searchable
    rw [hp.walk_here, ih]
  | up searchable _ ih =>
    obtain ⟨held, hp⟩ := searchError?_eq_none_iff.1 searchable
    rw [hp.walk_up, ih]
  | closes directory _ ih =>
    obtain ⟨held, hp⟩ := entryAt?_eq_directory_iff.1 directory
    rw [walk_nothing hp, ih]
  | misses links searchable missing =>
    obtain ⟨held, hp⟩ := searchError?_eq_none_iff.1 searchable
    rw [hp.child?_eq, Option.map_eq_none_iff] at missing
    rw [hp.walk_missing missing hm, if_pos rfl]
  | enters searchable present no_link _ ih =>
    obtain ⟨held, hp⟩ := searchError?_eq_none_iff.1 searchable
    obtain ⟨below, hn⟩ := hp.exists_lookup present
    rw [hp.walk_name hn no_link hm, ih]
  | follows searchable present _ ih =>
    obtain ⟨held, hp⟩ := searchError?_eq_none_iff.1 searchable
    obtain ⟨below, hn⟩ := hp.exists_lookup present
    rw [hp.walk_link hn (.inl rfl)]
    exact ih

end PocketShell.FileTree
