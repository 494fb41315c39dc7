import PocketShell.Proofs.WalkRules

/-!
# Walks that fail

A walk fails for one of four reasons: it comes to a place that cannot be searched, a name is
missing before the last one, there are too many links, or behind a last slash is no directory. It
fails at the first of them, wherever that stands: on the path itself or on the target of a link.
-/

namespace PocketShell.FileTree

/-- The walks that fail, all links followed. -/
inductive Fails (t : FileTree) : Nat → Place → List Component → Errno → Prop where
  | barred (links : Nat) {p : Place} {c : Component} {rest : List Component} {reason : Errno}
      (asked : c ≠ .nothing) (closed : t.searchError? p = some reason) :
      Fails t links p (c :: rest) reason
  | wants (links : Nat) {p : Place} {rest : List Component}
      (no_directory : ∀ permissions, t.entryAt? p ≠ some (.directory permissions)) :
      Fails t links p (.nothing :: rest) .notDirectory
  | lacks (links : Nat) {p : Place} {n : Name} {rest : List Component}
      (searchable : t.searchError? p = none) (missing : t.child? p n = none) (more : rest ≠ []) :
      Fails t links p (.name n :: rest) .noEntry
  | exhausted {p : Place} {n : Name} {rest : List Component} {target : LinkTarget}
      (searchable : t.searchError? p = none) (present : t.child? p n = some (.link target)) :
      Fails t 0 p (.name n :: rest) .linkLoop
  | here {links : Nat} {p : Place} {rest : List Component} {reason : Errno}
      (searchable : t.searchError? p = none) (onward : Fails t links p rest reason) :
      Fails t links p (.here :: rest) reason
  | up {links : Nat} {p : Place} {rest : List Component} {reason : Errno}
      (searchable : t.searchError? p = none) (onward : Fails t links p.parent rest reason) :
      Fails t links p (.up :: rest) reason
  | closes {links : Nat} {p : Place} {rest : List Component} {reason : Errno}
      {permissions : Permissions} (directory : t.entryAt? p = some (.directory permissions))
      (onward : Fails t links p rest reason) : Fails t links p (.nothing :: rest) reason
  | enters {links : Nat} {p : Place} {n : Name} {rest : List Component} {reason : Errno}
      {e : Entry} (searchable : t.searchError? p = none) (present : t.child? p n = some e)
      (no_link : ∀ target, e ≠ .link target)
      (onward : Fails t links (.live (n :: p.location)) rest reason) :
      Fails t links p (.name n :: rest) reason
  | follows {links : Nat} {p : Place} {n : Name} {rest : List Component} {reason : Errno}
      {target : LinkTarget} (searchable : t.searchError? p = none)
      (present : t.child? p n = some (.link target))
      (onward : Fails t links (linkOrigin p target) (target.way ++ rest) reason) :
      Fails t (links + 1) p (.name n :: rest) reason

variable {t : FileTree} {p : Place} {path rest : List Component} {c : Component} {links : Nat}
variable {reason : Errno}

theorem held?_eq_none (h : ∀ permissions, t.entryAt? p ≠ some (.directory permissions)) :
    t.held? p = none := by
  apply Option.eq_none_iff_forall_ne_some.2
  rintro ⟨permissions, held⟩ hp
  exact h permissions (entryAt?_eq_directory_iff.2 ⟨held, hp⟩)

theorem walk_of_no_directory (h : ∀ permissions, t.entryAt? p ≠ some (.directory permissions)) :
    t.walk .following links p (c :: rest) = .error .notDirectory := by
  rw [walk_cons, held?_eq_none h]

theorem walk_of_searchError? (h : t.searchError? p = some reason) (hc : c ≠ .nothing) :
    t.walk .following links p (c :: rest) = .error reason := by
  unfold searchError? at h
  split at h
  · next permissions hentry =>
    split at h
    · simp at h
    · next hx =>
      obtain ⟨held, hp⟩ := entryAt?_eq_directory_iff.1 hentry
      simp only [Bool.not_eq_true] at hx
      rw [walk_cons, hp, ← Option.some.inj h]
      simp [hx, hc]
  · next hno => rw [walk_of_no_directory hno, ← Option.some.inj h]

/-- A walk that fails is one by the rules. -/
theorem fails_of_walk (h : t.walk .following links p path = .error reason) :
    Fails t links p path reason := by
  induction links, p, path using walk_induction with
  | arrives links p => simp [walk_nil] at h
  | walks links p c rest ih ihLinks =>
    by_cases hc : c = .nothing
    · subst hc
      by_cases hp : ∃ permissions, t.entryAt? p = some (.directory permissions)
      · obtain ⟨permissions, hdirectory⟩ := hp
        obtain ⟨held, hp⟩ := entryAt?_eq_directory_iff.1 hdirectory
        exact .closes hdirectory (ih _ (walk_nothing hp ▸ h))
      · rw [walk_of_no_directory (not_exists.1 hp)] at h
        exact Except.error.inj h ▸ .wants links (not_exists.1 hp)
    have hm := Manner.following_ne_making
    cases hsearch : t.searchError? p with
    | some other =>
      rw [walk_of_searchError? hsearch hc] at h
      exact .barred links hc (hsearch.trans (congrArg some (Except.error.inj h)))
    | none =>
      obtain ⟨held, hp⟩ := searchError?_eq_none_iff.1 hsearch
      cases c with
      | nothing => exact absurd rfl hc
      | here => exact .here hsearch (ih _ (hp.walk_here ▸ h))
      | up => exact .up hsearch (ih _ (hp.walk_up ▸ h))
      | name n =>
        have hchild : t.child? p n = (held.lookup n).map Prod.fst := hp.child?_eq
        cases hn : held.lookup n with
        | none =>
          rw [hp.walk_missing hn hm] at h
          split at h
          · simp at h
          · next hrest =>
            exact Except.error.inj h ▸ .lacks links hsearch (by simp [hchild, hn]) hrest
        | some found =>
          obtain ⟨e, below⟩ := found
          have hpresent : t.child? p n = some e := by simp [hchild, hn]
          by_cases he : ∃ target, e = .link target
          · obtain ⟨target, rfl⟩ := he
            rw [hp.walk_link hn (.inl rfl)] at h
            cases links with
            | zero => exact Except.error.inj h ▸ .exhausted hsearch hpresent
            | succ links =>
              exact .follows hsearch hpresent (ihLinks links (Nat.lt_succ_self links) _ _ h)
          · have hno := not_exists.1 he
            exact .enters hsearch hpresent hno (ih _ (hp.walk_name hn hno hm ▸ h))

theorem Fails.walk_eq (h : Fails t links p path reason) :
    t.walk .following links p path = .error reason := by
  have hm := Manner.following_ne_making
  induction h with
  | barred links asked closed => exact walk_of_searchError? closed asked
  | wants links no_directory => exact walk_of_no_directory no_directory
  | lacks links searchable missing more =>
    obtain ⟨held, hp⟩ := searchError?_eq_none_iff.1 searchable
    rw [hp.child?_eq, Option.map_eq_none_iff] at missing
    rw [hp.walk_missing missing hm, if_neg more]
  | exhausted searchable present =>
    obtain ⟨held, hp⟩ := searchError?_eq_none_iff.1 searchable
    obtain ⟨below, hn⟩ := hp.exists_lookup present
    rw [hp.walk_link hn (.inl rfl)]
    rfl
  | here searchable _ ih =>
    obtain ⟨held, hp⟩ := searchError?_eq_none_iff.1 searchable
    rw [hp.walk_here, ih]
  | up searchable _ ih =>
    obtain ⟨held, hp⟩ := searchError?_eq_none_iff.1 searchable
    rw [hp.walk_up, ih]
  | closes directory _ ih =>
    obtain ⟨held, hp⟩ := entryAt?_eq_directory_iff.1 directory
    rw [walk_nothing hp, ih]
  | enters searchable present no_link _ ih =>
    obtain ⟨held, hp⟩ := searchError?_eq_none_iff.1 searchable
    obtain ⟨below, hn⟩ := hp.exists_lookup present
    rw [hp.walk_name hn no_link hm, ih]
  | follows searchable present _ ih =>
    obtain ⟨held, hp⟩ := searchError?_eq_none_iff.1 searchable
    obtain ⟨below, hn⟩ := hp.exists_lookup present
    rw [hp.walk_link hn (.inl rfl)]
    exact ih

theorem walk_eq_error_iff :
    t.walk .following links p path = .error reason ↔ Fails t links p path reason :=
  ⟨fails_of_walk, Fails.walk_eq⟩

end PocketShell.FileTree
