import PocketShell.FileTree.View
import PocketShell.FileTree.Walk

/-!
# Walks in parts

A walk that comes through can be cut anywhere: its first components lead to a place and follow some
links, and from that place the rest is walked with the links that are left. What the first
components do does not depend on the rest, nor on how many links may still be followed.
-/

namespace PocketShell

namespace Place

theorem removed_parent {p : Place} (h : p.removed = []) : p.parent.removed = [] := by
  simp [parent, h, live]

theorem live_location {p : Place} (h : p.removed = []) : live p.location = p := by
  cases p
  cases h
  rfl

end Place

theorem Manner.following_ne_making : Manner.following ≠ .making := by
  decide

/-- What stands last is walked as it is anywhere else, if so much is left to walk behind it. -/
def Manner.GoesOn (manner : Manner) (rest : List Component) : Prop :=
  manner = .following ∨ manner = .keeping ∧ rest ≠ []

namespace Manner.GoesOn

variable {manner : Manner} {rest : List Component}

theorem not_making (h : manner.GoesOn rest) : manner ≠ .making := by
  rintro rfl
  simp [GoesOn] at h

theorem not_kept (h : manner.GoesOn rest) : ¬ (manner = .keeping ∧ rest = []) := by
  rintro ⟨rfl, rfl⟩
  simp [GoesOn] at h

/-- The more is left to walk, the less comes last. -/
theorem append (h : manner.GoesOn rest) (path : List Component) : manner.GoesOn (path ++ rest) :=
  h.imp_right fun hkept => ⟨hkept.1, fun hnil => hkept.2 (List.append_eq_nil_iff.1 hnil).2⟩

end Manner.GoesOn

namespace FileTree

/-- From one place the components lead to another and follow so many links on the way, whatever is
walked behind them, if what comes last is walked as it is anywhere else. -/
def Leads (t : FileTree) (p : Place) (path : List Component) (used : Nat) (q : Place) : Prop :=
  ∀ (manner : Manner) links rest, manner.GoesOn rest →
    t.walk manner (used + links) p (path ++ rest) = t.walk manner links q rest

/-- A place that may be searched, and what it holds. -/
def Searches (t : FileTree) (p : Place) (held : FileTree) : Prop :=
  ∃ permissions, t.held? p = some (permissions, held) ∧ permissions.execute = true

variable {t : FileTree} {p q r : Place} {a b : List Component} {c : Component} {n : Name}
variable {i j links : Nat} {held below : FileTree} {manner : Manner}

/-- Induction over walks. A link puts its target in front of what is left to walk, so that what is
shown for fewer links has to hold of every path. -/
theorem walk_induction {motive : Nat → Place → List Component → Prop}
    (arrives : ∀ links p, motive links p [])
    (walks : ∀ links p c rest, (∀ q, motive links q rest) →
      (∀ fewer < links, ∀ q path, motive fewer q path) → motive links p (c :: rest))
    (links : Nat) (p : Place) (path : List Component) : motive links p path := by
  induction links using Nat.strongRecOn generalizing p path with
  | ind links ihLinks =>
    induction path generalizing p with
    | nil => exact arrives links p
    | cons c rest ih => exact walks links p c rest ih fun fewer hless _ _ => ihLinks fewer hless _ _

theorem searches_of_walk {spot : Spot} (h : t.walk manner links p (c :: a) = .ok spot)
    (hc : c ≠ .nothing) : ∃ held, t.Searches p held := by
  rw [walk_cons] at h
  cases hp : t.held? p with
  | none => simp [hp] at h
  | some directory =>
    obtain ⟨permissions, held⟩ := directory
    cases hx : permissions.execute with
    | true => exact ⟨held, permissions, hp, hx⟩
    | false => simp [hp, hx, hc] at h

/-- Nothing behind a last slash only asks for a directory. -/
theorem held?_of_walk_nothing {spot : Spot}
    (h : t.walk manner links p (.nothing :: a) = .ok spot) :
    ∃ directory, t.held? p = some directory := by
  rw [walk_cons] at h
  cases hp : t.held? p with
  | none => simp [hp] at h
  | some directory => exact ⟨directory, rfl⟩

theorem walk_nothing {directory : Permissions × FileTree} (h : t.held? p = some directory) :
    t.walk manner links p (.nothing :: a) = t.walk manner links p a := by
  simp [walk_cons, h]

theorem Searches.walk_here (h : t.Searches p held) :
    t.walk manner links p (.here :: a) = t.walk manner links p a := by
  obtain ⟨permissions, hp, hx⟩ := h
  simp [walk_cons, hp, hx]

theorem Searches.walk_up (h : t.Searches p held) :
    t.walk manner links p (.up :: a) = t.walk manner links p.parent a := by
  obtain ⟨permissions, hp, hx⟩ := h
  simp [walk_cons, hp, hx]

theorem Searches.walk_missing (h : t.Searches p held) (hn : held.lookup n = none)
    (hm : manner ≠ .making) :
    t.walk manner links p (.name n :: a) =
      if a = [] then .ok (.missing p n) else .error .noEntry := by
  obtain ⟨permissions, hp, hx⟩ := h
  simp [walk_cons, hp, hx, hn, hm]

theorem Searches.walk_link {target : LinkTarget} (h : t.Searches p held)
    (hn : held.lookup n = some (.link target, below)) (hm : manner.GoesOn a) :
    t.walk manner links p (.name n :: a) =
      t.follow manner links (linkOrigin p target) (target.way ++ a) := by
  obtain ⟨permissions, hp, hx⟩ := h
  simp [walk_cons, hp, hx, hn, hm.not_making, if_neg hm.not_kept]

/-- A link that comes last and is to be kept is where the walk ends. -/
theorem Searches.walk_kept {target : LinkTarget} (h : t.Searches p held)
    (hn : held.lookup n = some (.link target, below)) :
    t.walk .keeping links p [.name n] = .ok (.found (.live (n :: p.location))) := by
  obtain ⟨permissions, hp, hx⟩ := h
  simp [walk_cons, hp, hx, hn]

theorem Searches.walk_name {e : Entry} (h : t.Searches p held)
    (hn : held.lookup n = some (e, below)) (he : ∀ target, e ≠ .link target)
    (hm : manner ≠ .making) :
    t.walk manner links p (.name n :: a) =
      t.walk manner links (.live (n :: p.location)) a := by
  obtain ⟨permissions, hp, hx⟩ := h
  cases e with
  | directory permissions => simp [walk_cons, hp, hx, hn, hm]
  | file permissions text program => simp [walk_cons, hp, hx, hn, hm]
  | link target => exact absurd rfl (he target)

/-- What is removed holds nothing. -/
theorem Searches.removed_eq_nil (h : t.Searches p held) {found : Entry × FileTree}
    (hn : held.lookup n = some found) : p.removed = [] := by
  obtain ⟨permissions, hp, -⟩ := h
  cases hr : p.removed with
  | nil => rfl
  | cons gone above =>
    simp only [held?, hr, Option.some.injEq, Prod.mk.injEq] at hp
    simp [← hp.2, lookup] at hn

/-- A name in a place that may be searched stands for what is found below the place. -/
theorem Searches.entryAt?_name (h : t.Searches p held) {e : Entry}
    (hn : held.lookup n = some (e, below)) : t.entryAt? (.live (n :: p.location)) = some e := by
  have hremoved := h.removed_eq_nil hn
  obtain ⟨permissions, hp, -⟩ := h
  rw [held?, hremoved] at hp
  simp [entryAt?, Place.live, find?_cons, hp, hn]

/-- A directory in a place that may be searched holds what is below its name. -/
theorem Searches.searches_name {permissions : Permissions} (h : t.Searches p held)
    (hn : held.lookup n = some (.directory permissions, below)) (hx : permissions.execute = true) :
    t.Searches (.live (n :: p.location)) below := by
  obtain ⟨permissions', hp, -⟩ := h
  refine ⟨permissions, ?_, hx⟩
  rw [held?_name hp hn]
  rfl

theorem Searches.entryAt?_eq (h : t.Searches p held) :
    ∃ permissions, t.entryAt? p = some (.directory permissions) := by
  obtain ⟨permissions, hp, -⟩ := h
  refine ⟨permissions, ?_⟩
  cases hr : p.removed with
  | nil =>
    simp only [held?, hr] at hp
    simpa [entryAt?, hr] using find?_eq_directory_iff.2 ⟨held, hp⟩
  | cons gone above =>
    simp only [held?, hr, Option.some.injEq, Prod.mk.injEq] at hp
    simp [entryAt?, hr, hp.1]

theorem Searches.eq_of_walk_names (h : t.Searches p .empty) (hm : manner ≠ .making)
    {names : List Name} (hw : t.walk manner links p (names.map .name) = .ok (.found q)) :
    q = p := by
  cases names with
  | nil =>
    rw [List.map_nil, walk_nil] at hw
    exact (Spot.found.inj (Except.ok.inj hw)).symm
  | cons n names =>
    rw [List.map_cons, h.walk_missing rfl hm] at hw
    split at hw <;> simp at hw

/-- Above a directory of the tree stands a directory. -/
theorem Searches.entryAt?_parent (h : t.Searches p held) (hlive : p.removed = []) :
    ∃ permissions, t.entryAt? p.parent = some (.directory permissions) := by
  obtain ⟨permissions, hp⟩ := h.entryAt?_eq
  simp only [entryAt?, hlive] at hp
  simp only [entryAt?, Place.parent, hlive, Place.live]
  cases hl : p.location with
  | nil => exact ⟨.all, rfl⟩
  | cons n above =>
    rw [hl] at hp
    exact find?_parent hp

namespace Leads

theorem nil (t : FileTree) (p : Place) : t.Leads p [] 0 p := by
  intro manner links rest _
  rw [Nat.zero_add, List.nil_append]

theorem append (hpq : t.Leads p a i q) (hqr : t.Leads q b j r) : t.Leads p (a ++ b) (i + j) r := by
  intro manner links rest hm
  rw [List.append_assoc, Nat.add_assoc, hpq manner (j + links) (b ++ rest) (hm.append b),
    hqr manner links rest hm]

theorem here (h : t.Searches p held) : t.Leads p [.here] 0 p := by
  intro manner links rest _
  rw [Nat.zero_add, List.singleton_append, h.walk_here]

theorem up (h : t.Searches p held) : t.Leads p [.up] 0 p.parent := by
  intro manner links rest _
  rw [Nat.zero_add, List.singleton_append, h.walk_up]

theorem name {e : Entry} (h : t.Searches p held) (hn : held.lookup n = some (e, below))
    (he : ∀ target, e ≠ .link target) : t.Leads p [.name n] 0 (.live (n :: p.location)) := by
  intro manner links rest hm
  rw [Nat.zero_add, List.singleton_append, h.walk_name hn he hm.not_making]

theorem nothing {directory : Permissions × FileTree} (h : t.held? p = some directory) :
    t.Leads p [.nothing] 0 p := by
  intro manner links rest _
  rw [Nat.zero_add, List.singleton_append, walk_nothing h]

/-- A link takes one of the links that may be followed, and leads where its target does. -/
theorem link {target : LinkTarget} (h : t.Searches p held)
    (hn : held.lookup n = some (.link target, below))
    (htarget : t.Leads (linkOrigin p target) target.way i q) : t.Leads p [.name n] (i + 1) q := by
  intro manner links rest hm
  rw [List.singleton_append, h.walk_link hn hm, Nat.add_right_comm]
  exact htarget manner links rest hm

theorem walk (h : t.Leads p a i q) (links : Nat) :
    t.walk .following (i + links) p a = .ok (.found q) := by
  have hq := h .following links [] (.inl rfl)
  rwa [List.append_nil, walk_nil] at hq

theorem unique (h : t.Leads p a i q) (h' : t.Leads p a j r) : q = r := by
  have hq := h.walk j
  rw [Nat.add_comm, h'.walk i] at hq
  exact (Spot.found.inj (Except.ok.inj hq)).symm

end Leads

/-- A walk that comes through is cut behind its first components. It does not come to a removed
directory unless it starts from one. -/
theorem exists_leads (h : t.walk .following links p (a ++ b) = .ok (.found r)) :
    ∃ used left q, links = used + left ∧ t.Leads p a used q ∧
      t.walk .following left q b = .ok (.found r) ∧ (p.removed = [] → q.removed = []) := by
  induction links, p, a using walk_induction generalizing b with
  | arrives links p => exact ⟨0, links, p, (Nat.zero_add links).symm, .nil t p, h, id⟩
  | walks links p c a ih ihLinks =>
    have onward {p' : Place} (hstep : t.Leads p [c] 0 p')
        (hlive : p.removed = [] → p'.removed = [])
        (hrest : t.walk .following links p' (a ++ b) = .ok (.found r)) :
        ∃ used left q, links = used + left ∧ t.Leads p (c :: a) used q ∧
          t.walk .following left q b = .ok (.found r) ∧ (p.removed = [] → q.removed = []) := by
      obtain ⟨used, left, q, hlinks, hleads, hwalk, hq⟩ := ih p' hrest
      exact ⟨used, left, q, hlinks, by simpa using hstep.append hleads, hwalk, hq ∘ hlive⟩
    rw [List.cons_append] at h
    by_cases hc : c = .nothing
    · subst hc
      obtain ⟨directory, hp⟩ := held?_of_walk_nothing h
      exact onward (.nothing hp) id (walk_nothing hp ▸ h)
    obtain ⟨held, hp⟩ := searches_of_walk h hc
    have hm := Manner.following_ne_making
    cases c with
    | nothing => exact absurd rfl hc
    | here => exact onward (.here hp) id (hp.walk_here ▸ h)
    | up => exact onward (.up hp) Place.removed_parent (hp.walk_up ▸ h)
    | name n =>
      cases hn : held.lookup n with
      | none =>
        rw [hp.walk_missing hn hm] at h
        split at h <;> simp at h
      | some found =>
        obtain ⟨e, below⟩ := found
        cases e with
        | directory permissions =>
          have he : ∀ target, Entry.directory permissions ≠ .link target := by simp
          exact onward (.name hp hn he) (fun _ => rfl) (hp.walk_name hn he hm ▸ h)
        | file permissions text program =>
          have he : ∀ target, Entry.file permissions text program ≠ .link target := by simp
          exact onward (.name hp hn he) (fun _ => rfl) (hp.walk_name hn he hm ▸ h)
        | link target =>
          rw [hp.walk_link hn (.inl rfl)] at h
          cases links with
          | zero => simp [follow] at h
          | succ links =>
            obtain ⟨i, left, q, hi, hq, hleft, hlive⟩ := ihLinks links (Nat.lt_succ_self _) _ _ h
            obtain ⟨j, left', q', hj, hq', hleft', hlive'⟩ := ihLinks left (by omega) _ _ hleft
            have hleads := (Leads.link hp hn hq).append hq'
            have horigin (hremoved : p.removed = []) : (linkOrigin p target).removed = [] := by
              unfold linkOrigin
              split
              · rfl
              · exact hremoved
            exact ⟨i + 1 + j, left', q', by omega, hleads, hleft', hlive' ∘ hlive ∘ horigin⟩

/-- With more links a walk that comes through comes to the same place. -/
theorem walk_of_le (h : t.walk .following i p a = .ok (.found r)) (hij : i ≤ j) :
    t.walk .following j p a = .ok (.found r) := by
  rw [← List.append_nil a] at h
  obtain ⟨used, left, q, hi, hleads, hq, -⟩ := exists_leads h
  obtain rfl : q = r := by simpa [walk_nil] using hq
  obtain ⟨k, rfl⟩ := Nat.le.dest hij
  rw [hi, Nat.add_assoc]
  exact hleads.walk (left + k)

/-- A directory behind which nothing comes is what is found without. -/
theorem walk_of_append_nothing (h : t.walk .following links p (a ++ [.nothing]) = .ok (.found r)) :
    t.walk .following links p a = .ok (.found r) := by
  obtain ⟨used, left, q, hlinks, hleads, hwalk, -⟩ := exists_leads h
  obtain ⟨directory, hq⟩ := held?_of_walk_nothing hwalk
  rw [walk_nothing hq, walk_nil] at hwalk
  obtain rfl := Spot.found.inj (Except.ok.inj hwalk)
  exact hlinks ▸ hleads.walk left

/-- What all of a path leads to, its components lead to. -/
theorem walk_components_of_way {path : Text}
    (h : t.walk .following links p (Path.way path) = .ok (.found r)) :
    t.walk .following links p (Path.components path) = .ok (.found r) := by
  unfold Path.way at h
  split at h
  · exact walk_of_append_nothing h
  · rwa [List.append_nil] at h

end FileTree

end PocketShell
