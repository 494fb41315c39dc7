import PocketShell.Proofs.Calls
import PocketShell.Proofs.PathText
import PocketShell.Proofs.WalkRules
import Mathlib.Data.List.Perm.Subperm

/-!
# Open ways

A location is on an open way if every directory above it may be searched. From the root, the names
of such a location lead to it without a link, so that its path can be looked at and entered. A walk
that starts on an open way ends on one.
-/

namespace PocketShell

namespace FileTree

/-- Every directory above the location may be searched. -/
def OpenAbove (t : FileTree) (l : Location) : Prop :=
  ∀ above, above <:+ l.tail → t.searchError? (.live above) = none

variable {t : FileTree} {p q : Place} {l : Location} {n : Name} {path : List Component}
variable {links : Nat} {e : Entry}

theorem openAbove_nil (t : FileTree) : t.OpenAbove [] := by
  intro above habove
  rw [List.tail_nil, List.suffix_nil] at habove
  rw [habove]
  rfl

theorem openAbove_cons_iff :
    t.OpenAbove (n :: l) ↔ t.searchError? (.live l) = none ∧ t.OpenAbove l := by
  constructor
  · intro h
    refine ⟨h l (List.suffix_refl l), fun above habove => h above ?_⟩
    exact habove.trans (List.tail_suffix l)
  · rintro ⟨hl, habove⟩ above hsuffix
    cases l with
    | nil => exact List.suffix_nil.1 hsuffix ▸ hl
    | cons m parent =>
      rcases List.suffix_cons_iff.1 hsuffix with rfl | hsuffix
      · exact hl
      · exact habove above hsuffix

theorem OpenAbove.tail (h : t.OpenAbove l) : t.OpenAbove l.tail := by
  intro above habove
  exact h above (habove.trans (List.tail_suffix l.tail))

theorem openAbove_linkOrigin (hp : t.OpenAbove p.location) (target : LinkTarget) :
    t.OpenAbove (linkOrigin p target).location := by
  unfold linkOrigin
  split
  · exact openAbove_nil t
  · exact hp

/-- A walk that starts on an open way ends on one. -/
theorem Walks.openAbove (h : Walks t links p path (.found q)) (hlive : p.removed = [])
    (hp : t.OpenAbove p.location) : q.removed = [] ∧ t.OpenAbove q.location := by
  generalize hspot : Spot.found q = spot at h
  induction h with
  | arrives links p =>
    obtain rfl := Spot.found.inj hspot
    exact ⟨hlive, hp⟩
  | here searchable _ ih => exact ih hlive hp hspot
  | up searchable _ ih =>
    refine ih (Place.removed_parent hlive) ?_ hspot
    simpa [Place.parent, hlive, Place.live] using hp.tail
  | closes _ _ ih => exact ih hlive hp hspot
  | misses => simp at hspot
  | enters searchable _ _ _ ih =>
    rw [← Place.live_location hlive] at searchable
    exact ih rfl (openAbove_cons_iff.2 ⟨searchable, hp⟩) hspot
  | follows searchable _ _ ih =>
    refine ih ?_ (openAbove_linkOrigin hp _) hspot
    unfold linkOrigin
    split
    · rfl
    · exact hlive

theorem entryAt?_of_live (hlive : p.removed = []) : t.entryAt? p = t.find? p.location := by
  simp [entryAt?, hlive]

theorem leads_name (hsearch : t.searchError? (.live l) = none) (hn : t.find? (n :: l) = some e)
    (he : ∀ target, e ≠ .link target) : t.Leads (.live l) [.name n] 0 (.live (n :: l)) := by
  obtain ⟨held, hs⟩ := searchError?_eq_none_iff.1 hsearch
  obtain ⟨below, hlookup⟩ := hs.exists_lookup (p := .live l) hn
  exact .name hs hlookup he

/-- The names of a directory on an open way lead to it. -/
theorem OpenAbove.leads {permissions : Permissions} (h : t.OpenAbove l)
    (hl : t.find? l = some (.directory permissions)) :
    t.Leads .root (l.reverse.map .name) 0 (.live l) := by
  induction l generalizing permissions with
  | nil => exact .nil t .root
  | cons n above ih =>
    obtain ⟨hsearch, habove⟩ := openAbove_cons_iff.1 h
    obtain ⟨permissions', hparent⟩ := find?_parent hl
    have hstep := leads_name hsearch hl fun target => by simp
    simpa using (ih habove hparent).append hstep

/-- What a directory holds is listed. -/
theorem mem_locationsBelow {s : Location} (above : Location) (h : t.find? (s ++ [n]) = some e) :
    s ++ n :: above ∈ locationsBelow above t := by
  induction t generalizing s n above with
  | empty => simp [find?_of_lookup_none (t := .empty) (n := n) rfl s] at h
  | cons name entry below others ihBelow ihOthers =>
    rw [locationsBelow, List.mem_cons, List.mem_append]
    by_cases hname : name = n
    · subst hname
      rcases List.eq_nil_or_concat s with rfl | ⟨s, m, rfl⟩
      · exact .inl rfl
      · rw [List.concat_eq_append, List.append_assoc, List.singleton_append] at h ⊢
        refine .inr (.inl (ihBelow (name :: above) ?_))
        rw [find?_append] at h
        cases entry with
        | directory permissions => simpa [contents?, lookup, directory?] using h
        | file permissions text program => simp [contents?, lookup, directory?] at h
        | link target => simp [contents?, lookup, directory?] at h
    · refine .inr (.inr (ihOthers above ?_))
      have hlookup : (cons name entry below others).lookup n = others.lookup n := by
        simp [lookup, hname]
      rwa [← find?_congr hlookup s]

theorem mem_locations (hne : l ≠ []) (h : t.find? l = some e) : l ∈ locationsBelow [] t := by
  rcases List.eq_nil_or_concat l with rfl | ⟨s, n, rfl⟩
  · exact absurd rfl hne
  · rw [List.concat_eq_append] at h ⊢
    exact mem_locationsBelow [] h

theorem length_locationsBelow (above : Location) : (locationsBelow above t).length = t.size := by
  induction t generalizing above with
  | empty => rfl
  | cons name entry below others ihBelow ihOthers =>
    simp [locationsBelow, size, ihBelow, ihOthers]

/-- A tree holds no more locations than its size. -/
theorem length_le_size {locations : List Location} (hnodup : locations.Nodup)
    (hfound : ∀ l ∈ locations, l ≠ [] ∧ t.find? l ≠ none) : locations.length ≤ t.size := by
  rw [← length_locationsBelow []]
  refine (List.subperm_of_subset hnodup fun l hl => ?_).length_le
  obtain ⟨hne, hl⟩ := hfound l hl
  obtain ⟨e, hl⟩ := Option.ne_none_iff_exists'.1 hl
  exact mem_locations hne hl

end FileTree

namespace Machine

open FileTree

variable {m : Machine} {l : Location} {n : Name}

/-- The path of what stands in a directory on an open way is looked at without following it. -/
theorem lstat_ofLocation {e : Entry} (hopen : m.tree.OpenAbove (n :: l))
    (hn : m.tree.find? (n :: l) = some e) : m.lstat (Path.ofLocation (n :: l)) = .ok e := by
  obtain ⟨hsearch, habove⟩ := openAbove_cons_iff.1 hopen
  obtain ⟨permissions, hl⟩ := find?_parent hn
  have hplace : m.place .keeping (Path.ofLocation (n :: l)) = .ok (.live (n :: l)) := by
    apply place_of_walk (Path.no_nul_ofLocation _) (List.cons_ne_nil _ _)
    have hw := habove.leads hl .keeping maxLinks [.name n] (.inr ⟨rfl, by simp⟩)
    rw [Nat.zero_add] at hw
    rw [Path.way_ofLocation, List.reverse_cons, List.map_append]
    refine hw.trans ?_
    obtain ⟨held, hs⟩ := searchError?_eq_none_iff.1 hsearch
    obtain ⟨below, hlookup⟩ := hs.exists_lookup (p := .live l) hn
    by_cases he : ∃ target, e = .link target
    · obtain ⟨target, rfl⟩ := he
      exact hs.walk_kept hlookup
    · rw [hs.walk_name hlookup (not_exists.1 he) (by decide), walk_nil]
      rfl
  simp [lstat, entry, hplace, FileTree.entryAt?, Place.live, hn]

/-- The path of a directory on an open way leads to it. -/
theorem place_ofLocation {permissions : Permissions} (hopen : m.tree.OpenAbove l)
    (hl : m.tree.find? l = some (.directory permissions)) :
    m.place .following (Path.ofLocation l) = .ok (.live l) := by
  have hw := (hopen.leads hl).walk maxLinks
  cases l with
  | nil => rfl
  | cons n above =>
    rw [Nat.zero_add, ← Path.way_ofLocation] at hw
    exact place_of_walk (Path.no_nul_ofLocation _) (List.cons_ne_nil _ _) hw

end Machine

end PocketShell
