import PocketShell.Proofs.LookUp
import PocketShell.Proofs.Walking

/-!
# The file that a look-up names

A look-up checks a path below a directory of the search path, and answers the normalised form of
that path. Normalising works on the text: a component that goes up takes the name before it back. So
the answer names the file that was checked as long as no link is taken back, and, for a relative
directory, as long as the path of the working directory leads there.
-/

namespace PocketShell.Resolution

open FileTree SearchPath

/-- Both paths lead to one file, which may be run. -/
def SameFile (m : Machine) (p q : Text) : Prop :=
  m.canRun p = true ∧ m.place .following p = m.place .following q

/-- The names of a location lead from the root to a link. -/
def IsLink (t : FileTree) (l : Location) : Prop :=
  ∃ p target, t.walk .keeping maxLinks .root (l.reverse.map .name) = .ok (.found p) ∧
    t.entryAt? p = some (.link target)

/-- No component that goes up takes a link back, when the components are followed on the text from a
location. -/
def KeepsLinks (t : FileTree) : Location → List Component → Prop
  | _, [] => True
  | l, .here :: rest => KeepsLinks t l rest
  | l, .nothing :: rest => KeepsLinks t l rest
  | l, .up :: rest => ¬ IsLink t l ∧ KeepsLinks t l.tail rest
  | l, .name n :: rest => KeepsLinks t (n :: l) rest

/-- The location from which the text of a directory is followed. -/
def base (m : Machine) (directory : Text) : Location :=
  if Path.isAbsolute directory then [] else m.cwd.location

/-- The text of a directory agrees with the tree: it takes no link back, and if it is relative, the
path of the working directory leads to the working directory. -/
def Faithful (m : Machine) (directory : Text) : Prop :=
  (Path.isAbsolute directory = false →
    m.place .following (Path.ofLocation m.cwd.location) = .ok m.cwd) ∧
  KeepsLinks m.tree (base m directory) (Path.components directory)

variable {t : FileTree} {m : Machine} {p q r : Place} {l : Location} {n : Name} {links used : Nat}

/-- Where the names of a location lead, the names above it lead to the place above, unless the
location is a link. -/
theorem exists_leads_tail (h : t.Leads .root (l.reverse.map .name) used p) (hused : used ≤ maxLinks)
    (hlink : ¬ IsLink t l) :
    ∃ used' ≤ used, t.Leads .root (l.tail.reverse.map .name) used' p.parent := by
  cases l with
  | nil =>
    obtain rfl : p = .root := h.unique (.nil t .root)
    exact ⟨0, Nat.zero_le _, .nil t .root⟩
  | cons n above =>
    have hsplit : ((n :: above).reverse.map Component.name) =
        above.reverse.map .name ++ [.name n] := by simp
    have hw := h.walk 0
    rw [hsplit] at hw
    obtain ⟨i, left, q, hi, hq, hlast, -⟩ := exists_leads hw
    obtain ⟨held, hs⟩ := searches_of_walk hlast (by simp)
    have hm := Manner.following_ne_making
    refine ⟨i, by omega, ?_⟩
    rw [List.tail_cons]
    suffices hparent : p.parent = q by rw [hparent]; exact hq
    cases hn : held.lookup n with
    | none => simp [hs.walk_missing hn hm] at hlast
    | some found =>
      obtain ⟨e, below⟩ := found
      by_cases he : ∃ target, e = .link target
      · obtain ⟨target, rfl⟩ := he
        refine absurd ⟨.live (n :: q.location), target, ?_, hs.entryAt?_name hn⟩ hlink
        obtain ⟨k, hk⟩ : ∃ k, maxLinks = i + k := ⟨maxLinks - i, by omega⟩
        rw [hsplit, hk, hq .keeping k [.name n] (.inr ⟨rfl, by simp⟩), hs.walk_kept hn]
      · rw [hs.walk_name hn (not_exists.1 he) hm, walk_nil] at hlast
        obtain rfl := Spot.found.inj (Except.ok.inj hlast)
        exact Place.live_location (hs.removed_eq_nil hn)

/-- A walk along components that take no link back, and the names that their text leaves, come to
the same place; the names follow no more links than the walk. -/
theorem exists_leads_spelledFrom {path rest : List Component}
    (hleads : t.Leads .root (l.reverse.map .name) used p) (hused : used + links ≤ maxLinks)
    (hkeeps : KeepsLinks t l path)
    (hw : t.walk .following links p (path ++ rest) = .ok (.found r)) :
    ∃ used' left q, used' + left ≤ maxLinks ∧
      t.Leads .root ((Path.spelledFrom l path).reverse.map .name) used' q ∧
      t.walk .following left q rest = .ok (.found r) := by
  induction path generalizing l p used links with
  | nil => exact ⟨used, links, p, hused, hleads, hw⟩
  | cons c path ih =>
    rw [List.cons_append] at hw
    cases c with
    | nothing =>
      obtain ⟨directory, hp⟩ := held?_of_walk_nothing hw
      rw [walk_nothing hp] at hw
      exact ih hleads hused hkeeps hw
    | here =>
      obtain ⟨held, hs⟩ := searches_of_walk hw (by simp)
      rw [hs.walk_here] at hw
      exact ih hleads hused hkeeps hw
    | up =>
      obtain ⟨held, hs⟩ := searches_of_walk hw (by simp)
      rw [hs.walk_up] at hw
      obtain ⟨used', hle, habove⟩ := exists_leads_tail hleads (by omega) hkeeps.1
      exact ih habove (by omega) hkeeps.2 hw
    | name n =>
      obtain ⟨i, left, q, hi, hq, hleft, -⟩ := exists_leads (a := [.name n]) hw
      have hn : t.Leads .root ((n :: l).reverse.map .name) (used + i) q := by
        simpa using hleads.append hq
      exact ih hn (by omega) hkeeps hleft

/-- A special name leads to a directory, so what can be run has a name. -/
theorem exists_name_of_canRun {directory name : Text} (hn : isName name = true)
    (hrun : m.canRun (Path.join directory name) = true)
    (hlive : (m.origin (Path.join directory name)).removed = []) : ∃ n : Name, n.text = name := by
  obtain ⟨p, permissions, text, program, hplace, hentry, -⟩ := Machine.canRun_iff.1 hrun
  obtain ⟨hchecked, hway⟩ := Machine.walk_of_place hplace
  have hw := walk_components_of_way hway
  have hslash := no_slash_of_isName hn
  have hrel := Path.isAbsolute_of_no_slash hslash
  have hnul : '\x00' ∉ name := fun hc => hchecked (Path.mem_join hrel (.inr hc))
  cases hc : Component.ofText? name with
  | none =>
    exact absurd ((Component.ofText?_eq_none_iff hslash).1 hc) (by simp [ne_nil_of_isName hn, hnul])
  | some c =>
    have hcomponents : Path.components (Path.join directory name) =
        Path.components directory ++ [c] := by
      rw [Path.components_join hrel]
      simp [Path.components, Text.fields_of_not_mem hslash, hc]
    rw [hcomponents] at hw
    obtain ⟨used, left, q, -, -, hlast, hremoved⟩ := exists_leads hw
    have hasked : c ≠ .nothing := fun h => Component.ofText?_ne_nothing name (h ▸ hc)
    obtain ⟨held, hs⟩ := searches_of_walk hlast hasked
    have isFile (permissions' : Permissions) :
        m.tree.entryAt? p ≠ some (.directory permissions') := by simp [hentry]
    cases c with
    | here =>
      rw [hs.walk_here, walk_nil] at hlast
      obtain rfl := Spot.found.inj (Except.ok.inj hlast)
      obtain ⟨permissions', hdir⟩ := hs.entryAt?_eq
      exact absurd hdir (isFile permissions')
    | up =>
      rw [hs.walk_up, walk_nil] at hlast
      obtain rfl := Spot.found.inj (Except.ok.inj hlast)
      obtain ⟨permissions', hdir⟩ := hs.entryAt?_parent (hremoved hlive)
      exact absurd hdir (isFile permissions')
    | name n => exact ⟨n, Component.text_of_ofText? hc⟩
    | nothing => exact absurd rfl hasked

theorem spelled_whole {base : Location} {whole : Text} {path : List Component}
    (hwhole : Path.components whole = base.reverse.map .name ++ path ++ [.name n]) :
    Path.spelledFrom [] (Path.components whole) = n :: Path.spelledFrom base path := by
  rw [hwhole, Path.spelledFrom_append, Path.spelledFrom_append,
    Path.spelledFrom_names]
  rfl

/-- The path that is answered names the file that was checked, when the names of a location lead to
where the checked path starts, and the path takes no link back from there. -/
theorem sameFile_normalized {base : Location} {directory whole : Text}
    (hrun : m.canRun (Path.join directory n.text) = true) (hnul : '\x00' ∉ whole)
    (hwhole : Path.components whole =
      base.reverse.map .name ++ Path.components directory ++ [.name n])
    (hbase : m.tree.Leads .root (base.reverse.map .name) 0
      (m.origin (Path.join directory n.text)))
    (hkeeps : KeepsLinks m.tree base (Path.components directory)) :
    SameFile m (Path.normalized whole) (Path.join directory n.text) := by
  obtain ⟨p, permissions, text, program, hplace, -, -⟩ := Machine.canRun_iff.1 hrun
  obtain ⟨-, hw⟩ := Machine.walk_of_place hplace
  rw [Path.way_join_text] at hw
  obtain ⟨used, left, q, hle, hleads, hlast⟩ :=
    exists_leads_spelledFrom hbase (by omega) hkeeps hw
  have hspelled := spelled_whole hwhole
  have hanswer : m.place .following (Path.normalized whole) = .ok p := by
    apply Machine.place_of_walk (Path.not_mem_normalized (by decide) hnul)
    · intro hnil
      have habs := Path.isAbsolute_normalized whole
      simp [hnil, Path.isAbsolute] at habs
    · have horigin : m.origin (Path.normalized whole) = .root := by
        simp [Machine.origin, Path.isAbsolute_normalized]
      obtain ⟨k, hk⟩ := Nat.le.dest hle
      have hnames : Path.way (Path.normalized whole) =
          (Path.spelledFrom base (Path.components directory)).reverse.map .name ++ [.name n] := by
        rw [Path.way_of_not_endsInSlash (Path.endsInSlash_normalized hnul hspelled),
          Path.components_normalized hnul, hspelled, List.reverse_cons, List.map_append]
        rfl
      rw [horigin, hnames, ← hk, Nat.add_assoc,
        hleads .following (left + k) [.name n] (.inl rfl)]
      exact walk_of_le hlast (Nat.le_add_right left k)
  refine ⟨?_, hanswer.trans hplace.symm⟩
  rw [Machine.canRun_congr (hanswer.trans hplace.symm)]
  exact hrun

/-- If the names of a directory's location come through, they follow no link and lead to it. -/
theorem leads_location (hw : t.walk .following links .root (l.reverse.map .name) = .ok (.found p))
    (hheld : t.contents? l ≠ none) : t.Leads .root (l.reverse.map .name) 0 (.live l) := by
  induction l generalizing links p with
  | nil => exact .nil t .root
  | cons n above ih =>
    simp only [List.reverse_cons, List.map_append, List.map_singleton] at hw ⊢
    obtain ⟨used, left, q, -, hleads, -, -⟩ := exists_leads hw
    cases ha : t.contents? above with
    | none => simp [contents?, ha] at hheld
    | some directory =>
      obtain ⟨permissions, held⟩ := directory
      have habove := ih (hleads.walk 0) (by simp [ha])
      rw [← Nat.zero_add links, habove .following links [.name n] (.inl rfl)] at hw
      obtain ⟨held', permissions', hp, hx⟩ := searches_of_walk hw (by simp)
      obtain ⟨rfl, rfl⟩ : permissions' = permissions ∧ held' = held := by
        simpa [held?, Place.live, ha, eq_comm] using hp
      cases hn : held'.lookup n with
      | none => simp [contents?, ha, hn] at hheld
      | some found =>
        obtain ⟨e, below⟩ := found
        refine habove.append (.name ⟨permissions', hp, hx⟩ hn fun target he => ?_)
        simp [contents?, ha, hn, he, directory?] at hheld

theorem leads_cwd (h : m.place .following (Path.ofLocation m.cwd.location) = .ok m.cwd)
    (hlive : m.cwd.removed = []) (hheld : m.tree.contents? m.cwd.location ≠ none) :
    m.tree.Leads .root (m.cwd.location.reverse.map .name) 0 m.cwd := by
  obtain ⟨-, hway⟩ := Machine.walk_of_place h
  have hw := walk_components_of_way hway
  rw [Path.components_ofLocation] at hw
  have hleads := leads_location hw hheld
  rwa [Place.live_location hlive] at hleads

/-- What can be run below a directory is found by a search that starts somewhere. -/
theorem searches_origin {directory : Text}
    (hrun : m.canRun (Path.join directory n.text) = true) :
    ∃ held, m.tree.Searches (m.origin (Path.join directory n.text)) held := by
  obtain ⟨q, permissions, text, program, hplace, -, -⟩ := Machine.canRun_iff.1 hrun
  obtain ⟨-, hw⟩ := Machine.walk_of_place hplace
  rw [Path.way_join_text] at hw
  cases hc : Path.components directory with
  | nil =>
    rw [hc] at hw
    exact searches_of_walk hw (by simp)
  | cons c rest =>
    rw [hc] at hw
    exact searches_of_walk hw (Path.ne_nothing_of_mem_components (hc ▸ List.mem_cons_self))

/-- A path is answered only if what was checked starts from a directory that was not removed. -/
theorem removed_origin {value name directory path : Text}
    (hfind : find m value name = .ok (some path)) (hd : IsFirstHolder m value name directory) :
    (m.origin (Path.join directory name)).removed = [] := by
  obtain ⟨-, other, hother, hpath⟩ := find_eq_some_iff.1 hfind
  obtain rfl := hd.unique hother
  cases ha : Path.isAbsolute (Path.join directory name) with
  | true => simp [Machine.origin, ha, Place.root]
  | false =>
    rw [Machine.origin, ha, if_neg Bool.false_ne_true]
    apply Decidable.not_not.1
    intro hr
    rw [Machine.absolute_eq_error_iff.2 ⟨ha, hr, rfl⟩] at hpath
    simp at hpath

/-- What is answered is normalised from the names of a location, the directory and the name. -/
theorem exists_whole {value directory path : Text} (hfind : find m value n.text = .ok (some path))
    (hd : IsFirstHolder m value n.text directory) :
    ∃ whole, path = Path.normalized whole ∧ '\x00' ∉ whole ∧ Path.components whole =
      (base m directory).reverse.map .name ++ Path.components directory ++ [.name n] := by
  have hremoved := removed_origin hfind hd
  have hchecked := Machine.no_nul_of_canRun (canRun_of_isFirstHolder hd)
  obtain ⟨-, other, hother, hpath⟩ := find_eq_some_iff.1 hfind
  obtain rfl := hd.unique hother
  have hjoined := Path.isAbsolute_join (ne_nil_of_isFirstHolder hd) n.no_slash
  cases ha : Path.isAbsolute directory with
  | true =>
    rw [ha] at hjoined
    rw [Machine.absolute_of_isAbsolute hjoined] at hpath
    refine ⟨_, (Except.ok.inj hpath).symm, hchecked, ?_⟩
    rw [Path.components_join_text, base, if_pos ha]
    rfl
  | false =>
    rw [ha] at hjoined
    rw [Machine.origin, hjoined, if_neg Bool.false_ne_true] at hremoved
    rw [Machine.absolute_of_relative hjoined hremoved] at hpath
    refine ⟨_, (Except.ok.inj hpath).symm,
      Path.not_mem_join (by decide) (Path.no_nul_ofLocation _) hchecked, ?_⟩
    rw [Path.components_join hjoined, Path.components_ofLocation, Path.components_join_text, base,
      ha, if_neg Bool.false_ne_true, List.append_assoc]

/-- Below a directory whose text agrees with the tree, the path that is answered names the file
that was checked. -/
theorem sameFile_of_faithful {value name directory path : Text}
    (hfind : find m value name = .ok (some path)) (hd : IsFirstHolder m value name directory)
    (hfaithful : Faithful m directory) : SameFile m path (Path.join directory name) := by
  obtain ⟨hn, -⟩ := find_eq_some_iff.1 hfind
  have hremoved := removed_origin hfind hd
  have hrun := canRun_of_isFirstHolder hd
  have hjoined := Path.isAbsolute_join (ne_nil_of_isFirstHolder hd) (no_slash_of_isName hn)
  obtain ⟨n, rfl⟩ := exists_name_of_canRun hn hrun hremoved
  obtain ⟨whole, rfl, hnul, hwhole⟩ := exists_whole hfind hd
  obtain ⟨hcwd, hkeeps⟩ := hfaithful
  obtain ⟨held, permissions, hheld, -⟩ := searches_origin hrun
  rw [held?, hremoved] at hheld
  apply sameFile_normalized hrun hnul hwhole ?_ hkeeps
  cases ha : Path.isAbsolute directory with
  | true =>
    rw [ha] at hjoined
    rw [base, if_pos ha, Machine.origin, if_pos hjoined]
    exact .nil m.tree .root
  | false =>
    rw [ha] at hjoined
    rw [Machine.origin, hjoined, if_neg Bool.false_ne_true] at hremoved hheld ⊢
    rw [base, ha, if_neg Bool.false_ne_true]
    exact leads_cwd (hcwd ha) hremoved (by simp [hheld])

end PocketShell.Resolution
