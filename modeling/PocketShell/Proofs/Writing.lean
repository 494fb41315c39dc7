import PocketShell.Proofs.Calls
import PocketShell.Proofs.WalkRules

/-!
# What writing changes

Opening a file for writing and writing to it make a difference at one location only: there a file is
new, or has another text than before. No walk is led astray by that, so the path that was opened
leads to that location from then on.
-/

namespace PocketShell

/-- Where a walk ends once there is a file at a location. -/
def Spot.afterWriting (l : Location) : Spot → Spot
  | .found p => .found p
  | .missing directory name =>
    if directory.removed = [] ∧ name :: directory.location = l then .found (.live l)
    else .missing directory name

/-- What opening a file spares of its text. -/
def Writing.spared : Writing → Text → Text
  | .truncate, _ => []
  | .append, text => text

namespace FileTree

/-- The second tree has a file at a location, which the first one lacks or has with another text;
everything else is the same. -/
structure DiffersAt (t u : FileTree) (l : Location) : Prop where
  elsewhere : ∀ k, k ≠ l → u.find? k = t.find? k
  file : ∃ permissions text program, u.find? l = some (.file permissions text program) ∧
    (t.find? l = none ∨ ∃ before, t.find? l = some (.file permissions before program))

variable {t u v : FileTree} {k l : Location} {p q : Place} {path : List Component} {n : Name}
variable {links : Nat} {spot : Spot}

theorem DiffersAt.refl {permissions : Permissions} {text : Text} {program : Program}
    (h : t.find? l = some (.file permissions text program)) : DiffersAt t t l where
  elsewhere _ _ := rfl
  file := ⟨permissions, text, program, h, .inr ⟨text, h⟩⟩

theorem DiffersAt.trans (h : DiffersAt t u l) (h' : DiffersAt u v l) : DiffersAt t v l where
  elsewhere k hk := (h'.elsewhere k hk).trans (h.elsewhere k hk)
  file := by
    obtain ⟨permissions, text, program, hu, ht⟩ := h.file
    obtain ⟨permissions', text', program', hv, hnone | ⟨before, hbefore⟩⟩ := h'.file
    · simp [hu] at hnone
    · rw [hu] at hbefore
      cases hbefore
      exact ⟨permissions, text', program, hv, ht⟩

/-- Only below directories is there anything. -/
theorem find?_below (hl : ∀ permissions, t.find? l ≠ some (.directory permissions))
    (hk : l <:+ k) (hne : k ≠ l) : t.find? k = none := by
  obtain ⟨s, rfl⟩ := hk
  cases l with
  | nil => exact absurd rfl (hl .all)
  | cons n above =>
    rcases List.eq_nil_or_concat s with rfl | ⟨s, m, rfl⟩
    · exact absurd rfl hne
    · have hcontents : t.contents? (n :: above) = none := by
        apply Option.eq_none_iff_forall_ne_some.2
        rintro ⟨permissions, held⟩ hc
        exact hl permissions (find?_eq_directory_iff.2 ⟨held, hc⟩)
      rw [List.concat_eq_append, List.append_assoc, List.singleton_append, find?_append, hcontents]
      rfl

/-- A file that is put where nothing or a file was makes a difference only there. -/
theorem differsAt_bind {above : Location} {permissions : Permissions} {text : Text}
    {program : Program} (habove : t.contents? above ≠ none)
    (h : t.find? (n :: above) = none ∨
      ∃ before, t.find? (n :: above) = some (.file permissions before program)) :
    DiffersAt t (t.bind (n :: above) (.file permissions text program)) (n :: above) where
  elsewhere k hk := by
    rw [find?_bind habove, if_neg hk]
    split
    · next hbelow =>
      refine (find?_below (fun permissions hdirectory => ?_) hbelow hk).symm
      rcases h with h | ⟨before, h⟩ <;> simp [h] at hdirectory
    · rfl
  file := ⟨permissions, text, program, by rw [find?_bind habove, if_pos rfl], h⟩

theorem differsAt_write {permissions : Permissions} {before : Text} {program : Program}
    (h : t.find? l = some (.file permissions before program)) (text : Text) :
    DiffersAt t (t.write l text) l := by
  cases l with
  | nil => simp [find?] at h
  | cons n above =>
    obtain ⟨permissions', habove⟩ := find?_parent h
    obtain ⟨held, hc⟩ := find?_eq_directory_iff.1 habove
    simp only [write, h]
    exact differsAt_bind (by simp [hc]) (.inr ⟨before, h⟩)

theorem exists_file_of_text? {text : Text} (h : t.text? l = some text) :
    ∃ permissions program, t.find? l = some (.file permissions text program) := by
  unfold text? at h
  split at h
  · next permissions present program hfile =>
    obtain rfl := Option.some.inj h
    exact ⟨permissions, program, hfile⟩
  · simp at h

theorem text?_of_file {permissions : Permissions} {text : Text} {program : Program}
    (h : t.find? l = some (.file permissions text program)) : t.text? l = some text := by
  simp [text?, h]

theorem text?_write {permissions : Permissions} {before : Text} {program : Program}
    (h : t.find? l = some (.file permissions before program)) (text : Text) :
    (t.write l text).text? l = some text := by
  cases l with
  | nil => simp [find?] at h
  | cons n above =>
    obtain ⟨permissions', habove⟩ := find?_parent h
    obtain ⟨held, hc⟩ := find?_eq_directory_iff.1 habove
    have hfound : (t.bind (n :: above) (.file permissions text program)).find? (n :: above) =
        some (.file permissions text program) := by
      rw [find?_bind (by simp [hc]), if_pos rfl]
    simp only [write, h]
    exact text?_of_file hfound

/-- What opening a file for writing does to the tree: a file that is missing is made, and one that
is there is emptied or left as it is. -/
inductive OpenedAs (t : FileTree) : Writing → Location → FileTree → Prop where
  | made (writing : Writing) {n : Name} {above : Location} (held : t.contents? above ≠ none)
      (missing : t.find? (n :: above) = none) :
      OpenedAs t writing (n :: above) (t.bind (n :: above) (.file .newFile [] .idle))
  | emptied {l : Location} {permissions : Permissions} {text : Text} {program : Program}
      (present : t.find? l = some (.file permissions text program)) :
      OpenedAs t .truncate l (t.write l [])
  | kept {l : Location} {permissions : Permissions} {text : Text} {program : Program}
      (present : t.find? l = some (.file permissions text program)) : OpenedAs t .append l t

theorem OpenedAs.differs {writing : Writing} (h : OpenedAs t writing l u) : DiffersAt t u l := by
  cases h with
  | made writing held missing => exact differsAt_bind held (.inl missing)
  | emptied present => exact differsAt_write present []
  | kept present => exact .refl present

theorem OpenedAs.text?_eq {writing : Writing} (h : OpenedAs t writing l u) :
    u.text? l = some (writing.spared ((t.text? l).getD [])) := by
  cases h with
  | @made _ n above held missing =>
    have hmade : (t.bind (n :: above) (.file .newFile [] .idle)).find? (n :: above) =
        some (.file .newFile [] .idle) := by
      rw [find?_bind held, if_pos rfl]
    have hnone : t.text? (n :: above) = none := by simp [text?, missing]
    rw [text?_of_file hmade, hnone]
    cases writing <;> rfl
  | emptied present => exact text?_write present []
  | kept present =>
    rw [text?_of_file present]
    rfl

theorem DiffersAt.not_link (h : DiffersAt t u l) {target : LinkTarget} :
    t.find? l ≠ some (.link target) := by
  obtain ⟨permissions, text, program, -, hl | ⟨before, hl⟩⟩ := h.file <;> simp [hl]

theorem DiffersAt.not_directory (h : DiffersAt t u l) {permissions : Permissions} :
    t.find? l ≠ some (.directory permissions) := by
  obtain ⟨permissions, text, program, -, hl | ⟨before, hl⟩⟩ := h.file <;> simp [hl]

theorem DiffersAt.entryAt?_directory (h : DiffersAt t u l) {permissions : Permissions}
    (hp : t.entryAt? p = some (.directory permissions)) :
    u.entryAt? p = some (.directory permissions) := by
  unfold entryAt? at hp ⊢
  cases hr : p.removed with
  | cons gone above => rwa [hr] at hp
  | nil =>
    rw [hr] at hp
    exact (h.elsewhere p.location fun hl => h.not_directory (hl ▸ hp)).trans hp

theorem DiffersAt.searchError?_eq_none (h : DiffersAt t u l) (hp : t.searchError? p = none) :
    u.searchError? p = none := by
  obtain ⟨permissions, hdirectory, hx⟩ := searchError?_eq_none_iff_directory.1 hp
  exact searchError?_eq_none_iff_directory.2 ⟨permissions, h.entryAt?_directory hdirectory, hx⟩

theorem DiffersAt.child?_of_ne (h : DiffersAt t u l)
    (hne : ¬ (p.removed = [] ∧ n :: p.location = l)) : u.child? p n = t.child? p n := by
  unfold child?
  split
  · next hr => exact h.elsewhere _ fun hl => hne ⟨hr, hl⟩
  · rfl

theorem child?_of_live (hr : p.removed = []) : t.child? p n = t.find? (n :: p.location) :=
  if_pos hr

/-- A walk comes to where it came, and to the file where it missed it. -/
theorem DiffersAt.walks (h : DiffersAt t u l) (hw : Walks t links p path spot) :
    Walks u links p path (spot.afterWriting l) := by
  obtain ⟨permissions, text, program, hfile, -⟩ := h.file
  induction hw with
  | arrives links p => exact .arrives links p
  | here searchable _ ih => exact .here (h.searchError?_eq_none searchable) ih
  | up searchable _ ih => exact .up (h.searchError?_eq_none searchable) ih
  | closes directory _ ih => exact .closes (h.entryAt?_directory directory) ih
  | @misses links p n searchable missing =>
    by_cases hl : p.removed = [] ∧ n :: p.location = l
    · rw [Spot.afterWriting, if_pos hl, ← hl.2]
      refine .enters (e := .file permissions text program) (h.searchError?_eq_none searchable) ?_
        (by simp) (.arrives links _)
      rw [child?_of_live hl.1, hl.2, hfile]
    · rw [Spot.afterWriting, if_neg hl]
      exact .misses links (h.searchError?_eq_none searchable) (h.child?_of_ne hl ▸ missing)
  | @enters links p n rest spot e searchable present no_link _ ih =>
    by_cases hl : p.removed = [] ∧ n :: p.location = l
    · refine .enters (e := .file permissions text program) (h.searchError?_eq_none searchable) ?_
        (by simp) ih
      rw [child?_of_live hl.1, hl.2, hfile]
    · exact .enters (h.searchError?_eq_none searchable) (h.child?_of_ne hl ▸ present) no_link ih
  | @follows links p n rest spot target searchable present _ ih =>
    have hl : ¬ (p.removed = [] ∧ n :: p.location = l) := by
      rintro ⟨hr, hl⟩
      rw [child?_of_live hr, hl] at present
      exact h.not_link present
    exact .follows (h.searchError?_eq_none searchable) (h.child?_of_ne hl ▸ present) ih

/-- What a walk misses is not there, in a directory that is. -/
theorem Walks.missing {name : Name} (h : Walks t links p path (.missing q name)) :
    t.searchError? q = none ∧ t.child? q name = none := by
  generalize hspot : Spot.missing q name = spot at h
  induction h with
  | arrives links p => simp at hspot
  | here _ _ ih => exact ih hspot
  | up _ _ ih => exact ih hspot
  | closes _ _ ih => exact ih hspot
  | misses links searchable missing =>
    cases hspot
    exact ⟨searchable, missing⟩
  | enters _ _ _ _ ih => exact ih hspot
  | follows _ _ _ ih => exact ih hspot

/-- A walk that could make something comes where it would come without. -/
theorem walk_following_of_making (h : t.walk .making links p path = .ok spot) :
    t.walk .following links p path = .ok spot := by
  induction links, p, path using walk_induction with
  | arrives links p => rwa [walk_nil] at h ⊢
  | walks links p c rest ih ihLinks =>
    by_cases hc : c = .nothing
    · subst hc
      obtain ⟨directory, hp⟩ := held?_of_walk_nothing h
      rw [walk_nothing hp] at h ⊢
      exact ih _ h
    obtain ⟨held, hs⟩ := searches_of_walk h hc
    cases c with
    | nothing => exact absurd rfl hc
    | here =>
      rw [hs.walk_here] at h ⊢
      exact ih _ h
    | up =>
      rw [hs.walk_up] at h ⊢
      exact ih _ h
    | name n =>
      obtain ⟨permissions, hp, hx⟩ := hs
      simp only [walk_cons, hp, hx, Bool.true_or, if_true, true_and, reduceCtorEq, false_and,
        if_false] at h ⊢
      split at h
      · simp at h
      · split at h
        · exact h
        · cases links with
          | zero => simp [follow] at h
          | succ links => exact ihLinks links (Nat.lt_succ_self links) _ _ h
        · exact ih _ h

theorem eq_live_of_file {permissions : Permissions} {text : Text} {program : Program}
    (h : t.entryAt? p = some (.file permissions text program)) : p = .live p.location := by
  cases hr : p.removed with
  | nil => exact (Place.live_location hr).symm
  | cons gone above => simp [entryAt?, hr] at h

end FileTree

namespace Machine

open FileTree

variable {m written opened : Machine} {path : Text} {l : Location} {p : Place}

/-- The second machine differs from the first one only by a file, to which a path leads. -/
structure WritesTo (m written : Machine) (path : Text) (l : Location) : Prop where
  cwd_eq : written.cwd = m.cwd
  guarded_eq : written.guarded = m.guarded
  differs : DiffersAt m.tree written.tree l
  leads : written.place .following path = .ok (.live l)

theorem pathFault?_of_place (hp : m.place .following path = .ok p) : pathFault? path = none := by
  cases hfault : pathFault? path with
  | none => rfl
  | some fault => simp [place, hfault] at hp

/-- A path leads to a file that was written if a walk came there before, or missed it. -/
theorem writesTo_of_walk {spot : Spot} (hcwd : written.cwd = m.cwd)
    (hguarded : written.guarded = m.guarded) (h : DiffersAt m.tree written.tree l)
    (hfault : pathFault? path = none)
    (hw : m.tree.walk .following maxLinks (m.origin path) (Path.way path) = .ok spot)
    (hspot : spot.afterWriting l = .found (.live l)) : WritesTo m written path l := by
  refine ⟨hcwd, hguarded, h, ?_⟩
  have horigin : written.origin path = m.origin path := by simp [origin, hcwd]
  have hwritten := (h.walks (walks_of_walk hw)).walk_eq
  rw [hspot, ← horigin] at hwritten
  simp [place, hfault, hwritten]

/-- A file that is opened is at the end of a walk, or is missing there. -/
theorem openedAs_of_openFile {writing : Writing}
    (h : m.openFile path writing = .ok (opened, l)) :
    pathFault? path = none ∧ opened.cwd = m.cwd ∧ opened.guarded = m.guarded ∧
      OpenedAs m.tree writing l opened.tree ∧
      ∃ spot, m.tree.walk .following maxLinks (m.origin path) (Path.way path) = .ok spot ∧
        spot.afterWriting l = .found (.live l) := by
  unfold openFile at h
  split at h
  · simp at h
  · next hfault =>
    split at h
    · simp at h
    · next directory name hmaking =>
      have hw := walk_following_of_making hmaking
      split at h
      · simp at h
      · next hremoved =>
        rw [Decidable.not_not] at hremoved
        split at h
        · cases h
          obtain ⟨hsearch, hmissing⟩ := (walks_of_walk hw).missing
          obtain ⟨held, permissions, hheld, -⟩ := searchError?_eq_none_iff.1 hsearch
          rw [held?, hremoved] at hheld
          rw [child?_of_live hremoved] at hmissing
          have habove : m.tree.contents? directory.location ≠ none := by simp [hheld]
          exact ⟨hfault, rfl, rfl, .made writing habove hmissing, _, hw,
            by simp [Spot.afterWriting, hremoved]⟩
        · simp at h
    · next q hmaking =>
      have hw := walk_following_of_making hmaking
      split at h
      · next permissions text program hentry =>
        have hq := eq_live_of_file hentry
        rw [hq] at hw hentry
        split at h
        · split at h
          · cases h
            exact ⟨hfault, rfl, rfl, .emptied hentry, _, hw, rfl⟩
          · cases h
            exact ⟨hfault, rfl, rfl, .kept hentry, _, hw, rfl⟩
        · simp at h
      · simp at h

theorem writesTo_of_openFile {writing : Writing}
    (h : m.openFile path writing = .ok (opened, l)) : WritesTo m opened path l := by
  obtain ⟨hfault, hcwd, hguarded, hopened, spot, hw, hspot⟩ := openedAs_of_openFile h
  exact writesTo_of_walk hcwd hguarded hopened.differs hfault hw hspot

/-- What a file holds once it is open. A file that was missing has held nothing. -/
theorem text?_of_openFile {writing : Writing} (h : m.openFile path writing = .ok (opened, l)) :
    opened.tree.text? l = some (writing.spared ((m.tree.text? l).getD [])) :=
  (openedAs_of_openFile h).2.2.2.1.text?_eq

theorem text?_append {present : Text} (h : m.tree.text? l = some present) (text : Text) :
    (m.append l text).tree.text? l = some (present ++ text) := by
  obtain ⟨permissions, program, hfile⟩ := exists_file_of_text? h
  simp only [append, h]
  exact text?_write hfile (present ++ text)

/-- More text for a file that was written leaves everything else as it is. -/
theorem WritesTo.append (h : WritesTo m written path l) (text : Text) :
    WritesTo m (written.append l text) path l := by
  obtain ⟨permissions, present, program, hfile, -⟩ := h.differs.file
  have happend : written.append l text =
      { written with tree := written.tree.write l (present ++ text) } := by
    simp [Machine.append, text?, hfile]
  obtain ⟨-, hw⟩ := walk_of_place h.leads
  have hwrites : WritesTo written (written.append l text) path l := by
    rw [happend]
    exact writesTo_of_walk rfl rfl (differsAt_write hfile (present ++ text))
      (pathFault?_of_place h.leads) hw rfl
  exact ⟨hwrites.cwd_eq.trans h.cwd_eq, hwrites.guarded_eq.trans h.guarded_eq,
    h.differs.trans hwrites.differs, hwrites.leads⟩

end Machine

end PocketShell
