import PocketShell.Proofs.Mazes
import PocketShell.Proofs.Resolution

/-!
# Search paths that are right everywhere

Whatever the tree and the working directory, what is answered names the file that was checked, if
every directory of the search path is absolute and has no component that goes up behind a name. No
other search path is right everywhere: for a relative directory there is a working directory whose
path does not lead there, and where a name is taken back the name may be a link.
-/

namespace PocketShell.Resolution

open FileTree SearchPath

/-- A component that goes up stands behind a name. -/
def GoesBack : List Component → Prop
  | [] => False
  | .name _ :: rest => .up ∈ rest
  | _ :: rest => GoesBack rest

/-- The text of a directory starts at the root and takes no name back. -/
def Direct (directory : Text) : Prop :=
  Path.isAbsolute directory = true ∧ ¬ GoesBack (Path.components directory)

variable {t : FileTree} {m : Machine} {l : Location} {path : List Component}
variable {value directory : Text} {z : Maze}

theorem not_isLink_root : ¬ IsLink t [] := by
  rintro ⟨p, target, hp, hlink⟩
  rw [List.reverse_nil, List.map_nil, walk_nil] at hp
  obtain rfl := Spot.found.inj (Except.ok.inj hp)
  simp [entryAt?, Place.root, find?] at hlink

theorem keepsLinks_of_no_up (h : .up ∉ path) : KeepsLinks t l path := by
  induction path generalizing l with
  | nil => trivial
  | cons c rest ih =>
    rw [List.mem_cons, not_or] at h
    cases c with
    | here => exact ih h.2
    | nothing => exact ih h.2
    | up => exact absurd rfl h.1
    | name n => exact ih h.2

theorem keepsLinks_of_not_goesBack (h : ¬ GoesBack path) : KeepsLinks t [] path := by
  induction path with
  | nil => trivial
  | cons c rest ih =>
    cases c with
    | here => exact ih h
    | nothing => exact ih h
    | up => exact ⟨not_isLink_root, ih h⟩
    | name n => exact keepsLinks_of_no_up (l := [n]) h

theorem faithful_of_direct (h : Direct directory) : Faithful m directory := by
  constructor
  · intro hrel
    rw [h.1] at hrel
    simp at hrel
  · rw [base, if_pos h.1]
    exact keepsLinks_of_not_goesBack h.2

/-- A component that goes up behind a name leads into the halls of a maze. -/
theorem exists_leads_deadEnd (hback : GoesBack path) (hpath : ∀ n, .name n ∈ path → n ∈ z.names) :
    ∃ levels before after, path = before ++ .up :: after ∧
      (z.tree .all levels).Leads .root before 1 (.live (z.deadEnd :: z.start)) := by
  induction path with
  | nil => exact absurd hback id
  | cons c rest ih =>
    have hrest : ∀ n, .name n ∈ rest → n ∈ z.names := fun n hn =>
      hpath n (List.mem_cons_of_mem c hn)
    cases c with
    | here =>
      obtain ⟨levels, before, after, rfl, hleads⟩ := ih hback hrest
      exact ⟨levels, .here :: before, after, rfl,
        (Leads.here (z.searches_root .all levels)).append hleads⟩
    | nothing =>
      obtain ⟨levels, before, after, rfl, hleads⟩ := ih hback hrest
      obtain ⟨permissions, hroot, -⟩ := z.searches_root .all levels
      exact ⟨levels, .nothing :: before, after, rfl, (Leads.nothing hroot).append hleads⟩
    | up =>
      obtain ⟨levels, before, after, rfl, hleads⟩ := ih hback hrest
      exact ⟨levels, .up :: before, after, rfl,
        (Leads.up (z.searches_root .all levels)).append hleads⟩
    | name n =>
      refine ⟨Maze.levelsOf (.name n :: rest), Maze.leads_crossings (z.searches_root _ _) ?_ hpath
        (List.mem_cons_of_mem _ hback) (Nat.succ_ne_zero _)⟩
      exact fun m hm => Maze.lookup_tree_of_ne fun h => z.gate_not_mem (h ▸ hm)

/-- The names among the components of a path. -/
def namesOf (path : List Component) : List Name :=
  path.filterMap fun
    | .name n => some n
    | _ => none

theorem mem_namesOf {n : Name} (h : .name n ∈ path) : n ∈ namesOf path :=
  List.mem_filterMap.2 ⟨.name n, h, rfl⟩

/-- A maze that the directories of the search path do not get out of. -/
def Fits (z : Maze) (value : Text) : Prop :=
  ∀ directory ∈ directories value, (Path.components directory).length ≤ z.reach ∧
    ∀ n, .name n ∈ Path.components directory → n ∈ z.names

theorem exists_fits (value : Text) : ∃ z : Maze, Fits z value := by
  let path := ((directories value).map Path.components).flatten
  obtain ⟨gate, hgate⟩ := Name.exists_not_mem (namesOf path)
  obtain ⟨deadEnd, hdeadEnd⟩ := Name.exists_not_mem (gate :: namesOf path)
  obtain ⟨prize, hprize⟩ := Name.exists_not_mem (deadEnd :: gate :: namesOf path)
  refine ⟨⟨namesOf path, path.length, gate, deadEnd, prize, hgate, hdeadEnd, hprize⟩, ?_⟩
  intro directory hmem
  have hsub : (Path.components directory).Sublist path :=
    List.sublist_flatten_of_mem (List.mem_map_of_mem hmem)
  exact ⟨hsub.length_le, fun n hn => mem_namesOf (hsub.subset hn)⟩

/-- In some tree and from some working directory, what is answered does not name the file that was
checked. -/
def GoesWrong (value : Text) : Prop :=
  ∃ m name path directory, find m value name = .ok (some path) ∧
    IsFirstHolder m value name directory ∧ ¬ SameFile m path (Path.join directory name)

/-- Where some directory holds a name, a path is answered, and it is wrong if it cannot be run. -/
theorem goesWrong_of_canRun {n : Name} (hmem : directory ∈ directories value)
    (hrun : m.canRun (Path.join directory n.text) = true) (hlive : m.cwd.removed = [])
    (hanswer : ∀ path holder, find m value n.text = .ok (some path) →
      IsFirstHolder m value n.text holder → m.canRun path = false) : GoesWrong value := by
  have hn : isName n.text = true := by simp [isName, n.ne_nil, n.no_slash]
  cases hfirst : (directories value).find? (fun d => m.canRun (Path.join d n.text)) with
  | none => exact absurd hrun (List.find?_eq_none.1 hfirst directory hmem)
  | some holder =>
    have hholder := isFirstHolder_iff.2 hfirst
    have habs : ∃ path, m.absolute (Path.join holder n.text) = .ok path := by
      cases ha : Path.isAbsolute (Path.join holder n.text) with
      | true => exact ⟨_, Machine.absolute_of_isAbsolute ha⟩
      | false => exact ⟨_, Machine.absolute_of_relative ha hlive⟩
    obtain ⟨path, hpath⟩ := habs
    have hfind := find_eq_some_iff.2 ⟨hn, holder, hholder, hpath⟩
    refine ⟨m, n.text, path, holder, hfind, hholder, ?_⟩
    intro hsame
    have hfalse := hanswer path holder hfind hholder
    simp [hsame.1] at hfalse

/-- What is answered for a directory whose text is followed from the root passes no gate, and cannot
be run. -/
theorem canRun_answer_eq_false {permissions : Permissions} {levels : Nat} {path : Text}
    (hm : m.tree = z.tree permissions levels) (hx : levels ≠ 0 → permissions.execute = true)
    (hz : Fits z value) (hfind : find m value z.prize.text = .ok (some path))
    (hd : IsFirstHolder m value z.prize.text directory) (hbase : base m directory = []) :
    m.canRun path = false := by
  have hmem := mem_of_isFirstHolder hd
  obtain ⟨whole, rfl, hnul, hwhole⟩ := exists_whole hfind hd
  rw [hbase] at hwhole
  have hnames := Path.components_normalized hnul
  rw [spelled_whole hwhole] at hnames
  apply Maze.canRun_eq_false_of_names hm hx (Path.isAbsolute_normalized whole) hnames
  intro hgate
  rcases List.mem_cons.1 (List.mem_reverse.1 hgate) with hprize | hgate
  · exact z.prize_not_mem (by simp [← hprize])
  · rcases Path.mem_spelledFrom hgate with hgate | hgate
    · simp at hgate
    · exact z.gate_not_mem ((hz directory hmem).2 z.gate hgate)

/-- Going up less often than a location is long leaves the rest of it. -/
theorem exists_spelledFrom_append (h : path.length ≤ l.length) (above : Location) :
    ∃ s, Path.spelledFrom (l ++ above) path = s ++ above := by
  induction path generalizing l with
  | nil => exact ⟨l, rfl⟩
  | cons c rest ih =>
    rw [List.length_cons] at h
    cases c with
    | here => exact ih (by omega)
    | nothing => exact ih (by omega)
    | up =>
      cases l with
      | nil => simp at h
      | cons n l => exact ih (Nat.le_of_succ_le_succ h)
    | name n => exact ih (l := n :: l) (Nat.le_succ_of_le (Nat.le_of_succ_le h))

/-- A relative directory goes wrong where the path of the working directory leads nowhere. -/
theorem goesWrong_of_relative (hmem : directory ∈ directories value)
    (hnul : '\x00' ∉ directory) (hrel : Path.isAbsolute directory = false) :
    GoesWrong value := by
  obtain ⟨z, hz⟩ := exists_fits value
  obtain ⟨hreach, hnames⟩ := hz directory hmem
  let m : Machine := ⟨z.tree ⟨true, true, false⟩ 0, .live z.start, true⟩
  have horigin : m.origin (Path.join directory z.prize.text) = .live (z.aisle ++ [z.gate]) := by
    have hjoined := Path.isAbsolute_join (ne_nil_of_mem_directories hmem) z.prize.no_slash
    rw [hrel] at hjoined
    simp [Machine.origin, hjoined, m, Maze.start]
  have hlength := z.length_aisle
  obtain ⟨s, hs, hne, hle, hleads⟩ := Maze.leads_halls ⟨true, true, false⟩ 0
    z.mem_doors_of_mem_aisle (by omega) (by rw [Maze.depth]; omega) hnames
  have hrun : m.canRun (Path.join directory z.prize.text) = true :=
    Maze.canRun_prize rfl hnul hs hne (by rw [Maze.depth]; omega) (horigin ▸ hleads) (Nat.zero_le _)
  apply goesWrong_of_canRun hmem hrun rfl
  intro path holder hfind hholder
  cases ha : Path.isAbsolute holder with
  | true => exact canRun_answer_eq_false rfl (by simp) hz hfind hholder (by simp [base, ha])
  | false =>
    obtain ⟨whole, rfl, hwholenul, hwhole⟩ := exists_whole hfind hholder
    have hstart : base m holder = List.replicate z.reach z.gate ++ [z.gate, z.gate] := by
      simp [base, ha, m, Maze.start, Maze.aisle, Place.live, List.replicate_succ']
    have hspelled := spelled_whole hwhole
    have hshort : (Path.components holder).length ≤ (List.replicate z.reach z.gate).length := by
      rw [List.length_replicate]
      exact (hz holder (mem_of_isFirstHolder hholder)).1
    obtain ⟨s, hs⟩ := exists_spelledFrom_append hshort [z.gate, z.gate]
    rw [hstart, hs] at hspelled
    have hcomponents := Path.components_normalized hwholenul
    rw [hspelled, List.reverse_cons, List.reverse_append] at hcomponents
    exact Maze.canRun_eq_false_of_gate rfl rfl (Path.isAbsolute_normalized whole) hcomponents

/-- A directory that takes a name back goes wrong where the name is a link. -/
theorem goesWrong_of_goesBack (hmem : directory ∈ directories value)
    (hnul : '\x00' ∉ directory) (hback : GoesBack (Path.components directory)) :
    GoesWrong value := by
  obtain ⟨z, hz⟩ := exists_fits value
  obtain ⟨hreach, hnames⟩ := hz directory hmem
  obtain ⟨levels, before, after, hsplit, hbefore⟩ := exists_leads_deadEnd hback hnames
  let m : Machine := ⟨z.tree .all levels, .root, true⟩
  have horigin : m.origin (Path.join directory z.prize.text) = .root := by
    simp [Machine.origin, m]
  have hlength := z.length_aisle
  have hafter : ∀ n, .name n ∈ after → n ∈ z.names := fun n hn => hnames n (by simp [hsplit, hn])
  rw [hsplit, List.length_append, List.length_cons] at hreach
  obtain ⟨s, hs, hne, hle, hleads⟩ := Maze.leads_halls .all levels z.mem_doors_of_mem_aisle
    (by omega) (by rw [Maze.depth]; omega) hafter
  have hup : m.tree.Leads (.live (z.deadEnd :: z.start)) [.up] 0 (.live (z.aisle ++ [z.gate])) :=
    .up (z.searches_deadEnd .all levels)
  have hpath := hbefore.append (hup.append hleads)
  rw [List.singleton_append, ← hsplit] at hpath
  have hrun : m.canRun (Path.join directory z.prize.text) = true :=
    Maze.canRun_prize rfl hnul hs hne (by rw [Maze.depth]; omega) (horigin ▸ hpath) (by decide)
  apply goesWrong_of_canRun hmem hrun rfl
  intro path holder hfind hholder
  exact canRun_answer_eq_false rfl (fun _ => rfl) hz hfind hholder (by simp [base, m, Place.root])

/-- A path that is answered is absolute, and it names the file that was checked below the first
directory that holds the name, if the text of that directory agrees with the tree. The search paths
for which it does so in every tree and from every working directory are those whose directories take
no name back and are not relative; a directory that holds U+0000 is never searched. -/
theorem sameFile_of_find_iff (value : Text) :
    (∀ m name path, find m value name = .ok (some path) →
      Path.isAbsolute path = true ∧ ∃ directory, IsFirstHolder m value name directory ∧
        (Faithful m directory → SameFile m path (Path.join directory name))) ∧
    ((∀ m name path directory, find m value name = .ok (some path) →
        IsFirstHolder m value name directory → SameFile m path (Path.join directory name)) ↔
      ∀ directory ∈ directories value, '\x00' ∉ directory → Direct directory) := by
  refine ⟨fun m name path hfind => ?_, fun hright directory hmem hnul => ?_, ?_⟩
  · obtain ⟨-, directory, hd, hpath⟩ := find_eq_some_iff.1 hfind
    exact ⟨Machine.isAbsolute_of_absolute hpath, directory, hd, sameFile_of_faithful hfind hd⟩
  · have hnever : ¬ GoesWrong value := by
      rintro ⟨m, name, path, holder, hfind, hholder, hdiffers⟩
      exact hdiffers (hright m name path holder hfind hholder)
    cases habs : Path.isAbsolute directory with
    | true => exact ⟨habs, fun hback => hnever (goesWrong_of_goesBack hmem hnul hback)⟩
    | false => exact absurd (goesWrong_of_relative hmem hnul habs) hnever
  · intro hdirect m name path directory hfind hd
    obtain ⟨hn, -⟩ := find_eq_some_iff.1 hfind
    have hnul : '\x00' ∉ directory := fun hc =>
      Machine.no_nul_of_canRun (canRun_of_isFirstHolder hd)
        (Path.mem_join (Path.isAbsolute_of_no_slash (no_slash_of_isName hn)) (.inl hc))
    exact sameFile_of_faithful hfind hd
      (faithful_of_direct (hdirect directory (mem_of_isFirstHolder hd) hnul))

-- The link is walked, and its name is taken back on the text.
example :
    let m : Machine := .ofEntries [([{ text := ['a'] }], .link { text := "/w/v".toList }),
      ([{ text := ['v'] }, { text := ['w'] }], .directory .all),
      ([{ text := ['x'] }, { text := ['w'] }], .file .all [] .idle)] []
    find m "/a/..".toList ['x'] = .ok (some "/x".toList) ∧
      m.canRun "/a/../x".toList = true ∧ m.canRun "/x".toList = false :=
  ⟨rfl, rfl, rfl⟩

end PocketShell.Resolution
