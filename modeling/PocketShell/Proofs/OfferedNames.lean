import PocketShell.Completer
import PocketShell.Proofs.Resolution
import PocketShell.Proofs.WalkRules

/-!
# The names that completion offers

The names that can be run are listed directory by directory, whereas a name is looked up path by
path until the first hit. What stands in a directory and what is reached through its path are the
same, so that both agree: whatever is listed can be looked up, and what is looked up in a directory
that can be listed is listed.
-/

namespace PocketShell

namespace FileTree

theorem mem_heads_iff {t : FileTree} {n : Name} : n ∈ t.heads ↔ t.lookup n ≠ none := by
  induction t with
  | empty => simp [heads, lookup]
  | cons name entry below others _ ih =>
    by_cases h : name = n
    · simp [heads, lookup, h]
    · simp [heads, lookup, h, Ne.symm h, ih]

theorem mem_names_iff_child? {t : FileTree} {p : Place} {n : Name} (hlive : p.removed = []) :
    n ∈ t.names p.location ↔ t.child? p n ≠ none := by
  rw [child?, if_pos hlive, find?_cons, names]
  cases hc : t.contents? p.location with
  | none => simp
  | some c => simp [mem_heads_iff]

end FileTree

namespace Machine

open FileTree

variable {m : Machine} {directory : Text} {listed : List Name} {n : Name} {p : Place}

/-- What is listed of a directory is what stands at its place. -/
theorem exists_place_of_list (h : m.list directory = .ok listed) :
    ∃ p, m.place .following directory = .ok p ∧ ∀ n, n ∈ listed ↔ m.tree.child? p n ≠ none := by
  unfold list at h
  split at h
  · simp at h
  · next p hplace =>
    refine ⟨p, hplace, fun n => ?_⟩
    split at h
    · split at h
      · obtain rfl := Except.ok.inj h
        split
        · next hlive => exact mem_names_iff_child? hlive
        · next hremoved => simp [child?, hremoved]
      · simp at h
    · simp at h

/-- What can be run below a directory stands at the place of the directory. -/
theorem child?_of_canRun (hplace : m.place .following directory = .ok p)
    (hrun : m.canRun (Path.join directory n.text) = true) : m.tree.child? p n ≠ none := by
  have horigin : m.origin (Path.join directory n.text) = m.origin directory := by
    rw [origin, origin, Path.isAbsolute_join (place_ne_nil hplace) n.no_slash]
  obtain ⟨q, permissions, text, program, hq, -, -⟩ := canRun_iff.1 hrun
  obtain ⟨-, hbelow⟩ := walk_of_place hq
  obtain ⟨-, hway⟩ := walk_of_place hplace
  have habove := walk_components_of_way hway
  rw [Path.way_join_text, horigin] at hbelow
  obtain ⟨used, left, r, hlinks, hleads, hlast, -⟩ := exists_leads hbelow
  rw [hlinks, hleads.walk left] at habove
  obtain rfl := Spot.found.inj (Except.ok.inj habove)
  obtain ⟨held, hs⟩ := searches_of_walk hlast (by simp)
  rw [hs.child?_eq]
  intro hnone
  rw [hs.walk_missing (Option.map_eq_none_iff.1 hnone) (by decide)] at hlast
  simp at hlast

theorem origin_removed (hlive : m.cwd.removed = []) (path : Text) :
    (m.origin path).removed = [] := by
  unfold origin
  split
  · rfl
  · exact hlive

end Machine

namespace SearchPath

variable {m : Machine} {value name directory : Text} {searched executables all : List Text}

/-- The directory can be listed. -/
def IsListed (m : Machine) (directory : Text) : Prop :=
  ∃ listed, m.list directory = .ok listed

/-- The directories that can be listed are looked through and the others are left out. Only a
directory that holds U+0000 is neither. -/
theorem exists_executablesOf (m : Machine) {directories : List Text}
    (h : ∀ directory ∈ directories, '\x00' ∉ directory) :
    ∃ names, executablesOf m directories = .ok names := by
  induction directories with
  | nil => exact ⟨[], rfl⟩
  | cons directory rest ih =>
    obtain ⟨names, hnames⟩ := ih fun d hd => h d (List.mem_cons_of_mem _ hd)
    have hnul := mt (m.list_eq_nul_iff directory).1 (h directory List.mem_cons_self)
    cases hlist : m.list directory with
    | ok listed => simp [executablesOf, executablesIn, hlist, hnames, Except.map]
    | error fault =>
      cases fault with
      | errno reason => simp [executablesOf, executablesIn, hlist, hnames, Except.map]
      | nul => exact absurd hlist hnul

theorem exists_names (m : Machine) {value : Text} (h : '\x00' ∉ value) :
    ∃ all, names m value = .ok all := by
  have hdirectories : ∀ directory ∈ directories value, '\x00' ∉ directory := by
    intro directory hd hnul
    exact h (Text.mem_of_mem_fields (List.mem_filter.1 hd).1 hnul)
  obtain ⟨executables, hexecutables⟩ := exists_executablesOf m hdirectories
  simp [names, hexecutables, Except.map]

/-- A look-up finds the name. -/
def Finds (m : Machine) (value name : Text) : Prop :=
  ∃ path, find m value name = .ok (some path)

theorem isName_text (n : Name) : isName n.text = true := by
  simp [isName, n.ne_nil, n.no_slash]

/-- Special names lead to directories, so nothing that can be run is missing from the list. -/
theorem mem_executablesIn_iff (hlive : m.cwd.removed = [])
    (h : executablesIn m directory = .ok executables) :
    name ∈ executables ↔ isName name = true ∧ m.canRun (Path.join directory name) = true := by
  unfold executablesIn at h
  cases hlist : m.list directory with
  | error fault => simp [hlist, Except.map] at h
  | ok listed =>
    rw [hlist] at h
    obtain rfl := Except.ok.inj h
    obtain ⟨p, hplace, hlisted⟩ := Machine.exists_place_of_list hlist
    rw [List.mem_filter, List.mem_map]
    constructor
    · rintro ⟨⟨n, -, rfl⟩, hrun⟩
      exact ⟨isName_text n, hrun⟩
    · rintro ⟨hname, hrun⟩
      obtain ⟨n, rfl⟩ := Resolution.exists_name_of_canRun hname hrun
        (Machine.origin_removed hlive _)
      exact ⟨⟨n, (hlisted n).2 (Machine.child?_of_canRun hplace hrun), rfl⟩, hrun⟩

/-- The name is listed among those that can be run in the directory. -/
def RunsIn (m : Machine) (name directory : Text) : Prop :=
  ∃ here, executablesIn m directory = .ok here ∧ name ∈ here

theorem runsIn_of_ok {here : List Text} (h : executablesIn m directory = .ok here) :
    RunsIn m name directory ↔ name ∈ here := by
  simp [RunsIn, h]

theorem not_runsIn_of_error {fault : Fault} (h : executablesIn m directory = .error fault) :
    ¬ RunsIn m name directory := by
  simp [RunsIn, h]

/-- A name is among those of a row of directories if it is among those of one of them. -/
theorem mem_executablesOf (h : executablesOf m searched = .ok executables) :
    name ∈ executables ↔ ∃ directory ∈ searched, RunsIn m name directory := by
  induction searched generalizing executables with
  | nil =>
    obtain rfl := Except.ok.inj h
    simp
  | cons directory rest ih =>
    simp only [List.mem_cons, exists_eq_or_imp]
    simp only [executablesOf] at h
    cases hhere : executablesIn m directory with
    | ok here =>
      cases hrest : executablesOf m rest with
      | error fault => simp [hhere, hrest, Except.map] at h
      | ok more =>
        rw [hhere, hrest] at h
        obtain rfl := Except.ok.inj h
        rw [List.mem_append, runsIn_of_ok hhere, ih hrest]
    | error fault =>
      rw [hhere] at h
      cases fault with
      | nul => simp at h
      | errno reason => simp [ih h, not_runsIn_of_error hhere]

theorem runsIn_iff (hlive : m.cwd.removed = []) :
    RunsIn m name directory ↔ isName name = true ∧ IsListed m directory ∧
      m.canRun (Path.join directory name) = true := by
  cases hlist : m.list directory with
  | ok listed =>
    obtain ⟨here, hhere⟩ : ∃ here, executablesIn m directory = .ok here :=
      ⟨_, by rw [executablesIn, hlist]; rfl⟩
    rw [runsIn_of_ok hhere, mem_executablesIn_iff hlive hhere]
    simp [IsListed, hlist]
  | error fault =>
    have hhere : executablesIn m directory = .error fault := by
      rw [executablesIn, hlist]
      rfl
    simp [not_runsIn_of_error hhere, IsListed, hlist]

theorem exists_runsIn_iff (hlive : m.cwd.removed = []) :
    (∃ directory ∈ searched, RunsIn m name directory) ↔ isName name = true ∧
      ∃ directory ∈ searched, IsListed m directory ∧
        m.canRun (Path.join directory name) = true := by
  simp only [runsIn_iff hlive]
  constructor
  · rintro ⟨directory, hmem, hname, hheld⟩
    exact ⟨hname, directory, hmem, hheld⟩
  · rintro ⟨hname, directory, hmem, hheld⟩
    exact ⟨directory, hmem, hname, hheld⟩

theorem exists_isFirstHolder
    (h : ∃ directory ∈ directories value, m.canRun (Path.join directory name) = true) :
    ∃ directory, IsFirstHolder m value name directory := by
  obtain ⟨first, hfirst⟩ := Option.isSome_iff_exists.1 (List.find?_isSome.2 h)
  exact ⟨first, isFirstHolder_iff.2 hfirst⟩

/-- Where the working directory has a path, a name that some directory holds is found. -/
theorem finds_iff (hlive : m.cwd.removed = []) :
    Finds m value name ↔ isName name = true ∧
      ∃ directory ∈ directories value, m.canRun (Path.join directory name) = true := by
  constructor
  · rintro ⟨path, hfind⟩
    obtain ⟨hname, directory, hholder, -⟩ := find_eq_some_iff.1 hfind
    exact ⟨hname, directory, mem_of_isFirstHolder hholder, canRun_of_isFirstHolder hholder⟩
  · rintro ⟨hname, hheld⟩
    obtain ⟨directory, hholder⟩ := exists_isFirstHolder hheld
    cases habsolute : m.absolute (Path.join directory name) with
    | ok path => exact ⟨path, find_eq_some_iff.2 ⟨hname, directory, hholder, habsolute⟩⟩
    | error reason =>
      obtain ⟨-, hremoved, -⟩ := Machine.absolute_eq_error_iff.1 habsolute
      exact absurd hlive hremoved

/-- A look-up finds the name, and a directory that holds it can be listed. -/
def FindsListed (m : Machine) (value name : Text) : Prop :=
  Finds m value name ∧ ∃ directory ∈ directories value, IsListed m directory ∧
    m.canRun (Path.join directory name) = true

theorem findsListed_iff (hlive : m.cwd.removed = []) :
    FindsListed m value name ↔ isName name = true ∧ ∃ directory ∈ directories value,
      IsListed m directory ∧ m.canRun (Path.join directory name) = true := by
  rw [FindsListed, finds_iff hlive]
  constructor
  · rintro ⟨⟨hname, -⟩, hheld⟩
    exact ⟨hname, hheld⟩
  · rintro ⟨hname, directory, hmem, hlisted, hrun⟩
    exact ⟨⟨hname, directory, hmem, hrun⟩, directory, hmem, hlisted, hrun⟩

/-- What is listed is the builtins and what can be run in one of the directories. -/
theorem mem_names_iff_runsIn (h : names m value = .ok all) :
    name ∈ all ↔ (∃ b : Builtin, name = b.name) ∨
      ∃ directory ∈ directories value, RunsIn m name directory := by
  unfold names at h
  cases hexecutables : executablesOf m (directories value) with
  | error fault => simp [hexecutables, Except.map] at h
  | ok executables =>
    rw [hexecutables] at h
    obtain rfl := Except.ok.inj h
    have hbuiltin : name ∈ Builtin.all.map Builtin.name ↔ ∃ b : Builtin, name = b.name := by
      simp [Builtin.mem_all, eq_comm]
    rw [(sorted_perm _).mem_iff, List.mem_eraseDups, List.mem_append, hbuiltin,
      mem_executablesOf hexecutables]

/-- What is listed besides the builtins is what is found in a directory that can be listed. -/
theorem mem_names_iff (hlive : m.cwd.removed = []) (h : names m value = .ok all) :
    name ∈ all ↔ (∃ b : Builtin, name = b.name) ∨ FindsListed m value name := by
  rw [mem_names_iff_runsIn h, exists_runsIn_iff hlive, findsListed_iff hlive]

end SearchPath

namespace Completer

variable {c : Completer} {text name : Text}

/-- Asked for the completions of a text from the first one on, the completer gives the name. -/
def Offers (c : Completer) (text name : Text) : Prop :=
  ∃ number : Nat, ((c.complete text 0).2.complete text number).1 = .ok (some (name ++ [' ']))

theorem complete_refreshed (c : Completer) (text : Text) (number : Nat) :
    ((c.complete text 0).2.complete text number).1 =
      .ok ((c.completions text)[number]?.map (· ++ [' '])) := by
  cases number <;> rfl

/-- A completer offers those of its names that begin with the text. -/
theorem offers_iff : c.Offers text name ↔ name ∈ c.names ∧ text <+: name := by
  have hmem : name ∈ c.completions text ↔ name ∈ c.names ∧ text <+: name := by
    simp [completions]
  rw [← hmem, List.mem_iff_getElem?]
  refine exists_congr fun number => ?_
  rw [complete_refreshed]
  simp

end Completer

namespace SearchPath

variable {m : Machine} {value : Text}

/-- While the working directory has a path, the names that can be run are listed for every search
path without U+0000. The builtins are among them. Any other of them is found by a look-up, and what
a look-up finds in a directory that can be listed is among them. So completion offers no name that
cannot be run, and leaves none out that stands in a directory that can be listed. -/
theorem names_agree_with_find (hlive : m.cwd.removed = []) (hnul : '\x00' ∉ value) :
    ∃ all, names m value = .ok all ∧ (∀ b : Builtin, b.name ∈ all) ∧
      (∀ name ∈ all, Builtin.ofName? name = none →
        ∃ path, find m value name = .ok (some path)) ∧
      (∀ name path directory listed, find m value name = .ok (some path) →
        IsFirstHolder m value name directory → m.list directory = .ok listed → name ∈ all) ∧
      ∀ text name, (Completer.ofNames all).Offers text name ↔
        text <+: name ∧ ((∃ b : Builtin, name = b.name) ∨ FindsListed m value name) := by
  obtain ⟨all, hall⟩ := exists_names m hnul
  have hmem {name : Text} :
      name ∈ all ↔ (∃ b : Builtin, name = b.name) ∨ FindsListed m value name :=
    mem_names_iff hlive hall
  refine ⟨all, hall, fun b => hmem.2 (.inl ⟨b, rfl⟩), ?sound, ?complete, ?offered⟩
  case sound =>
    intro name hname hno
    rcases hmem.1 hname with ⟨b, rfl⟩ | ⟨hfinds, -⟩
    · simp [Builtin.ofName?_name] at hno
    · exact hfinds
  case complete =>
    intro name path directory listed hfind hholder hlist
    exact hmem.2 (.inr ⟨⟨path, hfind⟩, directory, mem_of_isFirstHolder hholder, ⟨listed, hlist⟩,
      canRun_of_isFirstHolder hholder⟩)
  case offered =>
    intro text name
    have hnames : name ∈ (Completer.ofNames all).names ↔ name ∈ all := by
      simp [Completer.ofNames, sorted]
    rw [Completer.offers_iff, hnames, hmem, and_comm]

/-- Behind the link `/l` to the directory `/b`, the name `x` is found, listed and offered. -/
theorem names_agree_with_find_link :
    let b : Name := { text := ['b'] }
    let l : Name := { text := ['l'] }
    let x : Name := { text := ['x'] }
    let tree : FileTree := .cons b (.directory .all) (.cons x (.file .all [] .idle) .empty .empty)
      (.cons l (.link { text := ['b'] }) .empty .empty)
    let m : Machine := ⟨tree, .live [], true⟩
    let value := "/l".toList
    m.cwd.removed = [] ∧ '\x00' ∉ value ∧ ∃ all, names m value = .ok all ∧ ['x'] ∈ all ∧
      (∃ path, find m value ['x'] = .ok (some path)) ∧
      (Completer.ofNames all).Offers [] ['x'] := by
  intro b l x tree m value
  have hlive : m.cwd.removed = [] := rfl
  have hnul : '\x00' ∉ value := by decide
  obtain ⟨all, hall, -, hsound, hcomplete, hoffers⟩ := names_agree_with_find hlive hnul
  have hholder : IsFirstHolder m value ['x'] "/l".toList := ⟨[], [], rfl, rfl, by simp⟩
  have hmem := hcomplete ['x'] "/l/x".toList "/l".toList [x] rfl hholder rfl
  have hfound := hsound ['x'] hmem (by decide)
  refine ⟨hlive, hnul, all, hall, hmem, hfound,
    (hoffers [] ['x']).2 ⟨List.nil_prefix, .inr ?_⟩⟩
  exact ⟨hfound, "/l".toList, mem_of_isFirstHolder hholder, ⟨[x], rfl⟩, rfl⟩

end SearchPath

end PocketShell
