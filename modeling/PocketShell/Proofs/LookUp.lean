import PocketShell.Proofs.Calls
import PocketShell.Proofs.PathText
import PocketShell.SearchPath

/-!
# Looking names up

The first directory of a search path that holds an executable file of a name settles what is
answered: the absolute form of the path below that directory, which only a working directory that
was removed can refuse.
-/

namespace PocketShell

namespace SearchPath

/-- The first directory of a search path in which a name is an executable file. -/
def IsFirstHolder (m : Machine) (value name directory : Text) : Prop :=
  ∃ before after, directories value = before ++ directory :: after ∧
    m.canRun (Path.join directory name) = true ∧
    ∀ earlier ∈ before, m.canRun (Path.join earlier name) = false

variable {m : Machine} {value name : Text}

theorem isFirstHolder_iff {directory : Text} :
    IsFirstHolder m value name directory ↔
      (directories value).find? (fun d => m.canRun (Path.join d name)) = some directory := by
  rw [List.find?_eq_some_iff_append]
  constructor
  · rintro ⟨before, after, hdirs, hrun, hbefore⟩
    exact ⟨hrun, before, after, hdirs, fun earlier he => by simp [hbefore earlier he]⟩
  · rintro ⟨hrun, before, after, hdirs, hbefore⟩
    exact ⟨before, after, hdirs, hrun, fun earlier he => by simpa using hbefore earlier he⟩

theorem IsFirstHolder.unique {d e : Text} (hd : IsFirstHolder m value name d)
    (he : IsFirstHolder m value name e) : d = e :=
  Option.some.inj ((isFirstHolder_iff.1 hd).symm.trans (isFirstHolder_iff.1 he))

/-- What a look-up answers is settled by the first directory that holds the name. -/
theorem find_of_isFirstHolder (hn : isName name = true) {directory : Text}
    (hd : IsFirstHolder m value name directory) :
    find m value name = (m.absolute (Path.join directory name)).map some := by
  have hc : candidate? m name (directories value) = some (Path.join directory name) := by
    rw [candidate?, List.find?_map]
    exact congrArg (Option.map (Path.join · name)) (isFirstHolder_iff.1 hd)
  simp only [find, hn, hc, if_true]

theorem find_of_no_holder (h : ∀ directory, ¬ IsFirstHolder m value name directory) :
    find m value name = .ok none := by
  have hnone : (directories value).find? (fun d => m.canRun (Path.join d name)) = none :=
    Option.eq_none_iff_forall_ne_some.2 fun d hd => h d (isFirstHolder_iff.2 hd)
  have hc : candidate? m name (directories value) = none := by
    rw [candidate?, List.find?_map]
    exact congrArg (Option.map (Path.join · name)) hnone
  simp [find, hc]

theorem find_of_not_isName (h : isName name = false) : find m value name = .ok none := by
  simp [find, h]

theorem mem_of_isFirstHolder {directory : Text} (h : IsFirstHolder m value name directory) :
    directory ∈ directories value := by
  obtain ⟨before, after, hdirs, -, -⟩ := h
  simp [hdirs]

theorem ne_nil_of_mem_directories {directory : Text} (h : directory ∈ directories value) :
    directory ≠ [] := by
  simpa using (List.mem_filter.1 h).2

theorem ne_nil_of_isFirstHolder {directory : Text} (h : IsFirstHolder m value name directory) :
    directory ≠ [] :=
  ne_nil_of_mem_directories (mem_of_isFirstHolder h)

theorem ne_nil_of_isName (h : isName name = true) : name ≠ [] := by
  simp only [isName, Bool.and_eq_true, decide_eq_true_eq] at h
  exact h.1

theorem canRun_of_isFirstHolder {directory : Text} (h : IsFirstHolder m value name directory) :
    m.canRun (Path.join directory name) = true := by
  obtain ⟨before, after, -, hrun, -⟩ := h
  exact hrun

theorem no_slash_of_isName (h : isName name = true) : '/' ∉ name := by
  simp only [isName, Bool.and_eq_true, decide_eq_true_eq] at h
  exact h.2

/-- A path is answered exactly for a name that some directory holds. -/
theorem find_eq_some_iff {path : Text} :
    find m value name = .ok (some path) ↔ isName name = true ∧
      ∃ directory, IsFirstHolder m value name directory ∧
        m.absolute (Path.join directory name) = .ok path := by
  have map_some (e : Except Fault Text) : e.map some = .ok (some path) ↔ e = .ok path := by
    cases e <;> simp [Except.map]
  constructor
  · intro h
    cases hn : isName name with
    | false => simp [find_of_not_isName hn] at h
    | true =>
      by_cases hd : ∃ directory, IsFirstHolder m value name directory
      · obtain ⟨directory, hd⟩ := hd
        rw [find_of_isFirstHolder hn hd, map_some] at h
        exact ⟨rfl, directory, hd, h⟩
      · simp [find_of_no_holder (not_exists.1 hd)] at h
  · rintro ⟨hn, directory, hd, ha⟩
    rw [find_of_isFirstHolder hn hd, map_some]
    exact ha

/-- A look-up is refused exactly if the first directory that holds the name is a relative one and
the working directory was removed. -/
theorem find_eq_error_iff {reason : Fault} :
    find m value name = .error reason ↔ isName name = true ∧
      (∃ directory, IsFirstHolder m value name directory ∧ Path.isAbsolute directory = false) ∧
      m.cwd.removed ≠ [] ∧ reason = .errno .noEntry := by
  have refused (hn : isName name = true) {directory : Text}
      (hd : IsFirstHolder m value name directory) :
      find m value name = .error reason ↔ Path.isAbsolute directory = false ∧
        m.cwd.removed ≠ [] ∧ reason = .errno .noEntry := by
    have habs := Path.isAbsolute_join (ne_nil_of_isFirstHolder hd) (no_slash_of_isName hn)
    rw [find_of_isFirstHolder hn hd, ← habs, ← Machine.absolute_eq_error_iff]
    cases m.absolute (Path.join directory name) <;> simp [Except.map]
  constructor
  · intro h
    cases hn : isName name with
    | false => simp [find_of_not_isName hn] at h
    | true =>
      by_cases hd : ∃ directory, IsFirstHolder m value name directory
      · obtain ⟨directory, hd⟩ := hd
        obtain ⟨hrel, hrest⟩ := (refused hn hd).1 h
        exact ⟨rfl, ⟨directory, hd, hrel⟩, hrest⟩
      · simp [find_of_no_holder (not_exists.1 hd)] at h
  · rintro ⟨hn, ⟨directory, hd, hrel⟩, hrest⟩
    exact (refused hn hd).2 ⟨hrel, hrest⟩

end SearchPath

end PocketShell
