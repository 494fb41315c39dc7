import PocketShell.Proofs.OfferedNames

/-!
# Search paths behind one another

The directories of two search paths with a colon between them are those of the one and then those
of the other, and empty ones do not count. A name is looked up until the first directory that holds
it, so the second path is asked where the first one has no answer, and an entry that does not hold
the name changes nothing. The names that can be run are collected from every directory, so that
neither the order of the directories nor their repetition shows.
-/

namespace PocketShell.SearchPath

variable {m : Machine} {a b name entry : Text} {searched : List Text}

/-! ## Looking up -/

theorem candidate?_append (m : Machine) (name : Text) (ds es : List Text) :
    candidate? m name (ds ++ es) = (candidate? m name ds).or (candidate? m name es) := by
  simp only [candidate?, List.map_append, List.find?_append]

theorem find_congr (h : candidate? m name (directories a) = candidate? m name (directories b)) :
    find m a name = find m b name := by
  simp only [find, h]

/-- Where the first search path has no answer, the second one is asked. -/
theorem find_append (m : Machine) (a b name : Text) :
    find m (a ++ ':' :: b) name =
      match find m a name with
      | .ok none => find m b name
      | answer => answer := by
  cases hname : isName name with
  | false => simp only [find_of_not_isName hname]
  | true =>
    simp only [find, hname, if_true, directories_append, candidate?_append]
    cases candidate? m name (directories a) with
    | none => rfl
    | some path =>
      dsimp only [Option.some_or]
      cases m.absolute path <;> rfl

/-! ## Entries -/

/-- The name is an executable file in the directory of an entry. An empty entry has no directory. -/
def Holds (m : Machine) (name entry : Text) : Prop :=
  entry ≠ [] ∧ m.canRun (Path.join entry name) = true

/-- Entries without colons are those of the search path that they are joined to. -/
theorem directories_joined {entries : List Text} (h : ∀ e ∈ entries, ':' ∉ e) :
    directories (Text.joined [':'] entries) = entries.filter (· ≠ []) := by
  by_cases hne : entries = []
  · subst hne
    rfl
  · rw [directories, Text.fields_joined hne h]

theorem candidate?_of_not_holds (h : ¬ Holds m name entry) :
    candidate? m name ([entry].filter (· ≠ [])) = none := by
  by_cases hentry : entry = []
  · simp [hentry, candidate?]
  · have hrun : m.canRun (Path.join entry name) = false := by simpa [Holds, hentry] using h
    simp [hentry, hrun, candidate?]

/-- An entry that does not hold the name is never what a look-up ends at. -/
theorem find_joined_of_not_holds {before after : List Text}
    (hcolon : ∀ e ∈ before ++ entry :: after, ':' ∉ e) (h : ¬ Holds m name entry) :
    find m (Text.joined [':'] (before ++ entry :: after)) name =
      find m (Text.joined [':'] (before ++ after)) name := by
  have hothers : ∀ e ∈ before ++ after, ':' ∉ e := by
    intro e he
    apply hcolon e
    rw [List.mem_append] at he ⊢
    exact he.imp_right (List.mem_cons_of_mem entry)
  apply find_congr
  rw [directories_joined hcolon, directories_joined hothers, ← List.singleton_append]
  simp only [List.filter_append, candidate?_append, candidate?_of_not_holds h, Option.none_or]

/-! ## Listing -/

theorem executablesOf_eq_nul_iff :
    executablesOf m searched = .error .nul ↔ ∃ directory ∈ searched, '\x00' ∈ directory := by
  induction searched with
  | nil => simp [executablesOf]
  | cons directory rest ih =>
    simp only [List.mem_cons, exists_eq_or_imp]
    rw [← ih, ← m.list_eq_nul_iff directory, executablesOf, executablesIn]
    cases m.list directory with
    | ok listed => cases executablesOf m rest <;> simp [Except.map]
    | error fault => cases fault <;> simp [Except.map]

theorem nodup_eraseDups (ts : List Text) : ts.eraseDups.Nodup := by
  cases ts with
  | nil => exact .nil
  | cons t rest =>
    rw [List.eraseDups_cons, List.nodup_cons]
    refine ⟨fun hmem => ?_, nodup_eraseDups _⟩
    simp at hmem
termination_by ts.length
decreasing_by
  have hle := List.length_filter_le (fun u => !u == t) rest
  simp only [List.length_cons]
  omega

theorem sorted_eraseDups_congr {ts us : List Text} (h : ∀ t, t ∈ ts ↔ t ∈ us) :
    sorted ts.eraseDups = sorted us.eraseDups := by
  apply sorted_eq_of_perm
  rw [List.perm_ext_iff_of_nodup (nodup_eraseDups ts) (nodup_eraseDups us)]
  intro t
  rw [List.mem_eraseDups, List.mem_eraseDups, h t]

/-- The same directories, in any order and repeated or not, give the same names. -/
theorem names_congr (h : ∀ directory, directory ∈ directories a ↔ directory ∈ directories b) :
    names m a = names m b := by
  by_cases hnul : ∃ directory ∈ directories a, '\x00' ∈ directory
  · have hnul' : ∃ directory ∈ directories b, '\x00' ∈ directory := by simpa only [h] using hnul
    rw [names, names, executablesOf_eq_nul_iff.2 hnul, executablesOf_eq_nul_iff.2 hnul']
  · have hplain : ∀ directory ∈ directories a, '\x00' ∉ directory := by simpa using hnul
    have hplain' : ∀ directory ∈ directories b, '\x00' ∉ directory := by simpa only [h] using hplain
    obtain ⟨inA, hinA⟩ := exists_executablesOf m hplain
    obtain ⟨inB, hinB⟩ := exists_executablesOf m hplain'
    have hsame (name : Text) : name ∈ inA ↔ name ∈ inB := by
      rw [mem_executablesOf hinA, mem_executablesOf hinB]
      simp only [h]
    rw [names, names, hinA, hinB]
    apply congrArg Except.ok
    apply sorted_eraseDups_congr
    intro name
    rw [List.mem_append, List.mem_append, hsame]

/-- The names of two search paths behind one another are those of the one and of the other. -/
theorem exists_names_append (ha : '\x00' ∉ a) (hb : '\x00' ∉ b) :
    ∃ inA inB inBoth, names m a = .ok inA ∧ names m b = .ok inB ∧
      names m (a ++ ':' :: b) = .ok inBoth ∧
      ∀ name, name ∈ inBoth ↔ name ∈ inA ∨ name ∈ inB := by
  have hboth : '\x00' ∉ a ++ ':' :: b := by simp [ha, hb]
  obtain ⟨inA, hinA⟩ := exists_names m ha
  obtain ⟨inB, hinB⟩ := exists_names m hb
  obtain ⟨inBoth, hinBoth⟩ := exists_names m hboth
  refine ⟨inA, inB, inBoth, hinA, hinB, hinBoth, fun name => ?_⟩
  rw [mem_names_iff_runsIn hinA, mem_names_iff_runsIn hinB, mem_names_iff_runsIn hinBoth,
    directories_append, ← or_or_distrib_left]
  simp only [List.mem_append, or_and_right, exists_or]

/-- What is looked up on two search paths with a colon between them is looked up on the second one
where the first one has no answer, and a look-up that is refused on the one that is reached is
refused. The names that can be run are those of both paths; they depend on nothing but the
directories, whatever their order and repetition. And wherever an entry is put in that does not hold
a name, looking that name up comes to the same. -/
theorem answers_compose (m : Machine) :
    (∀ a b name, find m (a ++ ':' :: b) name =
      match find m a name with
      | .ok none => find m b name
      | answer => answer) ∧
    (∀ a b, '\x00' ∉ a → '\x00' ∉ b → ∃ inA inB inBoth, names m a = .ok inA ∧
      names m b = .ok inB ∧ names m (a ++ ':' :: b) = .ok inBoth ∧
      ∀ name, name ∈ inBoth ↔ name ∈ inA ∨ name ∈ inB) ∧
    (∀ a b, (∀ directory, directory ∈ directories a ↔ directory ∈ directories b) →
      names m a = names m b) ∧
    ∀ before after entry name, (∀ e ∈ before ++ entry :: after, ':' ∉ e) → ¬ Holds m name entry →
      find m (Text.joined [':'] (before ++ entry :: after)) name =
        find m (Text.joined [':'] (before ++ after)) name := by
  refine ⟨find_append m, ?union, ?order, ?entry⟩
  case union =>
    intro a b ha hb
    exact exists_names_append ha hb
  case order =>
    intro a b h
    exact names_congr h
  case entry =>
    intro before after entry name hcolon h
    exact find_joined_of_not_holds hcolon h

/-- The file `x` may be run in `/b`, and in `/a` it may not. -/
theorem answers_compose_shadowed :
    let a : Name := { text := ['a'] }
    let b : Name := { text := ['b'] }
    let x : Name := { text := ['x'] }
    let closed : FileTree := .cons x (.file .newFile [] .idle) .empty .empty
    let free : FileTree := .cons x (.file .all [] .idle) .empty .empty
    let tree : FileTree := .cons a (.directory .all) closed (.cons b (.directory .all) free .empty)
    let m : Machine := ⟨tree, .live [], true⟩
    '\x00' ∉ "/a:".toList ∧ '\x00' ∉ ":/b".toList ∧
      find m "/a:::/b".toList ['x'] = .ok (some "/b/x".toList) ∧
      (∃ inA inB inBoth, names m "/a:".toList = .ok inA ∧ names m ":/b".toList = .ok inB ∧
        names m "/a:::/b".toList = .ok inBoth ∧ ∀ name, name ∈ inBoth ↔ name ∈ inA ∨ name ∈ inB) ∧
      (∀ directory, directory ∈ directories "/a:/b:/a".toList ↔
        directory ∈ directories "/b::/a".toList) ∧
      names m "/a:/b:/a".toList = names m "/b::/a".toList ∧
      ¬ Holds m ['x'] "/a".toList ∧
      find m "/b:/a:/b".toList ['x'] = find m "/b:/b".toList ['x'] := by
  intro a b x closed free tree m
  obtain ⟨hfind, hunion, horder, hentry⟩ := answers_compose m
  have ha : '\x00' ∉ "/a:".toList := by decide
  have hb : '\x00' ∉ ":/b".toList := by decide
  have hdirectories : ∀ directory, directory ∈ directories "/a:/b:/a".toList ↔
      directory ∈ directories "/b::/a".toList := by
    have hleft : directories "/a:/b:/a".toList = ["/a".toList, "/b".toList, "/a".toList] := rfl
    have hright : directories "/b::/a".toList = ["/b".toList, "/a".toList] := rfl
    intro directory
    rw [hleft, hright]
    simp only [List.mem_cons, List.not_mem_nil, or_false]
    grind
  have hnot : ¬ Holds m ['x'] "/a".toList := fun h => Bool.false_ne_true h.2
  have hcolon : ∀ e ∈ ["/b".toList] ++ "/a".toList :: ["/b".toList], ':' ∉ e := by decide
  exact ⟨ha, hb, hfind "/a:".toList ":/b".toList ['x'], hunion _ _ ha hb, hdirectories,
    horder _ _ hdirectories, hnot, hentry _ _ _ _ hcolon hnot⟩

end PocketShell.SearchPath
