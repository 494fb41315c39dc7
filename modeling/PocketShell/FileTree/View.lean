import PocketShell.FileTree

/-!
# What is found after a change

A tree is known by what is found at each location. Binding a location in a directory makes its
entry found there and nothing below it, and is not noticed at any other location.
-/

namespace PocketShell.FileTree

@[simp] theorem lookup_set_self (t : FileTree) (n : Name) (e : Entry) :
    (t.set n e).lookup n = some (e, .empty) := by
  induction t with
  | empty => simp [set, lookup]
  | cons name entry below others _ ih =>
    by_cases h : name = n <;> simp [set, lookup, h, ih]

theorem lookup_set_of_ne {m n : Name} (h : m ≠ n) (t : FileTree) (e : Entry) :
    (t.set n e).lookup m = t.lookup m := by
  induction t with
  | empty => simp [set, lookup, Ne.symm h]
  | cons name entry below others _ ih =>
    by_cases hn : name = n
    · simp [set, lookup, hn, Ne.symm h]
    · simp [set, lookup, hn, ih]

theorem lookup_adjust_self (t : FileTree) (n : Name) (f : FileTree → FileTree) :
    (t.adjust n f).lookup n = (t.lookup n).map fun b => (b.1, f b.2) := by
  induction t with
  | empty => rfl
  | cons name entry below others _ ih =>
    by_cases h : name = n <;> simp [adjust, lookup, h, ih]

theorem lookup_adjust_of_ne {m n : Name} (h : m ≠ n) (t : FileTree) (f : FileTree → FileTree) :
    (t.adjust n f).lookup m = t.lookup m := by
  induction t with
  | empty => rfl
  | cons name entry below others _ ih =>
    by_cases hn : name = n
    · simp [adjust, lookup, hn, Ne.symm h]
    · simp [adjust, lookup, hn, ih]

/-- What is found at a location is what its name stands for in the directory above it. -/
theorem find?_cons (t : FileTree) (n : Name) (parent : Location) :
    t.find? (n :: parent) = (t.contents? parent).bind fun c => (c.2.lookup n).map Prod.fst := by
  cases h : t.contents? parent <;> simp [find?, h]

/-- A directory holds after a change what the change makes of what it held. -/
theorem contents?_update (t : FileTree) (l : Location) (f : FileTree → FileTree) :
    (t.update l f).contents? l = (t.contents? l).map fun c => (c.1, f c.2) := by
  induction l generalizing f with
  | nil => rfl
  | cons n parent ih =>
    cases hc : t.contents? parent with
    | none => simp [update, contents?, ih, hc]
    | some c =>
      cases hl : c.2.lookup n with
      | none => simp [update, contents?, ih, hc, lookup_adjust_self, hl]
      | some b =>
        rcases b with ⟨_ | _ | _, below⟩ <;>
          simp [update, contents?, directory?, ih, hc, lookup_adjust_self, hl]

/-- A location is not noticed to hold something else. -/
theorem find?_update_self (t : FileTree) (l : Location) (f : FileTree → FileTree) :
    (t.update l f).find? l = t.find? l := by
  cases l with
  | nil => rfl
  | cons n parent =>
    rw [find?_cons, find?_cons, update, contents?_update]
    cases t.contents? parent with
    | none => rfl
    | some c =>
      simp only [Option.map_some, Option.bind_some, lookup_adjust_self]
      cases c.2.lookup n <;> rfl

/-- Two trees in which a name stands for the same hold the same below that name. -/
theorem contents?_congr {t u : FileTree} {n : Name} (h : t.lookup n = u.lookup n) (s : Location) :
    t.contents? (s ++ [n]) = u.contents? (s ++ [n]) := by
  induction s with
  | nil => simp [contents?, h]
  | cons m s ih => simp only [List.cons_append, contents?, ih]

theorem find?_congr {t u : FileTree} {n : Name} (h : t.lookup n = u.lookup n) (s : Location) :
    t.find? (s ++ [n]) = u.find? (s ++ [n]) := by
  cases s with
  | nil => simp [find?, contents?, h]
  | cons m s => simp only [List.cons_append, find?_cons, contents?_congr h s]

/-- What is below a directory is found in what the directory holds. -/
theorem contents?_append (t : FileTree) (s l : Location) (n : Name) :
    t.contents? (s ++ n :: l) = (t.contents? l).bind fun c => c.2.contents? (s ++ [n]) := by
  induction s with
  | nil => cases h : t.contents? l <;> simp [contents?, h]
  | cons m s ih =>
    simp only [List.cons_append, contents?, ih]
    cases t.contents? l <;> rfl

theorem find?_append (t : FileTree) (s l : Location) (n : Name) :
    t.find? (s ++ n :: l) = (t.contents? l).bind fun c => c.2.find? (s ++ [n]) := by
  cases s with
  | nil => cases h : t.contents? l <;> simp [find?, contents?, h]
  | cons m s =>
    rw [List.cons_append, find?_cons, contents?_append t s]
    cases t.contents? l with
    | none => rfl
    | some c => exact (find?_cons c.2 m (s ++ [n])).symm

/-- A change of what one name stands for in a directory is not noticed elsewhere. -/
theorem find?_update_of_not_suffix {t : FileTree} {n : Name} {parent k : Location}
    {f : FileTree → FileTree} (hf : ∀ held m, m ≠ n → (f held).lookup m = held.lookup m)
    (hk : ¬ n :: parent <:+ k) : (t.update parent f).find? k = t.find? k := by
  induction parent generalizing n f with
  | nil =>
    rcases List.eq_nil_or_concat k with rfl | ⟨s, m, rfl⟩
    · rfl
    · rw [List.concat_eq_append] at hk ⊢
      exact find?_congr (hf t m fun h => hk ⟨s, by rw [h]⟩) s
  | cons name above ih =>
    by_cases hs : name :: above <:+ k
    · obtain ⟨s, rfl⟩ := hs
      rcases List.eq_nil_or_concat s with rfl | ⟨s, m, rfl⟩
      · exact find?_update_self t (name :: above) f
      · rw [List.concat_eq_append, List.append_assoc, List.singleton_append, find?_append,
          find?_append, contents?_update]
        cases t.contents? (name :: above) with
        | none => rfl
        | some c =>
          refine find?_congr (hf c.2 m fun h => hk ⟨s, ?_⟩) s
          simp [h]
    · exact ih (fun held m h => lookup_adjust_of_ne h held f) hs

/-- Below what holds nothing, nothing is found. -/
theorem find?_of_lookup_none {t : FileTree} {n : Name} (h : t.lookup n = none) (s : Location) :
    t.find? (s ++ [n]) = none := by
  rw [find?_congr (u := .empty) h s]
  induction s with
  | nil => rfl
  | cons m s ih =>
    rw [List.cons_append, find?_cons]
    cases hc : FileTree.empty.contents? (s ++ [n]) with
    | none => rfl
    | some c =>
      rw [find?_eq_directory_iff.2 ⟨c.2, hc⟩] at ih
      simp at ih

/-- Below a new entry nothing is found, whether it is a directory or not. -/
private theorem find?_below_set (t : FileTree) (n m : Name) (e : Entry) (s : Location) :
    (t.set n e).find? (s ++ [m, n]) = none := by
  rw [find?_append]
  cases e with
  | directory permissions =>
    rw [show (t.set n (.directory permissions)).contents? [n] = some (permissions, .empty) by
      simp [contents?, directory?]]
    exact find?_of_lookup_none rfl s
  | file permissions text program => simp [contents?, directory?]
  | link target => simp [contents?, directory?]

theorem find?_bind {t : FileTree} {n : Name} {parent : Location} (h : t.contents? parent ≠ none)
    (e : Entry) (k : Location) :
    (t.bind (n :: parent) e).find? k =
      if k = n :: parent then some e else if n :: parent <:+ k then none else t.find? k := by
  split
  · next hk =>
    obtain ⟨c, hc⟩ := Option.ne_none_iff_exists'.1 h
    simp [hk, bind, find?_cons, contents?_update, hc]
  · next hk =>
    split
    · next hs =>
      obtain ⟨s, rfl⟩ := hs
      rcases List.eq_nil_or_concat s with rfl | ⟨s, m, rfl⟩
      · exact absurd rfl hk
      · obtain ⟨c, hc⟩ := Option.ne_none_iff_exists'.1 h
        rw [List.concat_eq_append, find?_append, bind, contents?_update, hc, List.append_assoc]
        exact find?_below_set c.2 n m e s
    · next hs => exact find?_update_of_not_suffix (fun held m hm => lookup_set_of_ne hm held e) hs

end PocketShell.FileTree
