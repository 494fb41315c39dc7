import PocketShell.Clause

/-!
# Commands by their texts

The command of some words is settled by their texts and by how many of them stand before the first
operator. That number can in turn be read off the command, once it is known how many words there
were.
-/

namespace PocketShell

variable {ws rest front behind : List Word} {operator : Word}

theorem Clause.takeWhile_not_isOperator (ws : List Word) :
    ws.takeWhile (!·.isOperator) = ws.take (ws.findIdx Word.isOperator) := by
  simp [List.takeWhile_eq_take_findIdx_not]

theorem Clause.dropWhile_not_isOperator (ws : List Word) :
    ws.dropWhile (!·.isOperator) = ws.drop (ws.findIdx Word.isOperator) := by
  simp [List.dropWhile_eq_drop_findIdx_not]

/-- What stands behind the words without an operator begins with one. -/
theorem Clause.isOperator_of_dropWhile (h : ws.dropWhile (!·.isOperator) = operator :: rest) :
    operator.isOperator = true := by
  have hhead := List.head?_dropWhile_not (!·.isOperator) ws
  simpa [h] using hhead

/-- Words without an operator end where the first operator stands. -/
theorem Clause.cut_append (hfront : ∀ w ∈ front, w.isOperator = false)
    (hbehind : ∀ operator ∈ behind.head?, operator.isOperator = true) :
    (front ++ behind).takeWhile (!·.isOperator) = front ∧
      (front ++ behind).dropWhile (!·.isOperator) = behind := by
  have hbefore : ∀ w ∈ front, (!w.isOperator) = true := by simpa using hfront
  rw [List.takeWhile_append_of_pos hbefore, List.dropWhile_append_of_pos hbefore]
  cases behind with
  | nil => simp
  | cons operator rest => simp [hbehind operator rfl]

theorem Clause.length_takeWhile_not_isOperator (ws : List Word) :
    (ws.takeWhile (!·.isOperator)).length = ws.findIdx Word.isOperator := by
  rw [takeWhile_not_isOperator, List.length_take]
  exact Nat.min_eq_left List.findIdx_le_length

theorem Word.exists_kind (h : operator.isOperator = true) :
    operator.quoted = false ∧ ∃ kind, Redirection.Kind.ofOperator? operator.text = some kind := by
  simp only [isOperator, Bool.and_eq_true, Bool.not_eq_true', List.contains_iff_mem] at h
  exact ⟨h.1, Option.isSome_iff_exists.1 ((Redirection.Kind.ofOperator?_isSome_iff _).2 h.2)⟩

namespace Command

/-- The command that texts ask for when so many of them stand before the first operator. -/
def ofTexts? (ts : List Text) (before : Nat) : Option Command :=
  match ts.take before, ts.drop before with
  | [], _ => none
  | name :: args, [] => some ⟨name, args, none, false⟩
  | name :: args, [operator] => some ⟨name, args ++ [operator], none, true⟩
  | name :: args, operator :: target :: _ =>
    some ⟨name, args, (Redirection.Kind.ofOperator? operator).map (⟨·, target⟩), true⟩

theorem ofWords?_eq_ofTexts? (ws : List Word) :
    ofWords? ws = ofTexts? (ws.map Word.text) (ws.findIdx Word.isOperator) := by
  rw [ofWords?, Clause.ofWords, ofTexts?, ← List.map_take, ← List.map_drop,
    ← Clause.takeWhile_not_isOperator, ← Clause.dropWhile_not_isOperator]
  generalize ws.takeWhile (!·.isOperator) = before, ws.dropWhile (!·.isOperator) = behind
  rcases before with _ | ⟨name, args⟩ <;> rcases behind with _ | ⟨operator, _ | ⟨target, rest⟩⟩ <;>
    simp [Clause.command?]

/-- How many of so many words stand before the first operator, as their command tells it. -/
def wordsBefore (total : Nat) : Option Command → Nat
  | none => 0
  | some ⟨_, _, none, false⟩ => total
  | some ⟨_, _, none, true⟩ => total - 1
  | some ⟨_, args, some _, _⟩ => args.length + 1

theorem wordsBefore_ofWords? (ws : List Word) :
    wordsBefore ws.length (ofWords? ws) = ws.findIdx Word.isOperator := by
  have hlength := congrArg List.length
    (List.takeWhile_append_dropWhile (p := (!·.isOperator)) (l := ws))
  rw [List.length_append] at hlength
  rw [← Clause.length_takeWhile_not_isOperator, ofWords?, Clause.ofWords]
  split
  · next hbefore _ => simp [Clause.command?, wordsBefore, hbefore]
  · next hbefore _ => simp [Clause.command?, wordsBefore, hbefore]
  · next hbefore hbehind =>
    simp [Clause.command?, wordsBefore, ← hlength, hbehind]
  · next hbefore hbehind =>
    simp [Clause.command?, wordsBefore, ← hlength, hbehind]
  · next hbefore hbehind =>
    obtain ⟨-, kind, hkind⟩ := Word.exists_kind (Clause.isOperator_of_dropWhile hbehind)
    simp [Clause.command?, wordsBefore, hbefore, hkind]

/-- A command with a redirection has an operator behind its name and arguments, and behind that the
target. -/
theorem exists_of_redirection {c : Command} {r : Redirection} (h : ofWords? ws = some c)
    (hr : c.redirection = some r) :
    ∃ name args operator target rest, ws = name :: args ++ operator :: target :: rest ∧
      (∀ w ∈ name :: args, w.isOperator = false) ∧ operator.quoted = false ∧
      Redirection.Kind.ofOperator? operator.text = some r.kind ∧ name.text = c.name ∧
      target.text = r.target := by
  have hwords := List.takeWhile_append_dropWhile (p := (!·.isOperator)) (l := ws)
  have hbefore : ∀ w ∈ ws.takeWhile (!·.isOperator), w.isOperator = false := by
    simpa using List.all_eq_true.1 (List.all_takeWhile (p := (!·.isOperator)) (l := ws))
  rw [ofWords?, Clause.ofWords] at h
  split at h
  · simp [Clause.command?] at h
  · simp [Clause.command?] at h
  · cases h
    simp at hr
  · cases h
    simp at hr
  · next name args operator target rest htake hdrop =>
    obtain ⟨hquoted, kind, hkind⟩ := Word.exists_kind (Clause.isOperator_of_dropWhile hdrop)
    cases h
    simp only [hkind, Option.map_some, Option.some.injEq] at hr
    obtain rfl := hr
    rw [htake, hdrop] at hwords
    exact ⟨name, args, operator, target, rest, hwords.symm, htake ▸ hbefore, hquoted, hkind, rfl,
      rfl⟩

end Command

end PocketShell
