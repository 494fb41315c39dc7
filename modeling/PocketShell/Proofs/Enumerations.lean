import PocketShell.Completer

/-!
# Enumerating completions

A completer is asked for the completions of a text one by one, beginning with number 0. It looks
them up then and only then, so what it answers depends on the last look-up. Whatever it was asked
before, from number 0 on it answers the names that begin with the text, in the order of their code
points and each as often as it was given, and nothing behind the last of them.
-/

namespace PocketShell.Completer

/-- One text comes before another in the order of their code points. -/
def Precedes (a b : Text) : Prop :=
  List.Lex (fun c d => c.toNat < d.toNat) a b

/-- The names that begin with a text, in their order, each as often as it is among the names. -/
structure Lists (names : List Text) (text : Text) (found : List Text) : Prop where
  perm : found.Perm (names.filter (text <+: ·))
  ordered : found.Pairwise fun a b => ¬ Precedes b a

/-- The answers to questions for a text and a number, one after the other. -/
def answers (c : Completer) : List (Text × Nat) → List (Except OutOfRange (Option Text))
  | [] => []
  | (text, number) :: rest =>
    (c.complete text number).1 :: (c.complete text number).2.answers rest

/-- The completer behind some questions. -/
def after (c : Completer) (questions : List (Text × Nat)) : Completer :=
  questions.foldl (fun c question => (c.complete question.1 question.2).2) c

variable {c : Completer} {names found : List Text} {text a b : Text}

theorem not_precedes_iff : ¬ Precedes b a ↔ List.lex b a = false := by
  rw [List.lex_eq_false_iff_ge]
  exact Iff.rfl

theorem lists_completions (names : List Text) (text : Text) :
    Lists names text ((ofNames names).completions text) where
  perm := by
    have hprefix (name : Text) : text.isPrefixOf name = decide (text <+: name) := by
      rw [Bool.eq_iff_iff, List.isPrefixOf_iff_prefix, decide_eq_true_iff]
    simp only [completions, hprefix]
    exact (SearchPath.sorted_perm names).filter _
  ordered := by
    simp only [not_precedes_iff]
    exact (SearchPath.pairwise_sorted names).filter _

/-- The order leaves no choice. -/
theorem Lists.unique {other : List Text} (h : Lists names text found)
    (hother : Lists names text other) : other = found := by
  refine List.Perm.eq_of_pairwise ?antisymm hother.ordered h.ordered ?perm
  case antisymm =>
    intro a b _ _ hab hba
    rw [not_precedes_iff, List.lex_eq_false_iff_ge] at hab hba
    exact List.le_antisymm hab hba
  case perm => exact hother.perm.trans h.perm.symm

theorem lists_iff : Lists names text found ↔ found = (ofNames names).completions text := by
  constructor
  · exact (lists_completions names text).unique
  · rintro rfl
    exact lists_completions names text

theorem complete_eq (c : Completer) (text : Text) (number : Nat) :
    c.complete text number =
      (.ok ((c.refreshed text number).found[number]?.map (· ++ [' '])), c.refreshed text number) :=
  rfl

theorem names_refreshed (c : Completer) (text : Text) (number : Int) :
    (c.refreshed text number).names = c.names := by
  unfold refreshed
  split <;> rfl

/-- Looking up again what was looked up last changes nothing. -/
theorem refreshed_of_found (h : c.found = c.completions text) (number : Int) :
    c.refreshed text number = c := by
  unfold refreshed
  split
  · rw [← h]
  · rfl

/-- No question changes the names. -/
theorem names_after (c : Completer) (questions : List (Text × Nat)) :
    (c.after questions).names = c.names := by
  induction questions generalizing c with
  | nil => rfl
  | cons question rest ih =>
    rw [← names_refreshed c question.1 question.2]
    exact ih (c.refreshed question.1 question.2)

/-- No question that counts from the first completion on is refused. -/
theorem exists_reply {questions : List (Text × Nat)} {answer : Except OutOfRange (Option Text)}
    (h : answer ∈ c.answers questions) : ∃ reply, answer = .ok reply := by
  induction questions generalizing c with
  | nil => simp [answers] at h
  | cons question rest ih =>
    rcases List.mem_cons.1 h with rfl | h
    · exact ⟨_, congrArg Prod.fst (complete_eq c question.1 question.2)⟩
    · exact ih h

/-- While the completions of a text are the last that were looked up, questions for them are
answered from there and change nothing. -/
theorem answers_of_found (h : c.found = c.completions text) (numbers : List Nat) :
    c.answers (numbers.map (text, ·)) =
      numbers.map fun number => .ok ((c.completions text)[number]?.map (· ++ [' '])) := by
  induction numbers with
  | nil => rfl
  | cons number rest ih =>
    rw [List.map_cons, answers, complete_eq, refreshed_of_found h, ih, h]
    rfl

/-- Whatever a completer was asked before, and no such question is refused: asked for the first
completion of a text and then for others of its completions, in any order and as often as one likes,
it answers for each number the name that the number counts to among those that begin with the text,
with a space behind it, and none where there are not so many. -/
theorem answers_enumerate (names : List Text) (history : List (Text × Nat)) (text : Text)
    (later : List Nat) :
    (∀ answer ∈ (ofNames names).answers history, ∃ reply, answer = .ok reply) ∧
    ∃ found, (∀ other, Lists names text other ↔ other = found) ∧
      ((ofNames names).after history).answers ((text, 0) :: later.map (text, ·)) =
        (0 :: later).map fun number => .ok (found[number]?.map (· ++ [' '])) := by
  refine ⟨fun answer => exists_reply, (ofNames names).completions text, fun _ => lists_iff, ?_⟩
  have hcompletions : ((ofNames names).after history).completions text =
      (ofNames names).completions text := by
    rw [completions, names_after, completions]
  generalize (ofNames names).after history = c at hcompletions
  -- The question for number 0 is answered as if its completions had been looked up before.
  have hlookedUp : c.answers ((text, 0) :: later.map (text, ·)) =
      (c.refreshed text 0).answers ((0 :: later).map (text, ·)) := rfl
  rw [hlookedUp, answers_of_found rfl, ← hcompletions]
  rfl

/-- Behind an enumeration that was left for another one: out of order, repeated, and past the
end. -/
example :
    let c := ofNames ["ls".toList, "echo".toList, "l".toList, "ls".toList]
    (c.after [([], 0), ([], 1), ("e".toList, 0)]).answers
        [("l".toList, 0), ("l".toList, 3), ("l".toList, 2), ("l".toList, 1), ("l".toList, 2)] =
      [.ok (some "l ".toList), .ok none, .ok (some "ls ".toList), .ok (some "ls ".toList),
        .ok (some "ls ".toList)] := by
  cbv

end PocketShell.Completer
