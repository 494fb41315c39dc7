import PocketShell.Execution
import PocketShell.Proofs.Clauses
import PocketShell.Proofs.VerbatimWords

/-!
# The command that words ask for

The first operator among some words settles what they ask for. Without one the words are a name and
its arguments; one that stands first leaves no command, and one that stands last is an argument. Any
other has its target behind it, and nothing behind the target counts. A command with a redirection
was written with an operator, so no builtin carries it out.
-/

namespace PocketShell

/-- A word that spells an operator and was not quoted. -/
def Word.IsBareOperator (w : Word) : Prop :=
  w.quoted = false ∧ w.text ∈ Word.operatorTexts

/-- The first operator among some words is the one with that index. -/
def FirstOperatorAt (ws : List Word) (i : Nat) : Prop :=
  (∃ operator, ws[i]? = some operator ∧ operator.IsBareOperator) ∧
    ∀ j < i, ∀ w, ws[j]? = some w → ¬ w.IsBareOperator

variable {ws front behind : List Word} {i : Nat}

theorem Word.isOperator_eq_true_iff (w : Word) : w.isOperator = true ↔ w.IsBareOperator := by
  simp [isOperator, IsBareOperator]

/-- Words fall into those before the first operator and what stands from there on. -/
theorem exists_front_behind (ws : List Word) :
    ∃ front behind, ws = front ++ behind ∧ (∀ w ∈ front, ¬ w.IsBareOperator) ∧
      ∀ operator ∈ behind.head?, operator.IsBareOperator := by
  refine ⟨ws.takeWhile (!·.isOperator), ws.dropWhile (!·.isOperator),
    List.takeWhile_append_dropWhile.symm, fun w hw => ?_, fun operator hop => ?_⟩
  · rw [← Word.isOperator_eq_true_iff]
    simpa using List.all_eq_true.1 List.all_takeWhile w hw
  · obtain ⟨rest, hrest⟩ := List.head?_eq_some_iff.1 hop
    exact (Word.isOperator_eq_true_iff operator).1 (Clause.isOperator_of_dropWhile hrest)

theorem firstOperatorAt_append_iff (hfront : ∀ w ∈ front, ¬ w.IsBareOperator)
    (hbehind : ∀ operator ∈ behind.head?, operator.IsBareOperator) :
    FirstOperatorAt (front ++ behind) i ↔ behind ≠ [] ∧ i = front.length := by
  constructor
  · rintro ⟨⟨operator, hat, hop⟩, hbefore⟩
    have hle : front.length ≤ i := by
      refine Nat.le_of_not_lt fun hlt => ?_
      rw [List.getElem?_append_left hlt] at hat
      exact hfront operator (List.mem_of_getElem? hat) hop
    have hge : behind ≠ [] ∧ i ≤ front.length := by
      rcases behind with _ | ⟨first, rest⟩
      · rw [List.append_nil] at hat
        exact absurd hop (hfront operator (List.mem_of_getElem? hat))
      · refine ⟨List.cons_ne_nil _ _, Nat.le_of_not_lt fun hlt => ?_⟩
        exact hbefore front.length hlt first (by simp) (hbehind first rfl)
    exact ⟨hge.1, Nat.le_antisymm hge.2 hle⟩
  · rintro ⟨hne, rfl⟩
    obtain ⟨operator, rest, rfl⟩ := List.exists_cons_of_ne_nil hne
    refine ⟨⟨operator, by simp, hbehind operator rfl⟩, fun j hj w hw => hfront w ?_⟩
    rw [List.getElem?_append_left hj] at hw
    exact List.mem_of_getElem? hw

namespace Command

open Redirection

/-- The command is settled by the words before the first operator and by what stands from there
on. -/
theorem ofWords?_append (front behind : List Word) : (∀ w ∈ front, ¬ w.IsBareOperator) →
    (∀ operator ∈ behind.head?, operator.IsBareOperator) → ofWords? (front ++ behind) =
      match front, behind with
      | [], _ => none
      | name :: args, [] => some ⟨name.text, args.map Word.text, none, false⟩
      | name :: args, [operator] =>
        some ⟨name.text, (args ++ [operator]).map Word.text, none, true⟩
      | name :: args, operator :: target :: _ =>
        some ⟨name.text, args.map Word.text,
          (Kind.ofOperator? operator.text).map (⟨·, target.text⟩), true⟩ := by
  intro hfront hbehind
  have hbefore : ∀ w ∈ front, w.isOperator = false := by
    intro w hw
    simpa [← Word.isOperator_eq_true_iff] using hfront w hw
  have hstops : ∀ operator ∈ behind.head?, operator.isOperator = true := fun operator hop =>
    (Word.isOperator_eq_true_iff operator).2 (hbehind operator hop)
  obtain ⟨htake, hdrop⟩ := Clause.cut_append hbefore hstops
  simp only [ofWords?, Clause.ofWords, htake, hdrop]
  rcases front with _ | ⟨name, args⟩ <;> rcases behind with _ | ⟨operator, _ | ⟨target, rest⟩⟩ <;>
    rfl

/-- What the command of some words is, told by where their first operator stands. -/
structure AskedBy (ws : List Word) (c : Command) : Prop where
  external_iff : c.external = true ↔ ∃ i, FirstOperatorAt ws i
  /-- Without an operator, and with one that stands last, every word is the name or an argument. -/
  whole : (∀ i, FirstOperatorAt ws i → i + 1 = ws.length) →
    c.argv = ws.map Word.text ∧ c.redirection = none
  /-- The words before any other operator are the name and the arguments. The word behind it is the
  target, and the words behind that make no difference. -/
  split : ∀ i, FirstOperatorAt ws i → i + 1 < ws.length → ∃ front operator target rest kind,
    ws = front ++ operator :: target :: rest ∧ front.length = i ∧
    (∀ w ∈ front, ¬ w.IsBareOperator) ∧ Kind.ofOperator? operator.text = some kind ∧
    c.argv = front.map Word.text ∧ c.redirection = some ⟨kind, target.text⟩ ∧
    ∀ others, ofWords? (front ++ operator :: target :: others) = some c

/-- Only an operator gives a command a redirection. -/
theorem AskedBy.external {c : Command} {r : Redirection} (h : AskedBy ws c)
    (hr : c.redirection = some r) : c.external = true := by
  refine h.external_iff.2 (Classical.not_not.1 fun hnone => ?_)
  obtain ⟨-, hplain⟩ := h.whole fun i hi => absurd ⟨i, hi⟩ hnone
  simp [hplain] at hr

theorem askedBy_of_ofWords? {c : Command} (h : ofWords? ws = some c) : AskedBy ws c := by
  obtain ⟨front, behind, rfl, hfront, hbehind⟩ := exists_front_behind ws
  have hat (i : Nat) := firstOperatorAt_append_iff (i := i) hfront hbehind
  have hsome : (∃ i, FirstOperatorAt (front ++ behind) i) ↔ behind ≠ [] := by simp [hat]
  rw [ofWords?_append _ _ hfront hbehind] at h
  rcases front with _ | ⟨name, args⟩
  · simp at h
  rcases behind with _ | ⟨operator, _ | ⟨target, rest⟩⟩
  · cases h
    refine ⟨by rw [hsome]; simp, fun _ => by simp [argv], fun i hi => ?_⟩
    exact absurd rfl ((hat i).1 hi).1
  · cases h
    refine ⟨by rw [hsome]; simp, fun _ => by simp [argv], fun i hi hlt => ?_⟩
    obtain ⟨-, rfl⟩ := (hat i).1 hi
    simp at hlt
  · cases h
    refine ⟨by rw [hsome]; simp, fun hlast => ?_, fun i hi _ => ?_⟩
    · have hlength := hlast _ ((hat _).2 ⟨by simp, rfl⟩)
      simp at hlength
    · obtain ⟨-, rfl⟩ := (hat i).1 hi
      obtain ⟨-, kind, hkind⟩ :=
        Word.exists_kind ((Word.isOperator_eq_true_iff operator).2 (hbehind operator rfl))
      refine ⟨name :: args, operator, target, rest, kind, rfl, rfl, hfront, hkind, rfl, ?_,
        fun others => ofWords?_append _ (operator :: target :: others) hfront hbehind⟩
      rw [hkind]
      rfl

/-- Words ask for a command unless there are none or they begin with an operator, and then the first
operator tells which. A command with a redirection has a target and a stream and is external, so
that it is run as a program and never handed to a builtin. -/
theorem askedBy_ofWords? (ws : List Word) :
    (ofWords? ws = none ↔ ws = [] ∨ FirstOperatorAt ws 0) ∧
    ∀ c, ofWords? ws = some c → AskedBy ws c ∧
      (c.kind? ≠ none → c.target?.isSome ∧ (Kind.stream? c.kind?).isSome ∧ c.external = true ∧
        Execution.builtin? c = none ∧ Execution.runCommand c = Execution.runProgram c) := by
  constructor
  · obtain ⟨front, behind, rfl, hfront, hbehind⟩ := exists_front_behind ws
    rw [firstOperatorAt_append_iff hfront hbehind, ofWords?_append _ _ hfront hbehind]
    rcases front with _ | ⟨name, args⟩ <;> rcases behind with _ | ⟨operator, _ | ⟨target, rest⟩⟩ <;>
      simp
  · intro c h
    have hasked := askedBy_of_ofWords? h
    refine ⟨hasked, fun hkind => ?_⟩
    cases hr : c.redirection with
    | none => simp [kind?, hr] at hkind
    | some r =>
      have hexternal := hasked.external hr
      have hbuiltin : Execution.builtin? c = none := by simp [Execution.builtin?, hexternal]
      have hruns : Execution.runCommand c = Execution.runProgram c := by
        simp [Execution.runCommand, hbuiltin]
      exact ⟨by simp [target?, hr], by simp [kind?, hr, Kind.stream?], hexternal, hbuiltin, hruns⟩

/-- The first operator is quoted and does not count. Behind the second one stands another, which is
the target. -/
theorem askedBy_ofWords?_operator_target :
    let ws : List Word := [.bare "echo".toList, ⟨['>'], true⟩, .bare ['2', '>'], .bare ['>'],
      .bare ['x']]
    ∃ c, ofWords? ws = some c ∧ AskedBy ws c ∧ c.argv = ["echo".toList, ['>']] ∧
      c.redirection = some ⟨⟨.stderr, .truncate⟩, ['>']⟩ ∧
      Execution.runCommand c = Execution.runProgram c := by
  intro ws
  have hc : ofWords? ws =
      some ⟨"echo".toList, [['>']], some ⟨⟨.stderr, .truncate⟩, ['>']⟩, true⟩ := by rfl
  obtain ⟨hasked, hprogram⟩ := (askedBy_ofWords? ws).2 _ hc
  obtain ⟨-, -, -, -, hruns⟩ := hprogram (by simp [kind?])
  exact ⟨_, hc, hasked, rfl, rfl, hruns⟩

end Command

end PocketShell
