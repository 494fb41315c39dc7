import PocketShell.Command
import PocketShell.Word

/-!
# Clauses

How the words of a line fall around its first operator. The operator may be missing, stand
first, stand last, or have a command before it and a target after it; what follows the target
is left aside. An operator without a target is an argument like any other, but the command is
external all the same.
-/

namespace PocketShell

/-- What is read as an operator asks for something, and nothing else does. -/
theorem Redirection.Kind.ofOperator?_isSome_iff (t : Text) :
    (ofOperator? t).isSome ↔ t ∈ Word.operatorTexts := by
  have htable : Word.operatorTexts = operators.map Prod.fst := rfl
  rw [htable, ofOperator?]
  generalize operators = table
  induction table with
  | nil => simp
  | cons row table ih =>
    obtain ⟨spelling, kind⟩ := row
    by_cases ht : t = spelling
    · simp [ht]
    · have hne : (t == spelling) = false := by simpa using ht
      simp [List.lookup_cons, hne, ht, ih]

/-- The shapes of a line. -/
inductive Clause where
  /-- No words. -/
  | empty
  /-- No operator. -/
  | plain (name : Word) (args : List Word)
  /-- The operator stands first. -/
  | headless (operator : Word) (rest : List Word)
  /-- The operator stands last. -/
  | dangling (name : Word) (args : List Word) (operator : Word)
  /-- A command, an operator and its target. -/
  | redirected (name : Word) (args : List Word) (operator target : Word) (rest : List Word)
  deriving DecidableEq

namespace Clause

def operatorIndex? (ws : List Word) : Option Nat :=
  ws.findIdx? Word.isOperator

def ofWords (ws : List Word) : Clause :=
  match ws.takeWhile (!·.isOperator), ws.dropWhile (!·.isOperator) with
  | [], [] => .empty
  | [], operator :: rest => .headless operator rest
  | name :: args, [] => .plain name args
  | name :: args, [operator] => .dangling name args operator
  | name :: args, operator :: target :: rest => .redirected name args operator target rest

/-- All the words of a line of that shape. -/
def words : Clause → List Word
  | .empty => []
  | .plain name args => name :: args
  | .headless operator rest => operator :: rest
  | .dangling name args operator => name :: args ++ [operator]
  | .redirected name args operator target rest => name :: args ++ operator :: target :: rest

/-- The command that a line of that shape asks for. -/
def command? : Clause → Option Command
  | .empty => none
  | .headless _ _ => none
  | .plain name args => some ⟨name.text, args.map Word.text, none, false⟩
  | .dangling name args operator =>
    some ⟨name.text, (args ++ [operator]).map Word.text, none, true⟩
  | .redirected name args operator target _ =>
    some ⟨name.text, args.map Word.text,
      (Redirection.Kind.ofOperator? operator.text).map (⟨·, target.text⟩), true⟩

/-- No word is lost. -/
theorem words_ofWords (ws : List Word) : (ofWords ws).words = ws := by
  have h : ws.takeWhile (!·.isOperator) ++ ws.dropWhile (!·.isOperator) = ws :=
    List.takeWhile_append_dropWhile
  unfold ofWords
  split <;> simp_all [words]

end Clause

def Command.ofWords? (ws : List Word) : Option Command :=
  (Clause.ofWords ws).command?

end PocketShell
