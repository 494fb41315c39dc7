import PocketShell.Machine.Entering
import PocketShell.Path.Home
import PocketShell.Proofs.LookUp
import PocketShell.Proofs.PathText

/-!
# Paths without U+0000

No name and no target of a link holds U+0000, so that only a path that is handed to the machine can
bring it there: the canonical form of any other path is found, and a program that is found has a
path without it.
-/

namespace PocketShell

namespace Path

variable {p home : Text} {c : Char}

theorem mem_of_mem_withHome (h : c ∈ withHome home p) : c ∈ home ∨ c ∈ p := by
  unfold withHome at h
  split at h
  · exact .inr h
  · split at h
    · exact .inl h
    · next rest =>
      rcases List.mem_append.1 h with h | h
      · exact .inl h
      · exact .inr (List.mem_cons_of_mem _ h)
    · exact .inr h

end Path

namespace Machine

variable {m : Machine} {path : Text}

namespace Canonical

variable {enter : Location → List Text → Links → Except Fault (Canonical × Links)}

/-- Fields without U+0000 are resolved. -/
def Answers (enter : Location → List Text → Links → Except Fault (Canonical × Links)) : Prop :=
  ∀ l fields links, (∀ field ∈ fields, '\x00' ∉ field) → ∃ answer, enter l fields links = .ok answer

theorem Answers.resolveWith (henter : Answers enter) : Answers (resolveWith enter m) := by
  intro l fields
  induction fields generalizing l with
  | nil => exact fun links _ => ⟨_, rfl⟩
  | cons field rest ih =>
    intro links hfields
    obtain ⟨hfield, hrest⟩ := List.forall_mem_cons.1 hfields
    unfold Canonical.resolveWith
    rw [if_neg hfield]
    split
    · exact ih l.tail links hrest
    · next n _ =>
      simp only
      split
      · exact ih (n :: l) links hrest
      · next target _ =>
        split
        · next known _ => exact ih known links hrest
        · exact ⟨_, rfl⟩
        · obtain ⟨answer, hentered⟩ := henter (if Path.isAbsolute target.text then [] else l) _
            ((n :: l, none) :: links) (Text.not_mem_field target.no_nul)
          rw [hentered]
          rcases answer with ⟨k | p, after⟩
          · exact ih k _ hrest
          · exact ⟨_, rfl⟩
    · exact ih l links hrest

theorem answers_resolve (m : Machine) (depth : Nat) : Answers (resolve m depth) := by
  induction depth with
  | zero => exact .resolveWith fun l fields links _ => ⟨_, rfl⟩
  | succ depth ih => exact .resolveWith ih

end Canonical

theorem exists_canonical (m : Machine) (hpath : '\x00' ∉ path) : ∃ q, m.canonical path = .ok q := by
  obtain ⟨⟨c, after⟩, hresolve⟩ :=
    Canonical.answers_resolve m (m.tree.size + 1) [] (Text.fields '/' path) []
      (Text.not_mem_field hpath)
  exact ⟨c.path, by simp only [canonical, hresolve]⟩

theorem not_mem_of_getcwd {cwd : Text} (h : m.getcwd = .ok cwd) : '\x00' ∉ cwd := by
  unfold getcwd at h
  split at h
  · exact Except.ok.inj h ▸ Path.no_nul_ofLocation m.cwd.location
  · simp at h

/-- Only a path with U+0000 is refused for it when its canonical form is asked for. -/
theorem mem_of_destination_eq_nul (h : m.destination path = .error .nul) : '\x00' ∈ path := by
  refine Classical.not_not.1 fun hpath => ?_
  unfold destination at h
  split at h
  · obtain ⟨q, hq⟩ := exists_canonical m hpath
    simp [hq] at h
  · split at h
    · next fault hcwd => exact getcwd_ne_nul m (Except.error.inj h ▸ hcwd)
    · next cwd hcwd =>
      have hjoined : '\x00' ∉ Path.join cwd path :=
        Path.not_mem_join (by decide) (not_mem_of_getcwd hcwd) hpath
      obtain ⟨q, hq⟩ := exists_canonical m hjoined
      simp [hq] at h

theorem not_mem_of_absolute {p : Text} (hpath : '\x00' ∉ path) (h : m.absolute path = .ok p) :
    '\x00' ∉ p := by
  unfold absolute at h
  split at h
  · exact Except.ok.inj h ▸ Path.not_mem_normalized (by decide) hpath
  · cases hcwd : m.getcwd with
    | error fault => simp [hcwd, Except.map] at h
    | ok cwd =>
      have hjoined : '\x00' ∉ Path.join cwd path :=
        Path.not_mem_join (by decide) (not_mem_of_getcwd hcwd) hpath
      rw [hcwd] at h
      exact Except.ok.inj h ▸ Path.not_mem_normalized (by decide) hjoined

/-- The path that is found for a name holds no U+0000. -/
theorem not_mem_of_find {value name : Text} (h : SearchPath.find m value name = .ok (some path)) :
    '\x00' ∉ path := by
  obtain ⟨-, directory, hholder, habsolute⟩ := SearchPath.find_eq_some_iff.1 h
  exact not_mem_of_absolute (no_nul_of_canRun (SearchPath.canRun_of_isFirstHolder hholder))
    habsolute

end Machine

end PocketShell
