/-!
# Blank characters

The characters that may stand around a number without belonging to it: the spaces of every
script, the tabulators and the line ends. The four information separators (U+001C to
U+001F) are not among them.
-/

namespace PocketShell.Text

/-- The ranges of blank characters, ends included. -/
def blankRanges : List (Nat × Nat) :=
  [(0x09, 0x0D), (0x20, 0x20), (0x85, 0x85), (0xA0, 0xA0), (0x1680, 0x1680), (0x2000, 0x200A),
   (0x2028, 0x2029), (0x202F, 0x202F), (0x205F, 0x205F), (0x3000, 0x3000)]

/-- A space, a tabulator or a line end. -/
def isBlank (c : Char) : Bool :=
  blankRanges.any fun range => range.1 ≤ c.toNat && c.toNat ≤ range.2

/-- The text without the blanks at its two ends. -/
def stripBlanks (t : List Char) : List Char :=
  ((t.dropWhile isBlank).reverse.dropWhile isBlank).reverse

/-- Blanks at the two ends fall away from a text that holds none. -/
theorem stripBlanks_append {before core behind : List Char}
    (hbefore : ∀ c ∈ before, isBlank c = true) (hne : core ≠ [])
    (hcore : ∀ c ∈ core, isBlank c = false) (hbehind : ∀ c ∈ behind, isBlank c = true) :
    stripBlanks (before ++ core ++ behind) = core := by
  have stops {t : List Char} (hne : t ≠ []) (ht : ∀ c ∈ t, isBlank c = false) (u : List Char) :
      (t ++ u).dropWhile isBlank = t ++ u := by
    obtain ⟨c, t, rfl⟩ := List.exists_cons_of_ne_nil hne
    exact List.dropWhile_cons_of_neg (by simp [ht c List.mem_cons_self])
  have hreverse : ∀ c ∈ behind.reverse, isBlank c = true := by simpa using hbehind
  have hcore' : ∀ c ∈ core.reverse, isBlank c = false := by simpa using hcore
  rw [stripBlanks, List.append_assoc, List.dropWhile_append_of_pos hbefore, stops hne hcore,
    List.reverse_append, List.dropWhile_append_of_pos hreverse]
  have hend := stops (List.reverse_ne_nil_iff.2 hne) hcore' []
  rw [List.append_nil] at hend
  rw [hend, List.reverse_reverse]

/-- What falls away from a text are blanks at its two ends. -/
theorem exists_stripBlanks (t : List Char) :
    ∃ before behind, t = before ++ stripBlanks t ++ behind ∧
      (∀ c ∈ before, isBlank c = true) ∧ ∀ c ∈ behind, isBlank c = true := by
  have blank (u : List Char) : ∀ c ∈ u.takeWhile isBlank, isBlank c = true := fun c hc =>
    List.all_eq_true.1 List.all_takeWhile c hc
  refine ⟨t.takeWhile isBlank, ((t.dropWhile isBlank).reverse.takeWhile isBlank).reverse, ?_,
    blank t, fun c hc => blank _ c (List.mem_reverse.1 hc)⟩
  rw [stripBlanks, List.append_assoc, ← List.reverse_append, List.takeWhile_append_dropWhile,
    List.reverse_reverse, List.takeWhile_append_dropWhile]

end PocketShell.Text
