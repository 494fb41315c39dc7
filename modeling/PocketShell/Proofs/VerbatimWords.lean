import PocketShell.Clause
import PocketShell.Proofs.Grammar

/-!
# Words that stand as they were written

Each word of a line comes from one of its chunks, with the backslash at the end of the line if that
belongs to the chunk. A quote or a backslash is never denoted in full: what it is written for is
shorter than what is written. So a word is unquoted exactly if its text is what stands in the line
for it, and the first operator among the words is the first that is written as one.
-/

namespace PocketShell.Grammar

/-- A chunk as it stands in the line, and the word that it comes to. -/
structure Origin where
  source : Text
  word : Word
  deriving DecidableEq

/-- What stands in the line for a chunk, which may have a backslash at its end. -/
def Chunk.source (c : Chunk) (dangling : Bool) : Text :=
  c.written ++ if dangling then ['\\'] else []

/-- The chunks with their words, when the last one may have a backslash at its end. -/
def originsFrom (dangling : Bool) : List (Nat × Chunk) → List Origin
  | [] => []
  | (_, c) :: rest =>
    ⟨c.source (rest.isEmpty && dangling), c.word (rest.isEmpty && dangling)⟩
      :: originsFrom dangling rest

/-- Where the words of a line come from: the chunks that denote something. -/
def Layout.origins (g : Layout) : List Origin :=
  (originsFrom (g.dangling && g.trailing == 0) g.chunks).filter (·.word.text ≠ [])

/-! ## What is written and what is denoted -/

theorem length_flatMap_le {α : Type} {short long : α → Text}
    (h : ∀ a, (short a).length ≤ (long a).length) (row : List α) :
    (row.flatMap short).length ≤ (row.flatMap long).length := by
  induction row with
  | nil => exact Nat.le_refl 0
  | cons a row ih =>
    have ha := h a
    simp only [List.flatMap_cons, List.length_append]
    omega

theorem Item.length_denoted_le (i : Item) : i.denoted.length ≤ i.written.length := by
  cases i with
  | plain c h => exact Nat.le_refl 1
  | pair c =>
    by_cases hc : c = '\\' ∨ c = '$' ∨ c = '"' ∨ c = '\n' <;> simp [denoted, written, hc]

namespace Part

theorem denoted_eq_written {p : Part} (h : p.isQuoting = false) : p.denoted = p.written := by
  cases p with
  | bare c plain => rfl
  | pair c => simp [isQuoting] at h
  | single body closed => simp [isQuoting] at h
  | double body => simp [isQuoting] at h

theorem length_denoted_lt {p : Part} (h : p.isQuoting = true) :
    p.denoted.length < p.written.length := by
  cases p with
  | bare c plain => simp [isQuoting] at h
  | pair c => simp [denoted, written]
  | single body closed =>
    simp only [denoted, written, List.cons_append, List.length_cons, List.length_append]
    omega
  | double body =>
    have hbody := length_flatMap_le Item.length_denoted_le body
    simp only [denoted, written, List.cons_append, List.length_cons, List.length_append]
    omega

theorem length_denoted_le (p : Part) : p.denoted.length ≤ p.written.length := by
  cases h : p.isQuoting with
  | false => exact Nat.le_of_eq (congrArg List.length (denoted_eq_written h))
  | true => exact Nat.le_of_lt (length_denoted_lt h)

theorem exists_mark {p : Part} (h : p.isQuoting = true) :
    ∃ mark ∈ p.written, mark = '\\' ∨ mark = '\'' ∨ mark = '"' := by
  cases p with
  | bare c plain => simp [isQuoting] at h
  | pair c => exact ⟨'\\', List.mem_cons_self, .inl rfl⟩
  | single body closed => exact ⟨'\'', List.mem_cons_self, .inr (.inl rfl)⟩
  | double body => exact ⟨'"', List.mem_cons_self, .inr (.inr rfl)⟩

end Part

theorem denoted_eq_written_of_parts {parts : List Part}
    (h : parts.any Part.isQuoting = false) :
    parts.flatMap Part.denoted = parts.flatMap Part.written := by
  have hall : ∀ p ∈ parts, p.isQuoting = false := by simpa using h
  unfold List.flatMap
  rw [List.map_congr_left fun p hp => Part.denoted_eq_written (hall p hp)]

theorem length_denoted_lt_of_parts {parts : List Part}
    (h : parts.any Part.isQuoting = true) :
    (parts.flatMap Part.denoted).length < (parts.flatMap Part.written).length := by
  induction parts with
  | nil => simp at h
  | cons p parts ih =>
    have hp := p.length_denoted_le
    have hparts := length_flatMap_le Part.length_denoted_le parts
    simp only [List.flatMap_cons, List.length_append]
    rw [List.any_cons, Bool.or_eq_true] at h
    rcases h with h | h
    · have hlt := Part.length_denoted_lt h
      omega
    · have hlt := ih h
      omega

namespace Chunk

variable (c : Chunk) (dangling : Bool)

/-- A chunk with a quote or a backslash in it denotes less than what stands in the line for it. -/
theorem length_text_word_lt (h : (c.word dangling).quoted = true) :
    (c.word dangling).text.length < (c.source dangling).length := by
  simp only [word, Bool.or_eq_true] at h
  have hle := length_flatMap_le Part.length_denoted_le c.parts
  simp only [word, source, denoted, written, List.length_append]
  rcases h with h | rfl
  · have hlt := length_denoted_lt_of_parts h
    omega
  · simp only [if_true, List.length_singleton]
    omega

theorem quoted_word_eq_false_iff :
    (c.word dangling).quoted = false ↔ (c.word dangling).text = c.source dangling := by
  constructor
  · intro h
    obtain ⟨hparts, rfl⟩ := Bool.or_eq_false_iff.1 h
    have hdenoted := denoted_eq_written_of_parts hparts
    simpa [word, source, denoted, written] using hdenoted
  · intro h
    refine Bool.eq_false_iff.2 fun hquoted => ?_
    have hlt := c.length_text_word_lt dangling hquoted
    rw [h] at hlt
    exact Nat.lt_irrefl _ hlt

theorem exists_mark_of_quoted (h : (c.word dangling).quoted = true) :
    ∃ mark ∈ c.source dangling, mark = '\\' ∨ mark = '\'' ∨ mark = '"' := by
  simp only [word, Bool.or_eq_true] at h
  rcases h with h | rfl
  · obtain ⟨p, hp, hquoting⟩ := List.any_eq_true.1 h
    obtain ⟨mark, hmem, hmark⟩ := Part.exists_mark hquoting
    have hwritten : mark ∈ c.written := List.mem_flatMap.2 ⟨p, hp, hmem⟩
    exact ⟨mark, List.mem_append_left _ hwritten, hmark⟩
  · exact ⟨'\\', by simp [source], .inl rfl⟩

end Chunk

/-! ## Operators -/

theorem not_mark_of_operatorTexts {t : Text} (h : t ∈ Word.operatorTexts) :
    ¬ ∃ mark ∈ t, mark = '\\' ∨ mark = '\'' ∨ mark = '"' := by
  have hall : ∀ t ∈ Word.operatorTexts, ∀ c ∈ t, ¬ (c = '\\' ∨ c = '\'' ∨ c = '"') := by
    simp [Word.operatorTexts]
  rintro ⟨mark, hmem, hmark⟩
  exact hall t h mark hmem hmark

/-- A word is an operator exactly if one stands in the line for it: no operator holds a character
that quotes. -/
theorem isOperator_word_iff (c : Chunk) (dangling : Bool) :
    (c.word dangling).isOperator = true ↔ c.source dangling ∈ Word.operatorTexts := by
  have hverbatim := c.quoted_word_eq_false_iff dangling
  cases hquoted : (c.word dangling).quoted with
  | false =>
    rw [hquoted, eq_self, true_iff] at hverbatim
    simp [Word.isOperator, hquoted, ← hverbatim]
  | true =>
    have hmark := c.exists_mark_of_quoted dangling hquoted
    have hnot : c.source dangling ∉ Word.operatorTexts := fun h => not_mark_of_operatorTexts h hmark
    simp [Word.isOperator, hquoted, hnot]

/-! ## Where words come from -/

variable {dangling : Bool}

theorem exists_chunk_of_mem_originsFrom {chunks : List (Nat × Chunk)} {o : Origin}
    (h : o ∈ originsFrom dangling chunks) :
    ∃ (c : Chunk) (last : Bool), o = ⟨c.source last, c.word last⟩ := by
  induction chunks with
  | nil => simp [originsFrom] at h
  | cons first rest ih =>
    rcases List.mem_cons.1 h with rfl | h
    · exact ⟨first.2, _, rfl⟩
    · exact ih h

theorem word_originsFrom (chunks : List (Nat × Chunk)) :
    (originsFrom dangling chunks).map Origin.word = wordsFrom dangling chunks := by
  induction chunks with
  | nil => rfl
  | cons first rest ih => simp [originsFrom, wordsFrom, ih]

namespace Layout

theorem words_eq_map_origins (g : Layout) : g.words = g.origins.map Origin.word := by
  rw [words, origins, ← word_originsFrom, List.filter_map]
  rfl

theorem exists_chunk_of_mem_origins {g : Layout} {o : Origin} (h : o ∈ g.origins) :
    ∃ (c : Chunk) (last : Bool), o = ⟨c.source last, c.word last⟩ :=
  exists_chunk_of_mem_originsFrom (List.mem_filter.1 h).1

/-- The first operator is the first word for which one stands in the line. -/
theorem operatorIndex?_words (g : Layout) :
    Clause.operatorIndex? g.words = g.origins.findIdx? (·.source ∈ Word.operatorTexts) := by
  have hsame : ∀ o ∈ g.origins, o.word.isOperator = decide (o.source ∈ Word.operatorTexts) := by
    intro o ho
    obtain ⟨c, last, rfl⟩ := exists_chunk_of_mem_origins ho
    rw [Bool.eq_iff_iff, decide_eq_true_iff]
    exact isOperator_word_iff c last
  rw [Clause.operatorIndex?, words_eq_map_origins, List.findIdx?_map]
  generalize g.origins = origins at hsame
  induction origins with
  | nil => rfl
  | cons o origins ih =>
    have ho := hsame o List.mem_cons_self
    have hrest := ih fun o ho => hsame o (List.mem_cons_of_mem _ ho)
    simp only [List.findIdx?_cons, Function.comp_apply, ho, hrest]

end Layout

/-- Each word of a line that can be read comes from one of its chunks, in their order, and is
unquoted exactly if its text is what stands in the line for it. Therefore the first operator is the
first word for which an operator stands in the line; without such a word there is none. -/
theorem verbatim_of_words {line : Text} {ws : List Word} (h : Line.words line = .ok ws) :
    (∃ g : Layout, g.written = line) ∧ ∀ g : Layout, g.written = line →
      ws = g.origins.map Origin.word ∧
      (∀ o ∈ g.origins, o.word.quoted = false ↔ o.word.text = o.source) ∧
      Clause.operatorIndex? ws = g.origins.findIdx? (·.source ∈ Word.operatorTexts) := by
  refine ⟨exists_layout h, ?_⟩
  rintro g rfl
  have hws : g.words = ws := Except.ok.inj ((words_written g).symm.trans h)
  subst hws
  refine ⟨g.words_eq_map_origins, ?_, g.operatorIndex?_words⟩
  intro o ho
  obtain ⟨c, last, rfl⟩ := Layout.exists_chunk_of_mem_origins ho
  exact c.quoted_word_eq_false_iff last

/-- Three operators are quoted in three ways before the one that counts, and the line ends in a
backslash. -/
theorem verbatim_of_words_dangling :
    let line := "x \\>  \">\"'' '' '2>>' 2>> f\\".toList
    let ws : List Word := [.bare ['x'], ⟨['>'], true⟩, ⟨['>'], true⟩, ⟨"2>>".toList, true⟩,
      .bare "2>>".toList, ⟨['f'], true⟩]
    Line.words line = .ok ws ∧ ∃ g : Layout, g.written = line ∧ g.origins.map Origin.word = ws ∧
      (∀ o ∈ g.origins, o.word.quoted = false ↔ o.word.text = o.source) ∧
      g.origins.findIdx? (·.source ∈ Word.operatorTexts) = some 4 := by
  intro line ws
  have hwords : Line.words line = .ok ws := rfl
  obtain ⟨⟨g, hg⟩, hall⟩ := verbatim_of_words hwords
  obtain ⟨horigins, hquoted, hindex⟩ := hall g hg
  exact ⟨hwords, g, hg, horigins.symm, hquoted, hindex.symm⟩

end PocketShell.Grammar
