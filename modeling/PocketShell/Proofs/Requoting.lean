import PocketShell.Proofs.Grammar
import PocketShell.Quotation

/-!
# Lines that are written for words

A word is written as one chunk that denotes it, in one of three ways. The line that is written for a
list of words is therefore laid out with one space between two chunks, and reading it gives the
words back. An empty word is written as a chunk that denotes nothing, and is lost.
-/

namespace PocketShell.Requoting

open Grammar Quotation

/-- The word that is read for a text that was written: it is quoted if it could not stand bare. -/
def reread (t : Text) : Word := ⟨t, t.isEmpty || t.any (· ∈ special)⟩

theorem exists_bare (t : Text) (h : ∀ c ∈ t, c ∉ special) :
    ∃ parts : List Part, parts.flatMap Part.written = t ∧ parts.flatMap Part.denoted = t ∧
      parts.any Part.isQuoting = false := by
  induction t with
  | nil => exact ⟨[], rfl, rfl, rfl⟩
  | cons c t ih =>
    obtain ⟨parts, hw, hd, hq⟩ := ih fun d hd => h d (List.mem_cons_of_mem _ hd)
    have hc := h c List.mem_cons_self
    simp only [special, List.mem_cons, List.not_mem_nil, or_false, not_or] at hc
    exact ⟨.bare c hc :: parts, congrArg (c :: ·) hw, congrArg (c :: ·) hd, hq⟩

/-- Between double quotes a backslash or a double quote is written as a pair. -/
theorem exists_items (t : Text) :
    ∃ body : List Item, body.flatMap Item.written = t.flatMap escaped ∧
      body.flatMap Item.denoted = t := by
  induction t with
  | nil => exact ⟨[], rfl, rfl⟩
  | cons c t ih =>
    obtain ⟨body, hw, hd⟩ := ih
    by_cases hc : c = '\\' ∨ c = '"'
    · refine ⟨.pair c :: body, ?_, ?_⟩
      · simp [Item.written, escaped, hc, hw]
      · rcases hc with rfl | rfl <;> simp [Item.denoted, hd]
    · obtain ⟨hb, hq⟩ := not_or.1 hc
      refine ⟨.plain c ⟨hq, hb⟩ :: body, ?_, ?_⟩
      · simp [Item.written, escaped, hb, hq, hw]
      · simp [Item.denoted, hd]

/-- Each word is written as one chunk, which denotes it. -/
theorem exists_chunk (t : Text) :
    ∃ c : Chunk, c.written = written t ∧ c.word false = reread t := by
  have lone (p : Part) (hw : p.written = written t) (hd : p.denoted = t)
      (hq : p.isQuoting = (reread t).quoted) :
      ∃ c : Chunk, c.written = written t ∧ c.word false = reread t := by
    refine ⟨⟨[p], List.cons_ne_nil _ _⟩, ?_, ?_⟩
    · simpa [Chunk.written] using hw
    · simp [Chunk.word, Chunk.denoted, Chunk.isQuoting, hd, hq, reread]
  by_cases hnil : t = []
  · subst hnil
    exact lone (.single [] List.not_mem_nil) rfl rfl rfl
  by_cases hbare : t.all (· ∉ special)
  · have hplain : ∀ c ∈ t, c ∉ special := by simpa using hbare
    obtain ⟨parts, hw, hd, hq⟩ := exists_bare t hplain
    have hne : parts ≠ [] := fun h => hnil (by simpa [h] using hw.symm)
    have hreread : (reread t).quoted = false := by simpa [reread, hnil] using hplain
    refine ⟨⟨parts, hne⟩, ?_, ?_⟩
    · simp only [Chunk.written, written, hnil, hbare, hw, if_false, if_true]
    · simp only [Chunk.word, Chunk.denoted, Chunk.isQuoting, hd, hq, Bool.or_false]
      rw [← hreread]
      rfl
  have hquoted : (reread t).quoted = true := by simpa [reread, hnil] using hbare
  by_cases hs : '\'' ∈ t
  · obtain ⟨body, hw, hd⟩ := exists_items t
    refine lone (.double body) ?_ hd hquoted.symm
    simp only [Part.written, written, hnil, hbare, hs, hw, if_false, not_true_eq_false]
    rfl
  · refine lone (.single t hs) ?_ rfl hquoted.symm
    simp only [Part.written, written, hnil, hbare, hs, if_false, not_false_eq_true, if_true]
    rfl

theorem exists_chunks (ts : List Text) :
    ∃ cs : List Chunk, cs.map Chunk.written = ts.map written ∧
      cs.map (·.word false) = ts.map reread := by
  induction ts with
  | nil => exact ⟨[], rfl, rfl⟩
  | cons t ts ih =>
    obtain ⟨c, hw, hr⟩ := exists_chunk t
    obtain ⟨cs, hws, hrs⟩ := ih
    exact ⟨c :: cs, by simp [hw, hws], by simp [hr, hrs]⟩

/-- Chunks with one space between two of them. -/
def spaced : List Chunk → Layout
  | [] => ⟨[], 0, false, by simp⟩
  | c :: cs => ⟨(0, c) :: cs.map (1, ·), 0, false, by simp⟩

theorem written_spaced (cs : List Chunk) :
    (spaced cs).written = Text.joined [' '] (cs.map Chunk.written) := by
  have behind (c : Chunk) (cs : List Chunk) :
      c.written ++ writtenFrom 0 false (cs.map (1, ·)) =
        Text.joined [' '] ((c :: cs).map Chunk.written) := by
    induction cs generalizing c with
    | nil => simp [writtenFrom, Text.joined]
    | cons d cs ih =>
      simp only [List.map_cons, writtenFrom, Text.joined] at ih ⊢
      rw [ih d, List.append_assoc]
      rfl
  cases cs with
  | nil => rfl
  | cons c cs => exact behind c cs

theorem words_spaced (cs : List Chunk) :
    (spaced cs).words = (cs.map (·.word false)).filter (·.text ≠ []) := by
  have behind (cs : List Chunk) (n : Nat) :
      wordsFrom false (cs.map (n, ·)) = cs.map (·.word false) := by
    induction cs with
    | nil => rfl
    | cons c cs ih => simp [wordsFrom, ih]
  cases cs with
  | nil => rfl
  | cons c cs => simp [spaced, Layout.words, wordsFrom, behind]

theorem words_of_line (ts : List Text) :
    Line.words (line ts) = .ok ((ts.map reread).filter (·.text ≠ [])) := by
  obtain ⟨cs, hw, hr⟩ := exists_chunks ts
  rw [line, ← hw, ← written_spaced, words_written, words_spaced, hr]

/-- Words that can stand bare are read as they stand, with a space between two of them. -/
theorem words_of_bare (ts : List Text) (h : ∀ t ∈ ts, t ≠ [] ∧ ∀ c ∈ t, c ∉ special) :
    Line.words (Text.joined [' '] ts) = .ok (ts.map Word.bare) := by
  have hwritten : ∀ t ∈ ts, written t = t := by
    intro t ht
    have hall : t.all (· ∉ special) = true := by simpa using (h t ht).2
    rw [written, if_neg (h t ht).1, if_pos hall]
  have hreread : ∀ t ∈ ts, reread t = .bare t := by
    intro t ht
    have hany : t.any (· ∈ special) = false := by simpa using (h t ht).2
    rw [reread, hany, List.isEmpty_eq_false_iff.2 (h t ht).1]
    rfl
  have hline : line ts = Text.joined [' '] ts := by
    rw [line, List.map_congr_left hwritten, List.map_id']
  have hkept : ∀ w ∈ ts.map Word.bare, decide (w.text ≠ []) = true := by
    intro w hw
    obtain ⟨t, ht, rfl⟩ := List.mem_map.1 hw
    exact decide_eq_true (h t ht).1
  rw [← hline, words_of_line, List.map_congr_left hreread, List.filter_eq_self.2 hkept]

/-- Reading the line that is written for some words gives back those that are not empty, in their
order, and quoted exactly if they hold one of the four characters that cannot stand bare. -/
theorem words_line (ts : List Text) :
    ∃ ws, Line.words (line ts) = .ok ws ∧ ws.map Word.text = ts.filter (· ≠ []) ∧
      ∀ w ∈ ws, w.quoted = true ↔
        ' ' ∈ w.text ∨ '\'' ∈ w.text ∨ '"' ∈ w.text ∨ '\\' ∈ w.text := by
  refine ⟨_, words_of_line ts, ?_, ?_⟩
  · rw [List.filter_map, List.map_map]
    exact List.map_id _
  · intro w hw
    obtain ⟨hmem, hne⟩ := List.mem_filter.1 hw
    obtain ⟨t, -, rfl⟩ := List.mem_map.1 hmem
    have ht : t ≠ [] := of_decide_eq_true hne
    simp only [reread, List.isEmpty_eq_false_iff.2 ht, Bool.false_or, List.any_eq_true,
      decide_eq_true_eq, special, List.mem_cons, List.not_mem_nil, or_false]
    constructor
    · rintro ⟨c, hc, rfl | rfl | rfl | rfl⟩ <;> simp [hc]
    · rintro (h | h | h | h) <;> exact ⟨_, h, by simp⟩

end PocketShell.Requoting
