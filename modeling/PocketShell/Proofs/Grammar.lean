import PocketShell.Proofs.CutRules

/-!
# The grammar of lines

A line is a row of chunks behind spaces. A chunk is a row of parts: a bare character, a pair of a
backslash and a character, a text between single quotes, or a text between double quotes in which
pairs may stand. Behind everything there may be one more backslash. What a line denotes is read
off its parts. No state and no order of reading is mentioned here.

The words of a line that is laid out in this way are what its chunks denote, and a line whose words
can be read is laid out in this way.
-/

namespace PocketShell.Grammar

/-- What stands between double quotes. -/
inductive Item where
  | plain (c : Char) (bare : c ≠ '"' ∧ c ≠ '\\')
  | pair (c : Char)

namespace Item

def written : Item → Text
  | .plain c _ => [c]
  | .pair c => ['\\', c]

/-- A pair keeps its backslash unless the character is one of four. -/
def denoted : Item → Text
  | .plain c _ => [c]
  | .pair c => if c = '\\' ∨ c = '$' ∨ c = '"' ∨ c = '\n' then [c] else ['\\', c]

end Item

/-- A part of a chunk. -/
inductive Part where
  | bare (c : Char) (plain : c ≠ ' ' ∧ c ≠ '\'' ∧ c ≠ '"' ∧ c ≠ '\\')
  | pair (c : Char)
  | single (body : Text) (closed : '\'' ∉ body)
  | double (body : List Item)

namespace Part

def written : Part → Text
  | .bare c _ => [c]
  | .pair c => ['\\', c]
  | .single body _ => '\'' :: body ++ ['\'']
  | .double body => '"' :: body.flatMap Item.written ++ ['"']

def denoted : Part → Text
  | .bare c _ => [c]
  | .pair c => [c]
  | .single body _ => body
  | .double body => body.flatMap Item.denoted

/-- A quote or a backslash has been written. -/
def isQuoting : Part → Bool
  | .bare _ _ => false
  | _ => true

end Part

/-- Parts with no space between them. -/
structure Chunk where
  parts : List Part
  ne_nil : parts ≠ []

namespace Chunk

def written (c : Chunk) : Text := c.parts.flatMap Part.written

def denoted (c : Chunk) : Text := c.parts.flatMap Part.denoted

def isQuoting (c : Chunk) : Bool := c.parts.any Part.isQuoting

/-- The word of a chunk, which a backslash at its end makes a quoted one. -/
def word (c : Chunk) (dangling : Bool) : Word := ⟨c.denoted, c.isQuoting || dangling⟩

end Chunk

/-- How a line is laid out: each chunk behind so many spaces, the spaces after the last one, and
whether one more backslash ends the line. -/
structure Layout where
  chunks : List (Nat × Chunk)
  trailing : Nat
  dangling : Bool
  separated : ∀ c ∈ chunks.tail, 0 < c.1

/-- The text of the chunks, each behind its spaces, and of what follows them. -/
def writtenFrom (trailing : Nat) (dangling : Bool) : List (Nat × Chunk) → Text
  | [] => List.replicate trailing ' ' ++ if dangling then ['\\'] else []
  | (spaces, c) :: rest =>
    List.replicate spaces ' ' ++ (c.written ++ writtenFrom trailing dangling rest)

/-- The words of the chunks, when the last one may have a backslash at its end. -/
def wordsFrom (dangling : Bool) : List (Nat × Chunk) → List Word
  | [] => []
  | (_, c) :: rest => c.word (rest.isEmpty && dangling) :: wordsFrom dangling rest

namespace Layout

def written (g : Layout) : Text := writtenFrom g.trailing g.dangling g.chunks

/-- What the chunks denote, the empty text included. -/
def denoted (g : Layout) : List Text := g.chunks.map (·.2.denoted)

/-- The backslash at the end of the line belongs to the last chunk if no space stands between. -/
def words (g : Layout) : List Word :=
  (wordsFrom (g.dangling && g.trailing == 0) g.chunks).filter (·.text ≠ [])

end Layout

/-! ## Reading what is laid out -/

open Line Quoting

theorem extend_extend (cut : Cut) (a b : Text) (p q : Bool) :
    (cut.extend b q).extend a p = cut.extend (a ++ b) (p || q) := by
  simp [Cut.extend, Bool.or_assoc]

theorem map_extend_extend (e : Except QuoteMark Cut) (a b : Text) (p q : Bool) :
    (e.map (·.extend b q)).map (·.extend a p) = e.map (·.extend (a ++ b) (p || q)) := by
  cases e with
  | error mark => rfl
  | ok cut => exact congrArg Except.ok (extend_extend cut a b p q)

theorem map_extend_nil (e : Except QuoteMark Cut) : e.map (·.extend [] false) = e := by
  cases e <;> rfl

/-- A character that adds to its word does so in front of what is read behind it. -/
theorem cutFrom_adds {s next : State} {c : Char} {text : Text}
    (h : step s c = (next, .adds text)) (rest : Text) :
    cutFrom s (c :: rest) = (cutFrom next rest).map (·.extend text (isQuoting s next)) := by
  simp [cutFrom, h]

theorem cutFrom_single (body rest : Text) (h : '\'' ∉ body) :
    cutFrom (.inside .single) (body ++ '\'' :: rest) =
      (cutFrom .plain rest).map (·.extend body true) := by
  induction body with
  | nil => exact cutFrom_adds rfl rest
  | cons c body ih =>
    rw [List.mem_cons, not_or] at h
    have hs : step (.inside .single) c = (.inside .single, .adds [c]) := by
      simp [step, State.inside, Ne.symm h.1]
    rw [List.cons_append, cutFrom_adds hs, ih h.2, map_extend_extend]
    rfl

theorem cutFrom_item (i : Item) (rest : Text) :
    cutFrom (.inside .double) (i.written ++ rest) =
      (cutFrom (.inside .double) rest).map (·.extend i.denoted (i.written.length == 2)) := by
  cases i with
  | plain c h =>
    have hs : step (.inside .double) c = (.inside .double, .adds [c]) := by
      simp [step, State.inside, h.1, h.2]
    exact cutFrom_adds hs rest
  | pair c =>
    have hs : step ⟨some .double, true⟩ c = (.inside .double, .adds (Item.pair c).denoted) := by
      by_cases hc : c ∈ escapable <;>
        simp_all [step, State.inside, escapedText, escapable, Item.denoted]
    have ho : step (.inside .double) '\\' = (⟨some .double, true⟩, .adds []) := rfl
    simp only [Item.written, List.cons_append, List.nil_append]
    rw [cutFrom_adds ho, cutFrom_adds hs, map_extend_extend]
    rfl

/-- The closing quote makes the word a quoted one, whatever stands before it. -/
theorem cutFrom_double (body : List Item) (rest : Text) :
    cutFrom (.inside .double) (body.flatMap Item.written ++ '"' :: rest) =
      (cutFrom .plain rest).map (·.extend (body.flatMap Item.denoted) true) := by
  induction body with
  | nil => exact cutFrom_adds rfl rest
  | cons i body ih =>
    rw [List.flatMap_cons, List.append_assoc, cutFrom_item, ih, map_extend_extend, Bool.or_true]
    rfl

theorem cutFrom_part (p : Part) (rest : Text) :
    cutFrom .plain (p.written ++ rest) =
      (cutFrom .plain rest).map (·.extend p.denoted p.isQuoting) := by
  cases p with
  | bare c h =>
    have hs : step .plain c = (.plain, .adds [c]) := by
      simp [step, State.plain, h.1, h.2.1, h.2.2.1, h.2.2.2]
    exact cutFrom_adds hs rest
  | pair c =>
    have ho : step .plain '\\' = (⟨none, true⟩, .adds []) := rfl
    have hs : step ⟨none, true⟩ c = (.plain, .adds [c]) := rfl
    simp only [Part.written, List.cons_append, List.nil_append]
    rw [cutFrom_adds ho, cutFrom_adds hs, map_extend_extend]
    rfl
  | single body h =>
    have ho : step .plain '\'' = (.inside .single, .adds []) := rfl
    simp only [Part.written, List.cons_append, List.append_assoc, List.nil_append]
    rw [cutFrom_adds ho, cutFrom_single body rest h, map_extend_extend]
    rfl
  | double body =>
    have ho : step .plain '"' = (.inside .double, .adds []) := rfl
    simp only [Part.written, List.cons_append, List.append_assoc, List.nil_append]
    rw [cutFrom_adds ho, cutFrom_double, map_extend_extend]
    rfl

theorem cutFrom_chunk (c : Chunk) (rest : Text) :
    cutFrom .plain (c.written ++ rest) =
      (cutFrom .plain rest).map (·.extend c.denoted c.isQuoting) := by
  simp only [Chunk.written, Chunk.denoted, Chunk.isQuoting]
  induction c.parts with
  | nil => exact (map_extend_nil _).symm
  | cons p parts ih =>
    rw [List.flatMap_cons, List.append_assoc, cutFrom_part, ih, map_extend_extend]
    rfl

theorem words_behindSpace (cut : Cut) : cut.behindSpace.words = cut.words := rfl

/-- Where a word ends, one space does as well as many. -/
theorem cutFrom_spaces {rest : Text} {cut : Cut} (h : cutFrom .plain rest = .ok cut) (n : Nat) :
    cutFrom .plain (List.replicate (n + 1) ' ' ++ rest) = .ok cut.behindSpace := by
  induction n with
  | zero => simp [cutFrom_plain_space, h, Except.map]
  | succ n ih =>
    rw [List.replicate_succ, List.cons_append, cutFrom_plain_space, ih]
    rfl

/-- A chunk in front of a cut that begins with no text becomes a word of its own. -/
theorem words_extend_chunk (c : Chunk) (dangling : Bool) (ws : List Word) :
    (Cut.extend ⟨⟨[], dangling⟩, ws.filter (·.text ≠ [])⟩ c.denoted c.isQuoting).words =
      (c.word dangling :: ws).filter (·.text ≠ []) := by
  by_cases h : c.denoted = [] <;> simp [Cut.words, Cut.extend, Chunk.word, h]

variable {trailing : Nat} {dangling : Bool}

theorem cutFrom_nil : cutFrom .plain (writtenFrom trailing dangling []) =
    .ok ⟨⟨[], dangling && trailing == 0⟩, []⟩ := by
  have hend : cutFrom .plain (if dangling then ['\\'] else []) = .ok ⟨⟨[], dangling⟩, []⟩ := by
    cases dangling <;> rfl
  cases trailing with
  | zero => simpa [writtenFrom] using hend
  | succ n => simpa [writtenFrom, Cut.behindSpace, Cut.words, Word.bare] using cutFrom_spaces hend n

/-- Behind chunks that all have spaces in front of them, the word in front can only be a backslash
that ends the line. -/
theorem cutFrom_writtenFrom {chunks : List (Nat × Chunk)} (h : ∀ c ∈ chunks, 0 < c.1) :
    cutFrom .plain (writtenFrom trailing dangling chunks) =
      .ok ⟨⟨[], chunks.isEmpty && (dangling && trailing == 0)⟩,
        (wordsFrom (dangling && trailing == 0) chunks).filter (·.text ≠ [])⟩ := by
  induction chunks with
  | nil => simpa [wordsFrom] using cutFrom_nil
  | cons first rest ih =>
    obtain ⟨spaces, c⟩ := first
    have hpos : 0 < spaces := h _ List.mem_cons_self
    obtain ⟨n, rfl⟩ : ∃ n, spaces = n + 1 := ⟨spaces - 1, by omega⟩
    have hchunk := cutFrom_chunk c (writtenFrom trailing dangling rest)
    rw [ih fun c hc => h c (List.mem_cons_of_mem _ hc)] at hchunk
    rw [writtenFrom, cutFrom_spaces hchunk n, Cut.behindSpace, words_extend_chunk]
    rfl

/-- The words of a line that is laid out. -/
theorem words_written (g : Layout) : Line.words g.written = .ok g.words := by
  obtain ⟨chunks, trailing, dangling, hsep⟩ := g
  simp only [Line.words, Layout.written, Layout.words]
  cases chunks with
  | nil =>
    rw [cutFrom_nil]
    rfl
  | cons first rest =>
    obtain ⟨spaces, c⟩ := first
    rw [List.tail_cons] at hsep
    have hchunk := cutFrom_chunk c (writtenFrom trailing dangling rest)
    rw [cutFrom_writtenFrom hsep] at hchunk
    rw [writtenFrom, wordsFrom, ← words_extend_chunk]
    cases spaces with
    | zero => exact congrArg (Except.map Cut.words) hchunk
    | succ n => rw [cutFrom_spaces hchunk n, Except.map, words_behindSpace]

/-! ## Laying out what can be read -/

theorem exists_layout_space (g : Layout) : ∃ g' : Layout, g'.written = ' ' :: g.written := by
  obtain ⟨chunks, trailing, dangling, hsep⟩ := g
  cases chunks with
  | nil => exact ⟨⟨[], trailing + 1, dangling, hsep⟩, rfl⟩
  | cons first rest => exact ⟨⟨(first.1 + 1, first.2) :: rest, trailing, dangling, hsep⟩, rfl⟩

/-- A part joins the first chunk if no space stands between, and is a chunk of its own otherwise. -/
theorem exists_layout_part (p : Part) (g : Layout) :
    ∃ g' : Layout, g'.written = p.written ++ g.written := by
  obtain ⟨chunks, trailing, dangling, hsep⟩ := g
  have alone (h : ∀ c ∈ chunks, 0 < c.1) :
      ∃ g' : Layout, g'.written = p.written ++ writtenFrom trailing dangling chunks := by
    refine ⟨⟨(0, ⟨[p], List.cons_ne_nil _ _⟩) :: chunks, trailing, dangling, h⟩, ?_⟩
    simp [Layout.written, writtenFrom, Chunk.written]
  cases chunks with
  | nil => exact alone (by simp)
  | cons first rest =>
    obtain ⟨spaces, c⟩ := first
    cases spaces with
    | zero =>
      let joined : Chunk := ⟨p :: c.parts, List.cons_ne_nil _ _⟩
      refine ⟨⟨(0, joined) :: rest, trailing, dangling, hsep⟩, ?_⟩
      simp [Layout.written, writtenFrom, Chunk.written, joined]
    | succ n =>
      apply alone
      intro c hc
      rcases List.mem_cons.1 hc with rfl | hc
      · exact Nat.succ_pos n
      · exact hsep c hc

/-- What is open in a state is closed by the text, and a line that is laid out follows. No line
leads to an escape between single quotes. -/
def Completes : State → Text → Prop
  | ⟨none, false⟩, t => ∃ g : Layout, g.written = t
  | ⟨none, true⟩, t => ∃ g : Layout, g.written = '\\' :: t
  | ⟨some .single, false⟩, t =>
    ∃ (body : Text) (g : Layout), '\'' ∉ body ∧ body ++ '\'' :: g.written = t
  | ⟨some .single, true⟩, _ => True
  | ⟨some .double, false⟩, t =>
    ∃ (body : List Item) (g : Layout), body.flatMap Item.written ++ '"' :: g.written = t
  | ⟨some .double, true⟩, t =>
    ∃ (body : List Item) (g : Layout), body.flatMap Item.written ++ '"' :: g.written = '\\' :: t

theorem completes_nil {s : State} (h : s.mark = none) : Completes s [] := by
  obtain ⟨mark, escape⟩ := s
  cases escape with
  | false => cases h; exact ⟨⟨[], 0, false, by simp⟩, rfl⟩
  | true => cases h; exact ⟨⟨[], 0, true, by simp⟩, rfl⟩

/-- One character in front of what completes the state behind it. -/
theorem completes_cons {s : State} {c : Char} {rest : Text} (h : Completes (step s c).1 rest) :
    Completes s (c :: rest) := by
  match s with
  | ⟨none, true⟩ =>
    obtain ⟨g, rfl⟩ := h
    exact exists_layout_part (.pair c) g
  | ⟨some .single, true⟩ => trivial
  | ⟨some .double, true⟩ =>
    obtain ⟨body, g, rfl⟩ := h
    exact ⟨.pair c :: body, g, rfl⟩
  | ⟨none, false⟩ =>
    by_cases hb : c = '\\'
    · subst hb; exact h
    by_cases hs : c = '\''
    · subst hs
      obtain ⟨body, g, hbody, rfl⟩ := h
      simpa [Completes, Part.written] using exists_layout_part (.single body hbody) g
    by_cases hd : c = '"'
    · subst hd
      obtain ⟨body, g, rfl⟩ := h
      simpa [Completes, Part.written] using exists_layout_part (.double body) g
    by_cases hsp : c = ' '
    · subst hsp
      obtain ⟨g, rfl⟩ := h
      exact exists_layout_space g
    simp only [step, hb, hs, hd, hsp, if_false] at h
    obtain ⟨g, rfl⟩ := h
    exact exists_layout_part (.bare c ⟨hsp, hs, hd, hb⟩) g
  | ⟨some .single, false⟩ =>
    by_cases hs : c = '\''
    · subst hs
      obtain ⟨g, rfl⟩ := h
      exact ⟨[], g, List.not_mem_nil, rfl⟩
    simp only [step, hs, if_false] at h
    obtain ⟨body, g, hbody, rfl⟩ := h
    exact ⟨c :: body, g, by simp [hbody, Ne.symm hs], rfl⟩
  | ⟨some .double, false⟩ =>
    by_cases hb : c = '\\'
    · subst hb; exact h
    by_cases hd : c = '"'
    · subst hd
      obtain ⟨g, rfl⟩ := h
      exact ⟨[], g, rfl⟩
    simp only [step, hb, hd, if_false] at h
    obtain ⟨body, g, rfl⟩ := h
    exact ⟨.plain c ⟨hd, hb⟩ :: body, g, rfl⟩

/-- A text that can be read from a state completes it. -/
theorem completes_of_cutFrom {s : State} {t : Text} {cut : Cut} (h : cutFrom s t = .ok cut) :
    Completes s t := by
  refine cutFrom_induction (P := fun s t _ => Completes s t) ?nil ?cons h
  case nil =>
    intro s hmark
    exact completes_nil hmark
  case cons =>
    intro s c rest cut ih
    exact completes_cons ih

/-- A line whose words can be read is laid out. -/
theorem exists_layout {line : Text} {ws : List Word} (h : Line.words line = .ok ws) :
    ∃ g : Layout, g.written = line := by
  obtain ⟨cut, hcut, -⟩ := exists_cut_of_words h
  exact completes_of_cutFrom hcut

theorem text_wordsFrom (chunks : List (Nat × Chunk)) :
    (wordsFrom dangling chunks).map Word.text = chunks.map (·.2.denoted) := by
  induction chunks with
  | nil => rfl
  | cons first rest ih => exact congrArg (first.2.denoted :: ·) ih

theorem text_words (g : Layout) : g.words.map Word.text = g.denoted.filter (· ≠ []) := by
  rw [Layout.words, Layout.denoted, ← text_wordsFrom, List.filter_map]
  rfl

/-- The words of a line can be read exactly if the line is laid out in chunks. They are then what
the chunks denote, without the chunks that denote nothing; of any other line an open quotation
is reported. -/
theorem words_iff_layout (line : Text) :
    ((∃ ws, Line.words line = .ok ws) ↔ ∃ g : Layout, g.written = line) ∧
    (∀ g : Layout, g.written = line → ∃ ws, Line.words line = .ok ws ∧
      ws.map Word.text = g.denoted.filter (· ≠ [])) ∧
    ((¬ ∃ g : Layout, g.written = line) → ∃ mark, Line.words line = .error mark) := by
  have sound (g : Layout) (h : g.written = line) : Line.words line = .ok g.words :=
    h ▸ words_written g
  refine ⟨⟨?_, ?_⟩, ?_, ?_⟩
  · rintro ⟨ws, h⟩
    exact exists_layout h
  · rintro ⟨g, h⟩
    exact ⟨g.words, sound g h⟩
  · intro g h
    exact ⟨g.words, sound g h, text_words g⟩
  · intro hnone
    cases hw : Line.words line with
    | ok ws => exact absurd (exists_layout hw) hnone
    | error mark => exact ⟨mark, rfl⟩

end PocketShell.Grammar
