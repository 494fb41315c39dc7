import Mathlib.Data.Nat.Digits.Defs
import PocketShell.Numeral
import PocketShell.Text

/-!
# How integers are written

An integer is written as a row of decimal digits with at most one sign in front of it and blanks
around the whole. Between two digits of the row there may be one underscore, and the digits may be
of any scripts. What is read as an integer is exactly what is written in this way, with the value
that the digits have by their places. The usual form, ASCII digits without a leading zero behind a
minus or no sign, is one of the ways.
-/

namespace PocketShell

namespace Text

variable {c : Char} {v : Nat}

/-- No range of blanks meets the ten digits of a script. -/
theorem blankRanges_apart :
    ∀ range ∈ blankRanges, ∀ first ∈ digitZeros, range.2 < first ∨ first + 10 ≤ range.1 := by
  decide

theorem isBlank_eq_false_of_digit (h : digitValue? c = some v) : isBlank c = false := by
  obtain ⟨first, hfind, -⟩ := Option.map_eq_some_iff.1 h
  have hdigit := List.find?_some hfind
  simp only [Bool.and_eq_true, decide_eq_true_eq] at hdigit
  rw [isBlank, List.any_eq_false]
  intro range hrange
  have hapart := blankRanges_apart range hrange first (List.mem_of_find?_eq_some hfind)
  simp only [Bool.and_eq_true, decide_eq_true_eq]
  omega

end Text

namespace Numeral

/-- A decimal digit of some script, and what it stands for. -/
structure Digit where
  char : Char
  value : Nat
  stands : Text.digitValue? char = some value

/-- A digit with others behind it, each of them with or without an underscore in front. -/
structure Row where
  first : Digit
  later : List (Bool × Digit)

namespace Row

def written (r : Row) : Text :=
  r.first.char :: r.later.flatMap fun (underscored, d) =>
    if underscored then ['_', d.char] else [d.char]

/-- What the digits stand for, in their order. -/
def values (r : Row) : List Nat :=
  r.first.value :: r.later.map fun (_, d) => d.value

/-- The number of the row: the last digit counts ones, the one before it tens, and so on. -/
def number (r : Row) : Nat :=
  Nat.ofDigits 10 r.values.reverse

end Row

inductive Sign where
  | none
  | plus
  | minus
  deriving DecidableEq

namespace Sign

def written : Sign → Text
  | .none => []
  | .plus => ['+']
  | .minus => ['-']

def applied : Sign → Nat → Int
  | .minus, n => -n
  | _, n => n

end Sign

/-- A way to write an integer. -/
structure Spelling where
  before : Text
  sign : Sign
  row : Row
  behind : Text
  blank_before : ∀ c ∈ before, Text.isBlank c = true
  blank_behind : ∀ c ∈ behind, Text.isBlank c = true
  length_le : row.values.length ≤ 4300

namespace Spelling

def written (s : Spelling) : Text :=
  s.before ++ (s.sign.written ++ s.row.written) ++ s.behind

def value (s : Spelling) : Int :=
  s.sign.applied s.row.number

end Spelling

variable {t : Text} {ds : List Nat} {c : Char} {v n : Nat} {z : Int}

theorem Digit.char_ne (d : Digit) (h : Text.digitValue? c = none) : d.char ≠ c := by
  intro hc
  simpa [hc, h] using d.stands

theorem digits?_underscore (hv : Text.digitValue? c = some v) (t : Text) :
    digits? (c :: '_' :: t) = (digits? t).map (v :: ·) := by
  rw [digits?, hv]
  rfl

/-- An underscore is no digit, so none begins a row. -/
theorem digits?_cons_written (hv : Text.digitValue? c = some v) (r : Row) :
    digits? (c :: r.written) = (digits? r.written).map (v :: ·) := by
  have hne : r.first.char ≠ '_' := r.first.char_ne (by decide)
  simp only [Row.written]
  rw [digits?, hv]
  simp only [hne, if_false]

theorem digits?_written (r : Row) : digits? r.written = some r.values := by
  obtain ⟨first, later⟩ := r
  induction later generalizing first with
  | nil => simp [Row.written, Row.values, digits?, first.stands]
  | cons entry later ih =>
    obtain ⟨underscored, d⟩ := entry
    cases underscored with
    | true =>
      have hwritten : (Row.mk first ((true, d) :: later)).written =
          first.char :: '_' :: (Row.mk d later).written := rfl
      rw [hwritten, digits?_underscore first.stands, ih d]
      rfl
    | false =>
      have hwritten : (Row.mk first ((false, d) :: later)).written =
          first.char :: (Row.mk d later).written := rfl
      rw [hwritten, digits?_cons_written first.stands, ih d]
      rfl

theorem exists_row_of_digits? (h : digits? t = some ds) :
    ∃ r : Row, r.written = t ∧ r.values = ds := by
  fun_induction digits? t generalizing ds with
  | case1 => simp at h
  | case2 c =>
    obtain ⟨v, hv, rfl⟩ := Option.map_eq_some_iff.1 h
    exact ⟨⟨⟨c, v, hv⟩, []⟩, rfl, rfl⟩
  | case3 => simp at h
  | case4 c rest v hv ih =>
    obtain ⟨vs, hvs, rfl⟩ := Option.map_eq_some_iff.1 h
    obtain ⟨⟨first, later⟩, rfl, rfl⟩ := ih hvs
    exact ⟨⟨⟨c, v, hv⟩, (true, first) :: later⟩, rfl, rfl⟩
  | case5 c next rest v hv hnext ih =>
    obtain ⟨vs, hvs, rfl⟩ := Option.map_eq_some_iff.1 h
    obtain ⟨⟨first, later⟩, hw, rfl⟩ := ih hvs
    exact ⟨⟨⟨c, v, hv⟩, (false, first) :: later⟩, congrArg (c :: ·) hw, rfl⟩

theorem value_eq_ofDigits (ds : List Nat) : value ds = Nat.ofDigits 10 ds.reverse := by
  rw [Nat.ofDigits_eq_foldr, List.foldr_reverse, value]
  simp [Nat.add_comm]

theorem natural?_eq_some_iff :
    natural? t = some n ↔ ∃ r : Row, r.values.length ≤ 4300 ∧ r.written = t ∧ r.number = n := by
  unfold natural?
  constructor
  · intro h
    split at h
    · simp at h
    · next ds hds =>
      obtain ⟨r, rfl, rfl⟩ := exists_row_of_digits? hds
      split at h
      · next hlength =>
        rw [value_eq_ofDigits] at h
        exact ⟨r, hlength, rfl, Option.some.inj h⟩
      · simp at h
  · rintro ⟨r, hlength, rfl, rfl⟩
    simp only [digits?_written, maxDigits, hlength, if_true, value_eq_ofDigits]
    rfl

/-- A signed numeral is read as its sign and what is behind it. -/
theorem exists_signed? (t : Text) :
    ∃ (sign : Sign) (u : Text), sign.written ++ u = t ∧
      signed? t = (natural? u).map sign.applied := by
  unfold signed?
  split
  · next rest => exact ⟨.minus, rest, rfl, by cases natural? rest <;> rfl⟩
  · next rest => exact ⟨.plus, rest, rfl, by cases natural? rest <;> rfl⟩
  · exact ⟨.none, t, rfl, by cases natural? t <;> rfl⟩

/-- A sign is no digit, so what is taken for the sign of a row is its sign. -/
theorem signed?_written (sign : Sign) (r : Row) :
    signed? (sign.written ++ r.written) = (natural? r.written).map sign.applied := by
  cases sign with
  | none =>
    have hminus : r.first.char ≠ '-' := r.first.char_ne (by decide)
    have hplus : r.first.char ≠ '+' := r.first.char_ne (by decide)
    simp only [Sign.written, List.nil_append]
    unfold signed?
    split
    · next h => exact absurd (List.cons.inj h).1 hminus
    · next h => exact absurd (List.cons.inj h).1 hplus
    · cases natural? r.written <;> rfl
  | plus =>
    simp only [Sign.written, List.singleton_append, signed?]
    cases natural? r.written <;> rfl
  | minus =>
    simp only [Sign.written, List.singleton_append, signed?]
    cases natural? r.written <;> rfl

theorem signed?_eq_some_iff :
    signed? t = some z ↔ ∃ (sign : Sign) (r : Row), r.values.length ≤ 4300 ∧
      sign.written ++ r.written = t ∧ sign.applied r.number = z := by
  constructor
  · intro h
    obtain ⟨sign, u, rfl, hsigned⟩ := exists_signed? t
    rw [hsigned] at h
    obtain ⟨n, hn, rfl⟩ := Option.map_eq_some_iff.1 h
    obtain ⟨r, hlength, rfl, rfl⟩ := natural?_eq_some_iff.1 hn
    exact ⟨sign, r, hlength, rfl, rfl⟩
  · rintro ⟨sign, r, hlength, rfl, rfl⟩
    rw [signed?_written, natural?_eq_some_iff.2 ⟨r, hlength, rfl, rfl⟩]
    rfl

theorem isBlank_eq_false_of_mem_row {r : Row} (h : c ∈ r.written) : Text.isBlank c = false := by
  rw [Row.written, List.mem_cons, List.mem_flatMap] at h
  rcases h with rfl | ⟨⟨underscored, d⟩, -, hc⟩
  · exact Text.isBlank_eq_false_of_digit r.first.stands
  · have hd := Text.isBlank_eq_false_of_digit d.stands
    cases underscored with
    | false =>
      obtain rfl : c = d.char := List.mem_singleton.1 hc
      exact hd
    | true =>
      rcases List.mem_cons.1 hc with rfl | hc
      · decide
      · obtain rfl : c = d.char := List.mem_singleton.1 hc
        exact hd

theorem isBlank_eq_false_of_mem_sign {sign : Sign} (h : c ∈ sign.written) :
    Text.isBlank c = false := by
  cases sign with
  | none => exact absurd h List.not_mem_nil
  | plus =>
    obtain rfl := List.mem_singleton.1 h
    decide
  | minus =>
    obtain rfl := List.mem_singleton.1 h
    decide

/-- What is read as an integer is what is written as one, and it is read with its value. -/
theorem toInt?_eq_some_iff : toInt? t = some z ↔ ∃ s : Spelling, s.written = t ∧ s.value = z := by
  rw [toInt?, signed?_eq_some_iff]
  constructor
  · rintro ⟨sign, r, hlength, hwritten, rfl⟩
    obtain ⟨before, behind, ht, hbefore, hbehind⟩ := Text.exists_stripBlanks t
    refine ⟨⟨before, sign, r, behind, hbefore, hbehind, hlength⟩, ?_, rfl⟩
    rw [Spelling.written, hwritten, ← ht]
  · rintro ⟨⟨before, sign, r, behind, hbefore, hbehind, hlength⟩, rfl, rfl⟩
    refine ⟨sign, r, hlength, ?_, rfl⟩
    refine (Text.stripBlanks_append hbefore ?_ ?_ hbehind).symm
    · simp [Row.written]
    · intro c hc
      rcases List.mem_append.1 hc with hc | hc
      · exact isBlank_eq_false_of_mem_sign hc
      · exact isBlank_eq_false_of_mem_row hc

theorem toInt?_eq_none_iff : toInt? t = none ↔ ∀ s : Spelling, s.written ≠ t := by
  rw [Option.eq_none_iff_forall_ne_some]
  constructor
  · intro h s hs
    exact h s.value (toInt?_eq_some_iff.2 ⟨s, hs, rfl⟩)
  · intro h z hz
    obtain ⟨s, hs, -⟩ := toInt?_eq_some_iff.1 hz
    exact h s hs

/-- The usual form of an integer: its digits without a leading zero, behind a minus if it is
negative. -/
def decimal (z : Int) : Text :=
  if z < 0 then '-' :: Nat.toDigits 10 z.natAbs else Nat.toDigits 10 z.natAbs

theorem mem_decimal (h : c ∈ decimal z) : c = '-' ∨ c.isDigit = true := by
  have hdigit : c ∈ Nat.toDigits 10 z.natAbs → c.isDigit = true :=
    Nat.isDigit_of_mem_toDigits (by decide) (by decide)
  unfold decimal at h
  split at h
  · exact (List.mem_cons.1 h).imp_right hdigit
  · exact .inr (hdigit h)

theorem not_mem_decimal (hminus : c ≠ '-') (hdigit : c.isDigit = false) : c ∉ decimal z := by
  intro hc
  rcases mem_decimal hc with rfl | h
  · exact hminus rfl
  · simp [hdigit] at h

theorem decimal_ne_nil (z : Int) : decimal z ≠ [] := by
  unfold decimal
  split
  · exact List.cons_ne_nil _ _
  · exact Nat.toDigits_ne_nil

theorem digits?_of_isDigit (hne : t ≠ []) (h : ∀ c ∈ t, c.isDigit = true) :
    digits? t = some (t.map fun c => c.toNat - 48) := by
  induction t with
  | nil => exact absurd rfl hne
  | cons c t ih =>
    have hc := Text.digitValue?_of_isDigit (h c List.mem_cons_self)
    cases t with
    | nil => simp [digits?, hc]
    | cons next rest =>
      have hrest := ih (List.cons_ne_nil _ _) fun d hd => h d (List.mem_cons_of_mem _ hd)
      have hnext : next ≠ '_' := by
        rintro rfl
        exact absurd (h '_' (by simp)) (by decide)
      rw [digits?, hc]
      simp [hnext, hrest]

/-- The usual form of a natural number is a row of as many digits. -/
theorem exists_row_toDigits (n : Nat) :
    ∃ r : Row, r.written = Nat.toDigits 10 n ∧ r.number = n ∧
      r.values.length = (Nat.toDigits 10 n).length := by
  have hdigits := digits?_of_isDigit (Nat.toDigits_ne_nil (n := n) (b := 10)) fun c =>
    Nat.isDigit_of_mem_toDigits (by decide) (by decide)
  obtain ⟨r, hwritten, hvalues⟩ := exists_row_of_digits? hdigits
  refine ⟨r, hwritten, ?_, by simp [hvalues]⟩
  rw [Row.number, hvalues, ← value_eq_ofDigits, value, List.foldl_map]
  exact Nat.ofDigitChars_toDigits (by decide) (by decide)

/-- An integer of at most 4300 digits is read from its usual form. -/
theorem toInt?_decimal (h : (Nat.toDigits 10 z.natAbs).length ≤ 4300) :
    toInt? (decimal z) = some z := by
  obtain ⟨r, hwritten, hnumber, hlength⟩ := exists_row_toDigits z.natAbs
  have spelled (sign : Sign) : toInt? (sign.written ++ r.written) = some (sign.applied r.number) :=
    toInt?_eq_some_iff.2 ⟨⟨[], sign, r, [], by simp, by simp, hlength ▸ h⟩,
      by simp [Spelling.written], rfl⟩
  rw [decimal, ← hwritten]
  split
  · next hneg =>
    have hz : Sign.applied .minus r.number = z := by
      simp only [Sign.applied, hnumber]
      omega
    rw [← hz]
    exact spelled .minus
  · next hpos =>
    have hz : Sign.applied .none r.number = z := by
      simp only [Sign.applied, hnumber]
      omega
    rw [← hz]
    exact spelled .none

end Numeral

end PocketShell
