/-!
# Text

Text is the list of its characters, so that a rule about lines, words or paths is an
induction on a list. Text is cut into fields at a separator, empty fields kept, and parts
are joined with a separator between them: parts without the separator are the fields of what
they are joined to, and the fields of two texts around a separator are the fields of the one
and of the other.
-/

namespace PocketShell

/-- Text, as the list of its characters. -/
abbrev Text := List Char

namespace Text

/-- The fields of a text: what stands before, between and after its separators. There is
one field more than there are separators, so there is always one. -/
def fields (separator : Char) : Text → List Text
  | [] => [[]]
  | c :: rest =>
    if c = separator then [] :: fields separator rest
    else match fields separator rest with
      | [] => [[c]]
      | field :: more => (c :: field) :: more

/-- The parts one after the other, with the separator between two neighbours. -/
def joined (separator : Text) : List Text → Text
  | [] => []
  | [part] => part
  | part :: next :: more => part ++ separator ++ joined separator (next :: more)

theorem fields_ne_nil (separator : Char) (t : Text) : fields separator t ≠ [] := by
  cases t with
  | nil => simp [fields]
  | cons c rest =>
    unfold fields
    split
    · simp
    · split <;> simp

theorem joined_cons (separator part : Text) {parts : List Text} (h : parts ≠ []) :
    joined separator (part :: parts) = part ++ separator ++ joined separator parts := by
  cases parts with
  | nil => exact absurd rfl h
  | cons next more => rfl

theorem fields_of_not_mem {separator : Char} {t : Text} (h : separator ∉ t) :
    fields separator t = [t] := by
  induction t with
  | nil => rfl
  | cons c rest ih =>
    rw [List.mem_cons, not_or] at h
    simp [fields, Ne.symm h.1, ih h.2]

theorem not_mem_of_mem_fields {separator : Char} {t field : Text}
    (h : field ∈ fields separator t) : separator ∉ field := by
  induction t generalizing field with
  | nil => simp_all [fields]
  | cons c rest ih =>
    unfold fields at h
    split at h
    · rcases List.mem_cons.1 h with rfl | h
      · exact List.not_mem_nil
      · exact ih h
    · next hc =>
      split at h
      · rw [List.mem_singleton.1 h]
        simpa using Ne.symm hc
      · next first more hf =>
        rw [hf] at ih
        rcases List.mem_cons.1 h with rfl | h
        · rw [List.mem_cons, not_or]
          exact ⟨Ne.symm hc, ih List.mem_cons_self⟩
        · exact ih (List.mem_cons_of_mem _ h)

/-- A separator ends a field wherever it stands. -/
theorem fields_append (separator : Char) (a b : Text) :
    fields separator (a ++ separator :: b) = fields separator a ++ fields separator b := by
  induction a with
  | nil => simp [fields]
  | cons c rest ih =>
    simp only [List.cons_append, fields, ih]
    split
    · rfl
    · split
      · next h =>
        have hf : fields separator rest = [] := by
          cases hr : fields separator rest <;> simp_all
        exact absurd hf (fields_ne_nil separator rest)
      · next field more h =>
        cases hf : fields separator rest with
        | nil => exact absurd hf (fields_ne_nil separator rest)
        | cons g gs =>
          rw [hf] at h
          simp only [List.cons_append, List.cons.injEq] at h
          simp [h.1, h.2]

/-- Parts that hold no separator are the fields of the text that they are joined to. -/
theorem fields_joined {separator : Char} {parts : List Text} (hne : parts ≠ [])
    (h : ∀ part ∈ parts, separator ∉ part) :
    fields separator (joined [separator] parts) = parts := by
  induction parts with
  | nil => exact absurd rfl hne
  | cons part rest ih =>
    have hpart := fields_of_not_mem (h part List.mem_cons_self)
    cases rest with
    | nil => exact hpart
    | cons next more =>
      rw [joined_cons _ _ (List.cons_ne_nil _ _), List.append_assoc, List.singleton_append,
        fields_append, hpart,
        ih (List.cons_ne_nil _ _) fun p hp => h p (List.mem_cons_of_mem _ hp)]
      rfl

end Text

end PocketShell
